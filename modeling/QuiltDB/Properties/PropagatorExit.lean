import QuiltDB.Lib.Lts
import QuiltDB.Properties.Handlers

/-!
# propagator の終了

propagator thread だけを取り出し、application・receiver・timer・下流からの message が
どんな順で来ても、終了の条件がそろった時に `return` しているかを調べる。

`have_stopped_timer_thr` は timer の分岐でしか立たない。間隔が正でなければ timer thread は
始まらないので、旗は立たず、propagator は `return` しない。
-/

namespace QuiltDB

/-- propagator thread の一歩。`prop_push_sock` に送ったものも並べておく。 -/
def propStep {V : Type} [Zero V] [DecidableEq V] (c : NodeConfig V)
    (s : Propagator V × List (PropRecvMsg V)) (i : PropInput V) :
    Option (Except Fault (Propagator V × List (PropRecvMsg V))) :=
  (propHandle c s.1 i).map (Except.map fun res => (res.1, s.2 ++ res.2.push))

/-- `is` を順に処理した propagator の状態。 -/
def PropRun {V : Type} [Zero V] [DecidableEq V] (c : NodeConfig V) (is : List (PropInput V))
    (s : Propagator V × List (PropRecvMsg V)) : Prop :=
  Lts.run (propStep c) (Propagator.start c, []) is = some s

namespace PropagatorExit

variable {V : Type} {c : NodeConfig V} {is : List (PropInput V)}
  {p p' : Propagator V} {sent : List (PropRecvMsg V)} {out : PropOut V}

/-- 処理したことの列 `is`・送ったものの列 `sent` と propagator の状態の関係。 -/
structure Tracks (c : NodeConfig V) (is : List (PropInput V)) (p : Propagator V)
    (sent : List (PropRecvMsg V)) : Prop where
  stoppedTimer : p.haveStoppedTimerThr = true ↔ .timerStopped ∈ is
  stoppedRecv : p.haveStoppedRecvThr = true ↔ .update .epRecvInternalTerminateACK ∈ is
  replied : p.haveRepliedDsTerm = true ↔
    c.hasDownstream = false ∨ .eprTerminateACK c.myId ∈ sent
  started : p.state ≠ .init
  /-- RUN の間は timer を止めない。 -/
  running : p.state = .run → p.haveStoppedTimerThr = false ∧ p.pc ≠ .waitStop
  /-- TERM_PREP なら、下流の終了の合図には返事をしている。 -/
  answered : p.state = .termPrep → p.haveReceivedDsTerm = true → p.haveRepliedDsTerm = true
  /-- 旗がそろっていれば `return` している。 -/
  complete : p.haveStoppedTimerThr = true → p.haveStoppedRecvThr = true →
    p.haveRepliedDsTerm = true → p.state = .term ∧ p.pc = .returned
  returned : p.state = .term → p.haveStoppedTimerThr = true ∧ p.pc = .returned
  /-- timer が無ければ main loop から出ない。 -/
  noTimer : c.nanosec ≤ 0 → p.haveStoppedTimerThr = false ∧ (p.pc = .poll ∨ p.pc = .returned)

theorem tracks_start : Tracks c [] (Propagator.start c) [] where
  stoppedTimer := by simp [Propagator.start]
  stoppedRecv := by simp [Propagator.start]
  replied := by simp [Propagator.start]
  started := by simp [Propagator.start]
  running := fun _ => ⟨rfl, by simp [Propagator.start]⟩
  answered := fun h => by cases h
  complete := fun h => by cases h
  returned := fun h => by cases h
  noTimer := fun _ => ⟨rfl, Or.inl rfl⟩

/-- 終了の旗に触らない一歩は関係を保つ。 -/
theorem Tracks.frame (h : Tracks c is p sent) {i : PropInput V} {T : TableId → PropTable V}
    {k : Bool} {pc : PropagatorPc V} {push : List (PropRecvMsg V)}
    (h1 : i ≠ .timerStopped) (h2 : i ≠ .update .epRecvInternalTerminateACK)
    (hpush : .eprTerminateACK c.myId ∉ push) (hpc : p.pc ≠ .returned)
    (hrun : p.state = .run → pc ≠ .waitStop)
    (hno : c.nanosec ≤ 0 → pc = .poll) :
    Tracks c (is ++ [i]) { p with tab := T, pairPushSock := k, pc := pc } (sent ++ push) where
  stoppedTimer := by simpa [h1.symm] using h.stoppedTimer
  stoppedRecv := by simpa [h2.symm] using h.stoppedRecv
  replied := by simpa [hpush] using h.replied
  started := h.started
  running := fun hs => ⟨(h.running hs).1, hrun hs⟩
  answered := h.answered
  complete := fun h1 h2 h3 => absurd (h.complete h1 h2 h3).2 hpc
  returned := fun hs => absurd (h.returned hs).2 hpc
  noTimer := fun hn => ⟨(h.noTimer hn).1, Or.inl (hno hn)⟩

/-- 終了の判定を最後にする一歩。 -/
theorem tracks_test {i : PropInput V} {push : List (PropRecvMsg V)}
    {q : Propagator V} (hq : q.pc = .poll)
    (hT : q.haveStoppedTimerThr = true ↔ .timerStopped ∈ is ++ [i])
    (hR : q.haveStoppedRecvThr = true ↔ .update .epRecvInternalTerminateACK ∈ is ++ [i])
    (hD : q.haveRepliedDsTerm = true ↔
      c.hasDownstream = false ∨ .eprTerminateACK c.myId ∈ sent ++ push)
    (hinit : q.state ≠ .init) (hrun : q.state = .run → q.haveStoppedTimerThr = false)
    (hans : q.state = .termPrep → q.haveReceivedDsTerm = true → q.haveRepliedDsTerm = true)
    (hterm : q.state ≠ .term) (hno : c.nanosec ≤ 0 → q.haveStoppedTimerThr = false) :
    Tracks c (is ++ [i]) q.exitTest (sent ++ push) := by
  rw [Propagator.exitTest_eq]
  cases hflag : q.haveStoppedTimerThr && q.haveStoppedRecvThr && q.haveRepliedDsTerm with
  | true =>
    rw [Bool.and_eq_true, Bool.and_eq_true] at hflag
    refine ⟨hT, hR, hD, by simp, fun hs => ?_, fun _ _ => hflag.2, fun _ _ _ => ⟨rfl, rfl⟩,
      fun _ => ⟨hflag.1.1, rfl⟩, fun hn => ?_⟩
    · cases hs
    · rw [hno hn] at hflag
      exact absurd hflag.1.1 (by simp)
  | false =>
    refine ⟨hT, hR, hD, by simpa using hinit, fun hs => ⟨hrun hs, by simp [hq]⟩, hans, fun h1 h2 h3 => ?_,
      fun hs => absurd hs hterm, fun hn => ⟨hno hn, Or.inl (by simp [hq])⟩⟩
    dsimp only at h1 h2 h3
    rw [h1, h2, h3] at hflag
    cases hflag

/-- `update_pull_sock` の message の処理は関係を保つ。 -/
theorem Tracks.update_step [Zero V] (h : Tracks c is p sent) (hpc : p.pc = .poll)
    {msg : PropagatorMsg V} (hok : p.handleUpdate c msg = .ok (p', out)) :
    Tracks c (is ++ [.update msg]) p' (sent ++ out.push) := by
  have hne : p.pc ≠ .returned := by rw [hpc]; simp
  have hterm : p.state ≠ .term := fun hs => hne (h.returned hs).2
  cases msg with
  | epUpdateLog t key delta =>
    rcases Propagator.onUpdateLog_ok_cases hok with ⟨-, rfl, rfl⟩ | ⟨-, -, rfl, rfl⟩ <;>
      exact h.frame (by simp) (by simp) (by simp) hne (by simp [hpc]) (by simp [hpc])
  | epUpdateBuffer t buff =>
    obtain ⟨tc, -, ⟨-, rfl, rfl⟩ | ⟨-, peers, -, rfl, rfl⟩⟩ :=
      Propagator.onUpdateBuffer_ok_cases hok <;>
      exact h.frame (by simp) (by simp) (by simp) hne (by simp [hpc]) (by simp [hpc])
  | epInternalTerminate =>
    -- 返事の旗がここで初めて立つのは RUN の時で、その時 timer はまだ止まっていない
    rcases Propagator.onInternalTerminate_ok_cases hok with ⟨hr, rfl, rfl⟩ | ⟨hr, hd, rfl, rfl⟩
    · refine ⟨by simpa using h.stoppedTimer, by simpa using h.stoppedRecv,
        by simpa using h.replied, by simp, by simp, fun _ hc => ?_, fun h1 h2 h3 => ?_,
        by simp, fun hn => ⟨(h.noTimer hn).1, Or.inl hpc⟩⟩
      · rw [hr] at hc; cases hc
      · exact absurd (h.complete h1 h2 h3).2 hne
    · refine ⟨by simpa using h.stoppedTimer, by simpa using h.stoppedRecv,
        by simp, by simp, by simp, fun _ _ => rfl, fun h1 h2 _ => ?_,
        by simp, fun hn => ⟨(h.noTimer hn).1, Or.inl hpc⟩⟩
      cases hs : p.state with
      | init => exact absurd hs h.started
      | run => exact absurd h1 (by simp [(h.running hs).1])
      | termPrep => exact absurd (h.complete h1 h2 (h.answered hs hr)).2 hne
      | term => exact absurd hs hterm
  | epRecvInternalTerminateACK =>
    cases hok
    exact tracks_test hpc (by simpa using h.stoppedTimer) (by simp) (by simpa using h.replied)
      h.started (fun hs => (h.running hs).1) h.answered hterm (fun hn => (h.noTimer hn).1)
  | epRInit => cases hok
  | eMyUpdatesACK => cases hok

/-- 下流の message の処理は関係を保つ。 -/
theorem Tracks.termSub_step (h : Tracks c is p sent) (hpc : p.pc = .poll)
    {msg : PropRecvMsg V} (hok : p.handleTermSub c msg = .ok (p', out)) :
    Tracks c (is ++ [.termSub msg]) p' (sent ++ out.push) := by
  have hne : p.pc ≠ .returned := by rw [hpc]; simp
  have hterm : p.state ≠ .term := fun hs => hne (h.returned hs).2
  cases msg with
  | eprUpdateBuffer t buff => cases hok
  | eprTerminateACK id => cases hok
  | eprTerminate =>
    rcases Propagator.onTerminate_ok_cases hok with ⟨hs, rfl, rfl⟩ | ⟨hs, hd, rfl, rfl⟩
    · refine ⟨by simpa using h.stoppedTimer, by simpa using h.stoppedRecv,
        by simpa using h.replied, h.started, h.running, fun hr _ => absurd hr hs, h.complete,
        h.returned, h.noTimer⟩
    · exact tracks_test hpc (by simpa using h.stoppedTimer) (by simpa using h.stoppedRecv)
        (by simp) h.started (fun hr => by rw [hs] at hr; cases hr) (fun _ _ => rfl) hterm
        (fun hn => (h.noTimer hn).1)

/-- 進んだ一歩は、送ったものを後ろに並べる。 -/
theorem propStep_ok [Zero V] [DecidableEq V] {i : PropInput V} {sent' : List (PropRecvMsg V)}
    (h : propStep c (p, sent) i = some (.ok (p', sent'))) :
    ∃ out, propHandle c p i = some (.ok (p', out)) ∧ sent' = sent ++ out.push := by
  obtain ⟨res, hres, hmap⟩ := Option.map_eq_some_iff.mp h
  cases res with
  | error e => cases hmap
  | ok res =>
    cases hmap
    exact ⟨res.2, hres, rfl⟩

/-- どの一歩も関係を保つ。 -/
theorem Tracks.step [Zero V] [DecidableEq V] (h : Tracks c is p sent) {i : PropInput V}
    {sent' : List (PropRecvMsg V)} (h' : propStep c (p, sent) i = some (.ok (p', sent'))) :
    Tracks c (is ++ [i]) p' sent' := by
  obtain ⟨out, hok, rfl⟩ := propStep_ok h'
  unfold propHandle at hok
  split at hok
  · next order hpc =>
    split at hok
    · next hn =>
      cases hok
      exact h.frame (k := p.pairPushSock) (by simp) (by simp) (by simp)
        (by rw [hpc]; simp) (by simp) (fun hc => absurd hn.1 (by omega))
    · cases hok
  · next o t todo hpc =>
    split at hok
    -- flush の三つの結果は、どれも終了の flag に触らない
    · have hneed : ∀ {tab sock pc push}, .eprTerminateACK c.myId ∉ push →
          pc ≠ .waitStop → Tracks c (is ++ [.flushTable o])
            { p with tab := tab, pairPushSock := sock, pc := pc } (sent ++ push) :=
        fun hp hw => h.frame (by simp) (by simp) hp (by rw [hpc]; simp) (fun _ => hw)
          (fun hn => by rcases (h.noTimer hn).2 with hc | hc <;> rw [hpc] at hc <;> cases hc)
      rcases Propagator.flushTable_ok_cases (Option.some.inj hok) with ⟨-, rfl, rfl⟩ |
        ⟨-, b, ps, -, ⟨-, -, mb, -, rfl, rfl⟩ | ⟨-, -, rfl, rfl⟩⟩ <;>
        exact hneed (by simp) (by simp)
    · cases hok
  · next msg t buff todo hpc =>
    obtain ⟨-, -, rfl, rfl⟩ := Propagator.onMyUpdatesReply_ok_cases (Option.some.inj hok)
    exact h.frame (by simp) (by simp) (by simp) (by rw [hpc]; simp) (by simp)
      (fun hn => by rcases (h.noTimer hn).2 with hc | hc <;> rw [hpc] at hc <;> cases hc)
  · next hpc =>
    cases hok
    refine h.frame (T := p.tab) (k := p.pairPushSock) (by simp) (by simp) (by simp)
      (by rw [hpc]; simp) (fun hs => by simp [hs])
      (fun hn => by rcases (h.noTimer hn).2 with hc | hc <;> rw [hpc] at hc <;> cases hc)
  · next hpc =>
    cases hok
    -- timer が止まるのを待つのは、RUN を出た後だけである
    have hs : p.state ≠ .run := fun hs => (h.running hs).2 hpc
    refine tracks_test rfl (by simp) (by simpa using h.stoppedRecv) (by simpa using h.replied)
      h.started (fun hr => absurd hr hs) h.answered (fun ht => ?_) (fun hn => ?_)
    · rw [(h.returned ht).2] at hpc; cases hpc
    · rcases (h.noTimer hn).2 with hc | hc <;> rw [hpc] at hc <;> cases hc
  · next msg hpc => exact h.update_step hpc (Option.some.inj hok)
  · next msg hpc =>
    split at hok
    · exact h.termSub_step hpc (Option.some.inj hok)
    · cases hok
  · cases hok

/-- run の全体についての関係。 -/
theorem tracks_run [Zero V] [DecidableEq V] {s : Propagator V × List (PropRecvMsg V)}
    (hrun : PropRun c is s) : Tracks c is s.1 s.2 := by
  induction is using List.reverseRecOn generalizing s with
  | nil =>
    cases hrun
    exact tracks_start
  | append_singleton is i ih =>
    obtain ⟨s₁, h1, h2⟩ := Lts.run_concat hrun
    exact (ih h1).step h2

end PropagatorExit

/--
**propagator がそろって終了する条件。**

`EPRecvInternalTerminateACK` を処理し、下流があれば `EPRTerminateACK` を送り、
timer thread が動いていない（止めたか、始めていない）propagator が `return` しているのは、
batch の間隔が正の時、かつその時に限る。`EPInternalTerminate` を処理したかどうかには依らない。
-/
theorem propagator_exit_iff {V : Type} [Zero V] [DecidableEq V] (c : NodeConfig V)
    (is : List (PropInput V)) (s : Propagator V × List (PropRecvMsg V)) (hrun : PropRun c is s)
    (hrecv : .update .epRecvInternalTerminateACK ∈ is)
    (hds : c.hasDownstream = true → .eprTerminateACK c.myId ∈ s.2)
    (htimer : c.nanosec ≤ 0 ∨ .timerStopped ∈ is) :
    (s.1.state = .term ∧ s.1.pc = .returned) ↔ 0 < c.nanosec := by
  have h := PropagatorExit.tracks_run hrun
  constructor
  · rintro ⟨hs, -⟩
    by_contra hn
    have := (h.returned hs).1
    rw [(h.noTimer (by omega)).1] at this
    cases this
  · intro hn
    refine h.complete (h.stoppedTimer.mpr (htimer.resolve_left (by omega)))
      (h.stoppedRecv.mpr hrecv) (h.replied.mpr ?_)
    cases hd : c.hasDownstream with
    | false => exact Or.inl rfl
    | true => exact Or.inr (hds hd)

/-- 上流も下流も table も無い node。 -/
def soleNode (nanosec : Int) : NodeConfig (BitVec 32) where
  myId := 0
  nanosec := nanosec
  downstreamRecv := -1
  expected := []
  tableDir := ∅

/-- 間隔が正なら、timer を止めた所で `return` する。 -/
theorem propagator_exit_with_timer :
    ∃ s, PropRun (soleNode 500000) [.update .epInternalTerminate,
      .update .epRecvInternalTerminateACK, .timerTrigger [], .flushEnd, .timerStopped] s ∧
      s.1.state = .term ∧ s.1.pc = .returned := by
  obtain ⟨s, hs⟩ := Option.isSome_iff_exists.mp (show (Lts.run (propStep (soleNode 500000))
    (Propagator.start (soleNode 500000), []) [.update .epInternalTerminate,
      .update .epRecvInternalTerminateACK, .timerTrigger [], .flushEnd, .timerStopped]).isSome
    = true by decide +kernel)
  exact ⟨s, hs, (propagator_exit_iff _ _ s hs (by simp)
    (fun hd => absurd hd (by decide)) (by simp)).mpr (by decide)⟩

/-- 間隔が 0 なら、待つものが無くなっても TERM_PREP のまま main loop に残る。 -/
theorem propagator_stuck_without_timer :
    ∃ is s, PropRun (soleNode 0) is s ∧ .update .epInternalTerminate ∈ is ∧
      .update .epRecvInternalTerminateACK ∈ is ∧
      ((soleNode 0).hasDownstream = true → .eprTerminateACK (soleNode 0).myId ∈ s.2) ∧
      (soleNode 0).nanosec ≤ 0 ∧ ¬(s.1.state = .term ∧ s.1.pc = .returned) := by
  obtain ⟨s, hs, ht⟩ : ∃ s, PropRun (soleNode 0) [.update .epInternalTerminate,
      .update .epRecvInternalTerminateACK] s ∧ s.1.state = .termPrep :=
    Lts.exists_run (by decide +kernel)
  refine ⟨_, s, hs, by simp, by simp, fun hd => absurd hd (by decide), by decide, fun hc => ?_⟩
  rw [ht] at hc
  cases hc.1

end QuiltDB
