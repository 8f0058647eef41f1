import QuiltDB.Properties.PropRun
import QuiltDB.Comm.System

/-!
# propagator の socket

`PropagatorThrMain` は下流・batch の間隔・最初の使用という三つの条件で socket を作り分ける。
作っていない socket を使うのは、下流の無い node が tick で空でない store を送ろうとする時に限る。
-/

namespace QuiltDB

/-- propagator thread の socket。 -/
inductive Sock where
  | updatePull
  | pairPull
  | propPush
  | termSub
  | timerPull
  | timerSend
  | pairPush
  deriving Repr, DecidableEq

section sockets

variable {V : Type}

/-- 作ってある socket か。 -/
def Sock.created (c : NodeConfig V) (p : Propagator V) : Sock → Bool
  | .updatePull => true
  | .pairPull => true
  | .propPush => c.hasDownstream
  | .termSub => c.hasDownstream
  | .timerPull => decide (0 < c.nanosec)
  | .timerSend => decide (0 < c.nanosec)
  | .pairPush => p.pairPushSock

/-- 一歩が message を読む socket。 -/
def PropInput.reads : PropInput V → List Sock
  | .timerTrigger _ => [.timerPull]
  | .myUpdatesReply _ => [.pairPull]
  | .update _ => [.updatePull]
  | .termSub _ => [.termSub]
  | .flushTable _ => []
  | .flushEnd => []
  | .timerStopped => []

/-- 一歩が message を送る socket。 -/
def PropOut.writes (out : PropOut V) : List Sock :=
  out.cmd.map (fun _ => .timerSend) ++ out.pair.map (fun _ => .pairPush) ++
    out.push.map fun _ => .propPush

/--
一歩が使う socket は全て作ってある。

paired receiver への socket は送る直前に作るので、一歩の後の状態で調べる。
-/
def UsesOwned [Zero V] [DecidableEq V] (c : NodeConfig V) (p : Propagator V) (i : PropInput V) :
    Prop :=
  ∀ res, propHandle c p i = some res → (∀ k ∈ i.reads, k.created c p = true) ∧
    res ≠ .error .nullPropPushSock ∧
    ∀ p' out, res = .ok (p', out) → ∀ k ∈ out.writes, k.created c p' = true

/-- tick が空でない store を送るなら、下流がある。 -/
def sinkIdle (c : NodeConfig V) (s : PropHist V) : PropInput V → Bool
  | .flushTable _ =>
    match s.prop.pc with
    | .flush (t :: _) => c.hasDownstream || (s.prop.tab t).updateStore.entries.isEmpty
    | _ => true
  | _ => true

/-- 下流の無い propagator は、下流の合図を受けず、登録の返事も待たない。 -/
structure SinkInv (c : NodeConfig V) (p : Propagator V) : Prop where
  noTerm : c.hasDownstream = false → p.haveReceivedDsTerm = false
  noWait : c.hasDownstream = false → ∀ t b todo, p.pc ≠ .waitAck t b todo

variable [Zero V] {c : NodeConfig V} {p p' : Propagator V} {i : PropInput V} {out : PropOut V}

omit [Zero V] in
theorem SinkInv.exitTest (h : SinkInv c p) : SinkInv c p.exitTest := by
  rw [Propagator.exitTest_eq]
  refine ⟨h.noTerm, fun hd t b todo => ?_⟩
  dsimp only
  split
  · rintro ⟨⟩
  · exact h.noWait hd t b todo

theorem SinkInv.step {s : PropHist V} (h : SinkInv c s.prop) (hi : sinkIdle c s i = true)
    (he : PropEff c s.prop i p' out) : SinkInv c p' := by
  have hpoll : s.prop.pc = .poll → ∀ t b todo, s.prop.pc ≠ .waitAck t b todo := by
    intro hpc t b todo
    rw [hpc]
    rintro ⟨⟩
  cases he with
  | trigger | skip | send | reply => exact ⟨h.noTerm, by rintro _ _ _ _ ⟨⟩⟩
  | ask hpc _ hst =>
    refine ⟨h.noTerm, fun hd => ?_⟩
    simp only [sinkIdle, hpc, hd, Bool.false_or, List.isEmpty_iff] at hi
    exact absurd hi hst
  | flushEnd hpc =>
    refine ⟨h.noTerm, fun _ t b todo => ?_⟩
    rw [Propagator.flushEnd]
    dsimp only
    split
    · rintro ⟨⟩
    · rintro ⟨⟩
  | timerStopped hpc => exact SinkInv.exitTest ⟨h.noTerm, by rintro _ _ _ _ ⟨⟩⟩
  | log hpc => exact ⟨h.noTerm, fun _ => hpoll hpc⟩
  | record hpc => exact ⟨h.noTerm, fun _ => hpoll hpc⟩
  | drop => exact h
  | internalTerminate hpc => exact ⟨h.noTerm, fun _ => hpoll hpc⟩
  | recvAck hpc => exact SinkInv.exitTest ⟨h.noTerm, fun _ => hpoll hpc⟩
  | terminate hpc hd hp =>
    have hfalse : c.hasDownstream = false → False := fun h => by rw [hd] at h; cases h
    exact ⟨fun h => (hfalse h).elim, fun h => (hfalse h).elim⟩

/-- 読む socket は poll の対象にしたものだけである。 -/
theorem propHandle_reads [DecidableEq V] {res : Except Fault (Propagator V × PropOut V)}
    (h : propHandle c p i = some res) : ∀ k ∈ i.reads, k.created c p = true := by
  intro k hk
  unfold propHandle at h
  split at h
  · split at h
    · next hn =>
      rw [List.mem_singleton.mp hk]
      exact decide_eq_true hn.1
    · cases h
  · cases hk
  · rw [List.mem_singleton.mp hk]
    rfl
  · cases hk
  · cases hk
  · rw [List.mem_singleton.mp hk]
    rfl
  · split at h
    · next hd =>
      rw [List.mem_singleton.mp hk]
      exact hd
    · cases h
  · cases h

/-- 進んだ一歩が `prop_push_sock` に送るなら、下流がある。 -/
theorem PropEff.push_downstream (he : PropEff c p i p' out) (hpush : out.push ≠ []) :
    c.hasDownstream = true := by
  cases he with
  | send _ _ _ _ _ hd | reply _ hd | terminate _ hd => exact hd
  | internalTerminate _ hd => exact hd hpush
  | _ => exact absurd rfl hpush

/-- 進んだ一歩が送る socket は作ってある。 -/
theorem PropEff.writes_created (he : PropEff c p i p' out) :
    ∀ k ∈ out.writes, k.created c p' = true := by
  intro k hk
  rw [PropOut.writes, List.mem_append, List.mem_append] at hk
  rcases hk with (hk | hk) | hk
  · -- timer に返事をするのは timer の分岐だけである
    obtain ⟨n, hn, rfl⟩ := List.mem_map.mp hk
    cases he with
    | trigger _ hpos => exact decide_eq_true hpos
    | internalTerminate _ _ hcmd | terminate _ _ _ hcmd =>
      rw [hcmd] at hn
      cases hn
    | _ => cases hn
  · obtain ⟨m, hm, rfl⟩ := List.mem_map.mp hk
    cases he with
    | ask | internalTerminate => rfl
    | terminate _ _ _ _ hpair =>
      rw [hpair] at hm
      cases hm
    | _ => cases hm
  · obtain ⟨m, hm, rfl⟩ := List.mem_map.mp hk
    exact he.push_downstream (List.ne_nil_of_mem hm)

/--
**どの設定でも、application・receiver・timer・下流の message がどんな順で来ても、tick で空でない
store を送る propagator に下流があるなら、どの一歩も作ってある socket だけを使う。**
-/
theorem sockets_owned [DecidableEq V] {s : PropHist V}
    (h : PropReachableUnder c (fun s i => sinkIdle c s i = true) s)
    (hi : sinkIdle c s i = true) : UsesOwned c s.prop i := by
  have hinv : SinkInv c s.prop := by
    refine PropReachableUnder.invariant (I := fun s => SinkInv c s.prop) h ?_ ?_
    · exact ⟨fun _ => rfl, by rintro _ _ _ _ ⟨⟩⟩
    · exact fun s i p' out _ hi he hI => hI.step hi he
  intro res hres
  refine ⟨?_, ?_, ?_⟩
  · exact propHandle_reads hres
  · rintro rfl
    cases propHandle_fails hres with
    | flushNull hpc hst hd =>
      simp only [sinkIdle, hpc, hd, Bool.false_or, List.isEmpty_iff] at hi
      exact hst hi
    | replyNull hpc hd => exact hinv.noWait hd _ _ _ hpc
    | termNull hr hd =>
      rw [hinv.noTerm hd] at hr
      cases hr
  · rintro p' out rfl
    exact (propHandle_cases hres).writes_created

end sockets

/-! ## 木の根の node での例 -/

/-- 下流の無い node 0。table 0 を持ち、batch の間隔は正である。 -/
def sinkNode : NodeConfig (BitVec 32) where
  myId := 0
  nanosec := 1
  downstreamRecv := -1
  expected := [1]
  tableDir := (∅ : AList fun _ : TableId => TableConfig (BitVec 32)).insert 0
    { loopTable with loop := false }

/-- update の無い tick は、下流の無い node でも作ってある socket だけを使う。 -/
theorem sockets_owned_idle :
    ∃ s, PropReachableUnder sinkNode (fun s i => sinkIdle sinkNode s i = true) s ∧
      s.prop.pc = .flush [0] ∧ UsesOwned sinkNode s.prop (.flushTable ⟨[], [], []⟩) := by
  obtain ⟨s, hr, hpc, hidle⟩ : ∃ s,
      PropReachableUnder sinkNode (fun s i => sinkIdle sinkNode s i = true) s ∧
      s.prop.pc = .flush [0] ∧ sinkIdle sinkNode s (.flushTable ⟨[], [], []⟩) = true :=
    Lts.ReachableUnder.exists_of_run [.timerTrigger [0]] (by decide +kernel)
  exact ⟨s, hr, hpc, sockets_owned hr hidle⟩

/-- 木の根の node が自分の update を持って tick を迎えると、作っていない socket に送る。 -/
theorem sink_uses_null_socket :
    ∃ s, Lts.Reachable (histStep sinkNode) (PropHist.start sinkNode) s ∧
      ¬UsesOwned sinkNode s.prop (.flushTable ⟨[(1, 1)], [], []⟩) := by
  obtain ⟨s, hr, hfail⟩ : ∃ s, Lts.Reachable (histStep sinkNode) (PropHist.start sinkNode) s ∧
      failsWith .nullPropPushSock
        (propHandle sinkNode s.prop (.flushTable ⟨[(1, 1)], [], []⟩)) = true :=
    Lts.Reachable.exists_of_run [.update (.epUpdateLog 0 1 1), .timerTrigger [0]]
      (by decide +kernel)
  exact ⟨s, hr, fun howned => (howned _ (eq_of_failsWith hfail)).2.1 rfl⟩

end QuiltDB
