import QuiltDB.Lib.Lts
import QuiltDB.Properties.Handlers

/-!
# propagator thread の run

propagator thread だけの run を、処理したことと送ったものの履歴を付けて考える。履歴は動作には
使わない。`propHandle_cases` は進んだ一歩に何が起こりうるかを、`propHandle_fails` は落ちる一歩が
どれかを、それぞれ一度だけ述べる。
-/

namespace QuiltDB

variable {V : Type}

/-- 処理したことと、その間に送ったものを順に並べたもの。 -/
abbrev PropLog (V : Type) := List (PropInput V × PropOut V)

/-- propagator の状態と履歴。 -/
structure PropHist (V : Type) where
  prop : Propagator V
  log : PropLog V

section step

variable [Zero V] [DecidableEq V]

/-- 履歴を付けた一歩。 -/
def histStep (c : NodeConfig V) (s : PropHist V) (i : PropInput V) :
    Option (Except Fault (PropHist V)) :=
  (propHandle c s.prop i).map
    (Except.map fun res => { prop := res.1, log := s.log ++ [(i, res.2)] })

/-- main loop に入る時の状態。 -/
def PropHist.start (c : NodeConfig V) : PropHist V := { prop := Propagator.start c, log := [] }

/-- どの一歩も条件 `P` を満たす run で着ける状態。 -/
abbrev PropReachableUnder (c : NodeConfig V) (P : PropHist V → PropInput V → Prop) :
    PropHist V → Prop :=
  Lts.ReachableUnder (histStep c) P (PropHist.start c)

theorem histStep_ok {c : NodeConfig V} {s s' : PropHist V} {i : PropInput V}
    (h : histStep c s i = some (.ok s')) :
    ∃ out, propHandle c s.prop i = some (.ok (s'.prop, out)) ∧ s'.log = s.log ++ [(i, out)] := by
  unfold histStep at h
  obtain ⟨res, hres, hmap⟩ := Option.map_eq_some_iff.mp h
  cases res with
  | error e => cases hmap
  | ok res =>
    cases hmap
    exact ⟨res.2, hres, rfl⟩

end step

open Propagator in
/-- propagator の一歩に起こりうること。 -/
inductive PropEff [Zero V] (c : NodeConfig V) (p : Propagator V) :
    PropInput V → Propagator V → PropOut V → Prop
  | trigger {order} : p.pc = .poll → 0 < c.nanosec → order.Perm c.tableDir.keys →
      PropEff c p (.timerTrigger order) { p with pc := .flush order }
        { cmd := [if p.state = .run then c.nanosec else 0] }
  | skip {o t todo} : p.pc = .flush (t :: todo) → (p.tab t).updateStore.entries = [] →
      PropEff c p (.flushTable o) { p with pc := .flush todo } {}
  | ask {o t todo buff peers tc myBuff} : p.pc = .flush (t :: todo) → o.Valid (p.tab t) →
      (p.tab t).updateStore.entries ≠ [] → buildBuffer c (p.tab t) o = .ok (buff, peers) →
      c.tableDir.lookup t = some tc → tc.loop = true → (p.tab t).myUpdateStore.entries ≠ [] →
      buildMyBuffer c (p.tab t) o.mine = .ok myBuff →
      PropEff c p (.flushTable o)
        { p with
          tab := Function.update p.tab t { p.tab t with
            updateStore := ∅, tablePeersUpdateRange := peers, myUpdateStore := ∅ }
          pairPushSock := true
          pc := .waitAck t buff todo }
        { pair := [.eMyUpdates t myBuff], events := [.myUpdatesSent c.myId t myBuff] }
  | send {o t todo buff peers} : p.pc = .flush (t :: todo) → o.Valid (p.tab t) →
      (p.tab t).updateStore.entries ≠ [] → buildBuffer c (p.tab t) o = .ok (buff, peers) →
      (∀ tc, c.tableDir.lookup t = some tc → tc.loop = true →
        (p.tab t).myUpdateStore.entries = []) → c.hasDownstream = true →
      PropEff c p (.flushTable o)
        { p with
          tab := Function.update p.tab t (closeMyRange { p.tab t with
            updateStore := ∅, tablePeersUpdateRange := peers })
          pc := .flush todo }
        { push := [.eprUpdateBuffer t buff], events := [.sent c.myId t buff] }
  | reply {t buff todo} : p.pc = .waitAck t buff todo → c.hasDownstream = true →
      PropEff c p (.myUpdatesReply .eMyUpdatesACK)
        { p with tab := Function.update p.tab t (closeMyRange (p.tab t)), pc := .flush todo }
        { push := [.eprUpdateBuffer t buff],
          events := [.ackReceived c.myId t, .sent c.myId t buff] }
  | flushEnd : p.pc = .flush [] → PropEff c p .flushEnd p.flushEnd {}
  | timerStopped : p.pc = .waitStop → PropEff c p .timerStopped p.onTimerStopped {}
  | log {t key delta} : p.pc = .poll → p.state = .run →
      PropEff c p (.update (.epUpdateLog t key delta))
        { p with tab := Function.update p.tab t (addLog c t (p.tab t) key delta) }
        { events := [.logHandled c.myId t key delta] }
  | record {t b tc peers} : p.pc = .poll → p.state = .run → c.tableDir.lookup t = some tc →
      recordRanges (p.tab t).tablePeersUpdateRange b.iterNodeRanges = .ok peers →
      PropEff c p (.update (.epUpdateBuffer t b))
        { p with tab := Function.update p.tab t { p.tab t with
            updateStore := b.iterUpdates.foldl (fun m kv => addUpdate tc.vaddFunc m kv.1 kv.2)
              (p.tab t).updateStore
            tablePeersUpdateRange := peers } }
        { events := b.iterNodeRanges.map fun r => .recorded c.myId t r.1 r.2 }
  | drop {msg} : p.pc = .poll → p.state ≠ .run → PropEff c p (.update msg) p {}
  | internalTerminate {replied out} : p.pc = .poll →
      (out.push ≠ [] → c.hasDownstream = true) → out.cmd = [] →
      out.pair = [.eprInternalTerminate] → (∀ e ∈ out.events, e = .termAckSent c.myId) →
      (∀ m ∈ out.push, m = .eprTerminateACK c.myId) →
      PropEff c p (.update .epInternalTerminate)
        { p with
          state := .termPrep
          haveRepliedDsTerm := replied
          pairPushSock := true
          tab := p.clearStores } out
  | recvAck : p.pc = .poll →
      PropEff c p (.update .epRecvInternalTerminateACK) p.onRecvInternalTerminateACK {}
  | terminate {msg p' out} : p.pc = .poll → c.hasDownstream = true →
      (∃ d r, p' = { p with haveReceivedDsTerm := d, haveRepliedDsTerm := r } ∨
        p' = exitTest { p with haveReceivedDsTerm := d, haveRepliedDsTerm := r }) →
      out.cmd = [] → out.pair = [] → (∀ e ∈ out.events, e = .termAckSent c.myId) →
      (∀ m ∈ out.push, m = .eprTerminateACK c.myId) →
      PropEff c p (.termSub msg) p' out

section cases

variable [Zero V] {c : NodeConfig V} {p p' : Propagator V} {out : PropOut V}

theorem handleUpdate_cases {msg : PropagatorMsg V} (hpc : p.pc = .poll)
    (h : p.handleUpdate c msg = .ok (p', out)) : PropEff c p (.update msg) p' out := by
  cases msg with
  | epUpdateLog t key delta =>
    rcases Propagator.onUpdateLog_ok_cases h with ⟨hs, rfl, rfl⟩ | ⟨hs, -, rfl, rfl⟩
    · exact .drop hpc hs
    · exact .log hpc hs
  | epUpdateBuffer t b =>
    obtain ⟨tc, htc, ⟨hs, rfl, rfl⟩ | ⟨hs, peers, hr, rfl, rfl⟩⟩ :=
      Propagator.onUpdateBuffer_ok_cases h
    · exact .drop hpc hs
    · exact .record hpc hs htc hr
  | epInternalTerminate =>
    rcases Propagator.onInternalTerminate_ok_cases h with ⟨hr, rfl, rfl⟩ | ⟨hr, hd, rfl, rfl⟩
    · exact .internalTerminate hpc (fun h => absurd rfl h) rfl rfl (by rintro _ ⟨⟩) (by rintro _ ⟨⟩)
    · exact .internalTerminate hpc (fun _ => hd) rfl rfl (fun _ => List.mem_singleton.mp)
        (fun _ => List.mem_singleton.mp)
  | epRecvInternalTerminateACK =>
    cases h
    exact .recvAck hpc
  | epRInit => cases h
  | eMyUpdatesACK => cases h

theorem handleTermSub_cases {msg : PropRecvMsg V} (hpc : p.pc = .poll) (hd : c.hasDownstream = true)
    (h : p.handleTermSub c msg = .ok (p', out)) : PropEff c p (.termSub msg) p' out := by
  cases msg with
  | eprUpdateBuffer t b => cases h
  | eprTerminateACK id => cases h
  | eprTerminate =>
    rcases Propagator.onTerminate_ok_cases h with ⟨-, rfl, rfl⟩ | ⟨-, -, rfl, rfl⟩
    · exact .terminate hpc hd ⟨true, p.haveRepliedDsTerm, Or.inl rfl⟩ rfl rfl (by rintro _ ⟨⟩)
        (by rintro _ ⟨⟩)
    · exact .terminate hpc hd ⟨true, true, Or.inr rfl⟩ rfl rfl (fun _ => List.mem_singleton.mp)
        (fun _ => List.mem_singleton.mp)

/-- **進んだ一歩は必ず `PropEff` のどれかである。** -/
theorem propHandle_cases [DecidableEq V] {i : PropInput V}
    (h : propHandle c p i = some (.ok (p', out))) : PropEff c p i p' out := by
  unfold propHandle at h
  split at h
  · next order hpc =>
    split at h
    · next hn =>
      cases h
      exact .trigger hpc hn.1 hn.2
    · cases h
  · next o t todo hpc =>
    split at h
    · next ho =>
      rcases Propagator.flushTable_ok_cases (Option.some.inj h) with ⟨hst, rfl, rfl⟩ |
        ⟨hst, buff, peers, hb, ⟨⟨tc, htc, hl⟩, hmy, myBuff, hm, rfl, rfl⟩ | ⟨hmy, hd, rfl, rfl⟩⟩
      · exact .skip hpc hst
      · exact .ask hpc ho hst hb htc hl hmy hm
      · exact .send hpc ho hst hb hmy hd
    · cases h
  · next msg t buff todo hpc =>
    obtain ⟨rfl, hd, rfl, rfl⟩ := Propagator.onMyUpdatesReply_ok_cases (Option.some.inj h)
    exact .reply hpc hd
  · next hpc =>
    cases h
    exact .flushEnd hpc
  · next hpc =>
    cases h
    exact .timerStopped hpc
  · next msg hpc => exact handleUpdate_cases hpc (Option.some.inj h)
  · next msg hpc =>
    split at h
    · next hd => exact handleTermSub_cases hpc hd (Option.some.inj h)
    · cases h
  · cases h

/-! ## 落ちる一歩 -/

/-- propagator の一歩の落ち方。 -/
inductive PropFail (c : NodeConfig V) (p : Propagator V) : PropInput V → Fault → Prop
  | append {o} : PropFail c p (.flushTable o) .appendFailed
  | nodeRange {o} : PropFail c p (.flushTable o) .nodeRangeFailed
  | rangeEmpty {o t todo} : p.pc = .flush (t :: todo) → (p.tab t).myUpdateStore.entries ≠ [] →
      ¬(p.tab t).myUpdateRange.st ≤ (p.tab t).myUpdateRange.end_ →
      PropFail c p (.flushTable o) .myUpdateRangeEmpty
  | flushNull {o t todo} : p.pc = .flush (t :: todo) → (p.tab t).updateStore.entries ≠ [] →
      c.hasDownstream = false → PropFail c p (.flushTable o) .nullPropPushSock
  | replyNull {t b todo msg} : p.pc = .waitAck t b todo → c.hasDownstream = false →
      PropFail c p (.myUpdatesReply msg) .nullPropPushSock
  | replyUnexpected {msg} : PropFail c p (.myUpdatesReply msg) .unexpectedMyUpdatesReply
  | table {msg} : PropFail c p (.update msg) .tableDoesNotExist
  | notContiguous {msg id} : PropFail c p (.update msg) (.notContiguous id)
  | termNull {msg} : p.haveReceivedDsTerm = true → c.hasDownstream = false →
      PropFail c p (.update msg) .nullPropPushSock
  | unrecognized {i} : PropFail c p i .unrecognizedMessage

variable {e : Fault}

omit [Zero V] in
theorem finishFlush_fails {t : TableId} {b : UpdateBuffer V} {todo : List TableId}
    (h : p.finishFlush c t b todo = .error e) :
    e = .nullPropPushSock ∧ c.hasDownstream = false := by
  unfold Propagator.finishFlush at h
  dsimp only at h
  split at h
  · cases h
  · next hd =>
    cases h
    exact ⟨rfl, Bool.eq_false_iff.mpr hd⟩

omit [Zero V] in
theorem flushTable_fails {t : TableId} {todo : List TableId} {o : FlushOrder V}
    (hpc : p.pc = .flush (t :: todo)) (h : p.flushTable c t todo o = .error e) :
    PropFail c p (.flushTable o) e := by
  unfold Propagator.flushTable at h
  dsimp only at h
  split at h
  · cases h
  · next hst =>
    have hne : (p.tab t).updateStore.entries ≠ [] := fun he => hst (by rw [he]; rfl)
    split at h
    · next e' hb =>
      cases h
      unfold Propagator.buildBuffer at hb
      split at hb
      · cases hb
        exact .append
      · split at hb
        · cases hb
          exact .nodeRange
        · split at hb <;> cases hb
          exact .nodeRange
    · split at h
      · next hloop =>
        have hmy : (p.tab t).myUpdateStore.entries ≠ [] := by
          rintro he
          rw [he] at hloop
          exact absurd hloop (by simp)
        split at h
        · next e' hm =>
          cases h
          unfold Propagator.buildMyBuffer at hm
          split at hm
          · cases hm
            exact .append
          · split at hm
            · cases hm
            · next hr =>
              cases hm
              exact .rangeEmpty hpc hmy hr
        · cases h
      · obtain ⟨rfl, hd⟩ := finishFlush_fails h
        exact .flushNull hpc hne hd

omit [Zero V] in
theorem onMyUpdatesReply_fails {t : TableId} {b : UpdateBuffer V} {todo : List TableId}
    {msg : PropagatorMsg V} (hpc : p.pc = .waitAck t b todo)
    (h : p.onMyUpdatesReply c t b todo msg = .error e) : PropFail c p (.myUpdatesReply msg) e := by
  unfold Propagator.onMyUpdatesReply at h
  split at h
  · split at h
    · next e' hf =>
      cases h
      obtain ⟨rfl, hd⟩ := finishFlush_fails hf
      exact .replyNull hpc hd
    · cases h
  · cases h
    exact .replyUnexpected

theorem recordRanges_fails {rs : List (NodeId × UpdateRange)}
    {peers : AList fun _ : NodeId => UpdateRange}
    (h : Propagator.recordRanges peers rs = .error e) : ∃ id, e = .notContiguous id := by
  induction rs generalizing peers with
  | nil => cases h
  | cons r rs ih =>
    rw [Propagator.recordRanges] at h
    split at h
    · next e' hr =>
      cases h
      unfold Propagator.recordRange at hr
      split at hr
      · cases hr
      · split at hr
        · cases hr
        · cases hr
          exact ⟨_, rfl⟩
    · exact ih h

theorem handleUpdate_fails {msg : PropagatorMsg V} (h : p.handleUpdate c msg = .error e) :
    PropFail c p (.update msg) e := by
  cases msg with
  | epUpdateLog t key delta =>
    unfold Propagator.handleUpdate Propagator.onUpdateLog at h
    dsimp only at h
    split at h
    · cases h
    · split at h
      · cases h
      · split at h <;> cases h
        exact .table
  | epUpdateBuffer t b =>
    unfold Propagator.handleUpdate Propagator.onUpdateBuffer at h
    dsimp only at h
    split at h
    · cases h
      exact .table
    · split at h
      · cases h
      · split at h
        · next e' hr =>
          cases h
          obtain ⟨id, rfl⟩ := recordRanges_fails hr
          exact .notContiguous
        · cases h
  | epInternalTerminate =>
    simp only [Propagator.handleUpdate, Propagator.onInternalTerminate,
      Propagator.replyTerminate] at h
    cases hr : p.haveReceivedDsTerm with
    | false => simp [hr] at h
    | true =>
      cases hd : c.hasDownstream with
      | false =>
        simp only [hr, hd, Bool.false_eq_true, if_true, if_false] at h
        cases h
        exact .termNull hr hd
      | true => simp [hr, hd] at h
  | epRecvInternalTerminateACK => cases h
  | epRInit =>
    cases h
    exact .unrecognized
  | eMyUpdatesACK =>
    cases h
    exact .unrecognized

omit [Zero V] in
theorem handleTermSub_fails {msg : PropRecvMsg V} (hd : c.hasDownstream = true)
    (h : p.handleTermSub c msg = .error e) : PropFail c p (.termSub msg) e := by
  cases msg with
  | eprTerminate =>
    simp only [Propagator.handleTermSub, Propagator.onTerminate, Propagator.replyTerminate, hd,
      if_true] at h
    split at h <;> cases h
  | eprUpdateBuffer t b =>
    cases h
    exact .unrecognized
  | eprTerminateACK id =>
    cases h
    exact .unrecognized

/-- **落ちる一歩は必ず `PropFail` のどれかである。** -/
theorem propHandle_fails [DecidableEq V] {i : PropInput V}
    (h : propHandle c p i = some (.error e)) : PropFail c p i e := by
  unfold propHandle at h
  split at h
  · split at h <;> cases h
  · next o t todo hpc =>
    split at h
    · exact flushTable_fails hpc (Option.some.inj h)
    · cases h
  · next msg t b todo hpc => exact onMyUpdatesReply_fails hpc (Option.some.inj h)
  · cases h
  · cases h
  · exact handleUpdate_fails (Option.some.inj h)
  · split at h
    · next hd => exact handleTermSub_fails hd (Option.some.inj h)
    · cases h
  · cases h

/-! ## run -/

/-- run のどの一歩でも保たれる性質は、着ける状態で成り立つ。 -/
theorem PropReachableUnder.invariant [DecidableEq V] {P : PropHist V → PropInput V → Prop}
    {I : PropHist V → Prop} {s : PropHist V} (h : PropReachableUnder c P s) (h0 : I (.start c))
    (hstep : ∀ s i p' out, PropReachableUnder c P s → P s i → PropEff c s.prop i p' out → I s →
      I { prop := p', log := s.log ++ [(i, out)] }) : I s := by
  refine Lts.ReachableUnder.invariant h0 (fun s i s' hr hi hs hI => ?_) h
  obtain ⟨out, hp, hlog⟩ := histStep_ok hs
  have hs' : s' = { prop := s'.prop, log := s.log ++ [(i, out)] } := by rw [← hlog]
  rw [hs']
  exact hstep s i _ out hr hi (propHandle_cases hp) hI

end cases

end QuiltDB
