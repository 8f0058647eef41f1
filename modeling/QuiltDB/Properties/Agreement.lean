import QuiltDB.Properties.Contents
import QuiltDB.Properties.Flow
import QuiltDB.Properties.Ledger

/-!
# table と送る update の一致

`Table::Inc` は自分の table に足し、同じ update を log として propagator に渡す。table の key は
`int64_t` だが、`Propagator::Inc` の引数は `int32_t` である。

どの key も `int32_t` に収まる run では、table の値は、送った buffer と store の update の和に key ごとに
等しい。収まらない key の update は、別の key のものとして送られる。
-/

namespace QuiltDB

open Totals

variable {V Node : Type}

/-! ## `int32_t` の key -/

/-- `int32_t` に収まる key。 -/
def int32Key (key : Key) : Bool :=
  decide (-2 ^ 31 ≤ key.toInt) && decide (key.toInt < 2 ^ 31)

/-- 収まる key は、`Propagator::Inc` を通っても変わらない。 -/
theorem logKey_of_int32Key {key : Key} (h : int32Key key = true) : NodeState.logKey key = key := by
  rw [int32Key, Bool.and_eq_true, decide_eq_true_eq, decide_eq_true_eq] at h
  refine Int64.toInt.inj ?_
  rw [NodeState.logKey, Int32.toInt_toInt64, Int64.toInt_toInt32]
  exact Int.bmod_eq_of_le (by omega) (by omega)

theorem map_logged {us : List (Key × V)} (h : ∀ kv ∈ us, int32Key kv.1 = true) :
    us.map logged = us := by
  refine (List.map_congr_left fun kv hkv => ?_).trans (List.map_id us)
  rw [logged, logKey_of_int32Key (h kv hkv)]
  rfl

/-! ## 送った buffer -/

/-- propagator `id` が下流へ送った buffer。 -/
def Event.sentBuffer (id : NodeId) (t : TableId) : Event V → Option (UpdateBuffer V)
  | .sent k t' b => if k = id ∧ t' = t then some b else none
  | _ => none

def sentBy (id : NodeId) (t : TableId) (trace : List (Event V)) : List (UpdateBuffer V) :=
  trace.filterMap (Event.sentBuffer id t)

variable {id : NodeId} {t : TableId}

theorem sentBuffer_local : Event.Local (V := V) id t (Event.sentBuffer id t) := by
  intro e he
  cases e with
  | sent k t' b =>
    have h : k = id ∧ t' = t := of_not_not fun hne => he (if_neg hne)
    exact ⟨h.1, beq_iff_eq.mpr h.2⟩
  | inc | logHandled | myUpdatesSent | registered | ackReceived | termAckSent | received
  | recorded => exact absurd rfl he

theorem sentBy_append (tr ev : List (Event V)) :
    sentBy id t (tr ++ ev) = sentBy id t tr ++ sentBy id t ev := by
  simp [sentBy]

section sums

variable [AddCommMonoid V]

/-- buffer の列の update の和。 -/
def updatesTotal (bs : List (UpdateBuffer V)) : Key → V := (bs.map fun b => total b.updates).sum

theorem updatesTotal_append (bs cs : List (UpdateBuffer V)) :
    updatesTotal (bs ++ cs) = updatesTotal bs + updatesTotal cs := by
  rw [updatesTotal, List.map_append, List.sum_append]
  rfl

theorem updatesTotal_singleton (b : UpdateBuffer V) : updatesTotal [b] = total b.updates := by
  rw [updatesTotal, List.map_singleton, List.sum_singleton]

theorem updatesTotal_apply (bs : List (UpdateBuffer V)) (key : Key) :
    updatesTotal bs key = (bs.map fun b => total b.updates key).sum := by
  induction bs with
  | nil => rfl
  | cons b bs ih =>
    rw [List.map_cons, List.sum_cons, ← ih]
    rfl

/-- log を一つ処理すると、store にその delta が加わる。 -/
theorem content_addLog {c : NodeConfig V} {tc : TableConfig V} (hn : 0 < c.nanosec)
    (htc : c.tableDir.lookup t = some tc) (hadd : tc.vaddFunc = (· + ·)) (pt : PropTable V)
    (key : Key) (delta : V) :
    content (Propagator.addLog c t pt key delta).updateStore
      = content pt.updateStore + Pi.single key delta := by
  rw [← content_addUpdate, ← hadd]
  simp [Propagator.addLog, htc, not_le.mpr hn]

/-- flush が作る buffer は、store の中身を全て運ぶ。 -/
theorem FlushSpec.total_updates [DecidableEq Node] {C : SysConfig Node V} {j : Node}
    {pt : PropTable V} {o : FlushOrder V} {buff : UpdateBuffer V}
    {peers : AList fun _ : NodeId => UpdateRange} (h : FlushSpec C j pt o buff peers)
    (hv : o.Valid pt) : total buff.updates = content pt.updateStore := by
  rw [h.updates, total_perm hv.1, total_pairs]

end sums

/-! ## 不変量 -/

section invariant

variable [AddCommMonoid V] {C : SysConfig Node V} {j : Node} {v v' : TabView V}
  {tr ev : List (Event V)} {tc : TableConfig V}

/-- 何も受け取らない node `j` の、table と propagator の中身。 -/
structure NodeLocal (C : SysConfig Node V) (t : TableId) (trace : List (Event V)) (j : Node)
    (v : TabView V) : Prop where
  fwd : v.fwd = []
  storage : v.storage = total (incsOf (C.id j) t trace)
  /-- 処理した log は、送ったか、これから送る buffer にあるか、store にある。 -/
  logs : v.pRun = true → total (logsOf (C.id j) t trace)
    = updatesTotal (sentBy (C.id j) t trace ++ v.pend.toList) + content v.pt.updateStore

/-- 一歩の間に増えたものが釣り合っていればよい。 -/
theorem NodeLocal.advance (h : NodeLocal C t tr j v) (hfwd : v'.fwd = v.fwd)
    (hstorage : v'.storage = v.storage + total (incsOf (C.id j) t ev))
    (hrun : v'.pRun = true → v.pRun = true ∧
      updatesTotal v.pend.toList + content v.pt.updateStore + total (logsOf (C.id j) t ev)
        = updatesTotal (sentBy (C.id j) t ev) + updatesTotal v'.pend.toList
          + content v'.pt.updateStore) : NodeLocal C t (tr ++ ev) j v' := by
  refine ⟨hfwd.trans h.fwd, ?_, fun hr => ?_⟩
  · rw [incsOf_append, total_append, ← h.storage]
    exact hstorage
  · obtain ⟨h1, h2⟩ := hrun hr
    rw [logsOf_append, total_append, h.logs h1, updatesTotal_append, add_assoc, add_assoc,
      ← add_assoc (updatesTotal v.pend.toList), h2, sentBy_append, updatesTotal_append,
      updatesTotal_append, add_assoc, add_assoc, add_assoc]

/-- 帳簿も中身も動かさない一歩。 -/
theorem NodeLocal.quiet (h : NodeLocal C t tr j v) (hfwd : v'.fwd = v.fwd)
    (hstorage : v'.storage = v.storage) (hpend : v'.pend = v.pend)
    (hrun : v'.pRun = true → v.pRun = true ∧ v'.pt.updateStore = v.pt.updateStore)
    (hev : incsOf (C.id j) t ev = [] ∧ logsOf (C.id j) t ev = [])
    (hsent : sentBy (C.id j) t ev = []) : NodeLocal C t (tr ++ ev) j v' := by
  refine h.advance hfwd (by rw [hev.1, hstorage, total_nil, add_zero]) fun hr => ?_
  obtain ⟨h1, h2⟩ := hrun hr
  refine ⟨h1, ?_⟩
  rw [hev.2, hsent, hpend, h2, total_nil, add_zero]
  exact congrArg (· + _) (zero_add _).symm

variable [DecidableEq Node] {ib : Option (UpdateBuffer V)} {push : List (UpdateBuffer V)}

theorem NodeLocal.step (hs : NodeShape C j v) (hn : 0 < C.nanosec j)
    (htc : (C.tableDir j).lookup t = some tc) (hadd : tc.vaddFunc = (· + ·))
    (h : NodeLocal C t tr j v) (hrecv : receivedBy (C.id j) t ev = [])
    (he : TabEff (C.nodeConfig j) t v ib v' push ev) : NodeLocal C t (tr ++ ev) j v' := by
  have hid : (C.nodeConfig j).myId = C.id j := rfl
  cases he with
  | skip | register | recvStop | discard =>
    exact h.quiet rfl rfl rfl (fun hr => ⟨hr, rfl⟩) ⟨rfl, rfl⟩ rfl
  | stop => exact h.quiet rfl rfl rfl (by rintro ⟨⟩) ⟨rfl, rfl⟩ rfl
  | dropLog hrun =>
    refine h.quiet rfl rfl rfl (fun hr => ?_) ⟨rfl, rfl⟩ rfl
    rw [show v.pRun = true from hr] at hrun
    cases hrun
  | @noPeer b | @process b =>
    have hb : receivedBy (C.id j) t [.received (C.nodeConfig j).myId t b] = [b] := by
      simp [receivedBy, Event.recvBuffer, hid]
    rw [hb] at hrecv
    cases hrecv
  -- 何も受け取っていないので、渡された buffer も無い
  | record _ _ hf | dropBuffer _ hf =>
    rw [h.fwd] at hf
    cases hf
  | @inc key delta tc' htc' =>
    obtain rfl : tc' = tc := Option.some.inj (htc'.symm.trans htc)
    refine h.advance rfl ?_ fun hr => ⟨hr, ?_⟩
    · have hev : incsOf (C.id j) t [.inc (C.nodeConfig j).myId t key delta] = [(key, delta)] := by
        simp [incsOf, Event.incDelta, hid]
      rw [hev, hadd, incRaw_add, total_cons, total_nil, add_zero]
    · exact (add_zero _).trans (congrArg (· + _) (zero_add _).symm)
  | @log l₁ l₂ key delta hrun hpend _ hq =>
    have hev : logsOf (C.id j) t [.logHandled (C.nodeConfig j).myId t key delta]
        = [(key, delta)] := by
      simp [logsOf, Event.handledLog, hid]
    refine h.advance rfl (add_zero _).symm fun hr => ⟨hr, ?_⟩
    dsimp only
    rw [hev, content_addLog hn htc hadd, total_cons, total_nil, add_zero, add_assoc]
    exact congrArg (· + _) (zero_add _).symm
  | @ask o buff peers myBuff _ hrun hpend _ _ hv hst hb =>
    have htot := (hs.flush hv hst hb).total_updates hv
    refine h.advance rfl (add_zero _).symm fun hr => ⟨hrun, ?_⟩
    dsimp only
    rw [hpend, Option.toList_some, updatesTotal_singleton, htot, content_empty, add_zero]
    exact add_zero _
  | @send o buff peers hrun hpend _ hv hst hb =>
    have htot := (hs.flush hv hst hb).total_updates hv
    have hev : sentBy (C.id j) t [.sent (C.nodeConfig j).myId t buff] = [buff] := by
      simp [sentBy, Event.sentBuffer, hid]
    refine h.advance rfl (add_zero _).symm fun hr => ⟨hrun, ?_⟩
    dsimp only
    rw [hev, hpend, updatesTotal_singleton, htot, add_comm (updatesTotal _)]
    rfl
  | @reply buff hrun hpend _ =>
    have hev : sentBy (C.id j) t [.ackReceived (C.nodeConfig j).myId t,
        .sent (C.nodeConfig j).myId t buff] = [buff] := by
      simp [sentBy, List.filterMap_cons, Event.sentBuffer, hid]
    refine h.advance rfl (add_zero _).symm fun hr => ⟨hrun, ?_⟩
    dsimp only
    rw [hev, hpend, Option.toList_none, Option.toList_some]
    exact (add_zero _).trans (congrArg (· + _) (add_zero _).symm)

theorem TabReach.nodeLocal {Q : Node → UpdateBuffer V → Prop} {S : TabSys Node V}
    (h : TabReach C t Q S) (hn : 0 < C.nanosec j) (htc : (C.tableDir j).lookup t = some tc)
    (hadd : tc.vaddFunc = (· + ·)) (hrecv : receivedBy (C.id j) t S.trace = []) :
    NodeLocal C t S.trace j (S.view j) := by
  refine h.invariant (I := fun S => receivedBy (C.id j) t S.trace = [] →
    NodeLocal C t S.trace j (S.view j)) ?_ ?_ hrecv
  · exact fun _ => ⟨rfl, rfl, fun _ => (add_zero _).symm⟩
  · intro S S' hr hs hi
    refine hs.at_node (I := fun tr v => receivedBy (C.id j) t tr = [] → NodeLocal C t tr j v) hi ?_ ?_
    · intro ib v' push ev _ he hrecv
      rw [receivedBy_append, List.append_eq_nil_iff] at hrecv
      exact (hi hrecv.1).step (hr.shape.node j) hn htc hadd hrecv.2 he
    · intro ev hev hrecv
      rw [receivedBy_append, List.append_eq_nil_iff] at hrecv
      obtain ⟨h1, h2, h3⟩ := hi hrecv.1
      refine ⟨h1, ?_, fun hrun => ?_⟩
      · rw [incsOf_other hev]
        exact h2
      · rw [logsOf_other hev, sentBy_append, sentBy, sentBy, sentBuffer_local.filterMap_other hev,
          List.append_nil]
        exact h3 hrun

end invariant

/-! ## key ごとの一致 -/

section system

variable [DecidableEq Node] [AddCommMonoid V] [DecidableEq V] {C : SysConfig Node V}
  {s : SysState Node V} {j : Node} {tc : TableConfig V}

/-- 下流へ送った buffer。登録の返事を待っている buffer も数える。 -/
def emittedBuffers (C : SysConfig Node V) (t : TableId) (s : SysState Node V) (j : Node) :
    List (UpdateBuffer V) :=
  sentBy (C.id j) t s.trace ++ ((s.node j).prop.pc.ofTable t).toList

/--
**table の値は、送る update の和に等しい。** どの `Inc` の key も `int32_t` に収まる run では、propagator が
RUN で log を全て処理した時、何も受け取っていない node の table は、key ごとに、送った buffer と store の
delta の和である。
-/
theorem table_agrees_with_updates (h : SysReachable C s) (hrun : (s.node j).prop.state = .run)
    (hn : 0 < C.nanosec j) (htc : (C.tableDir j).lookup t = some tc)
    (hadd : tc.vaddFunc = (· + ·)) (hhandled : ∀ e ∈ (s.node j).appQ, e.2.logOf t = none)
    (hrecv : receivedBy (C.id j) t s.trace = [])
    (hkeys : ∀ kv ∈ incsOf (C.id j) t s.trace, int32Key kv.1 = true) (key : Key) :
    (s.node j).storage t key
      = ((emittedBuffers C t s j).map fun b => total b.updates key).sum
        + (((s.node j).prop.tab t).updateStore.lookup key).getD 0 := by
  have htab := h.tabReach t
  have hrun' : ((s.tab t).view j).pRun = true := decide_eq_true hrun
  have hlogs : ((s.tab t).view j).logs = [] := List.filterMap_eq_nil_iff.mpr hhandled
  have htrace : (s.tab t).trace = s.trace.filter (Event.isOf t) := rfl
  have hincs : incsOf (C.id j) t (s.tab t).trace = incsOf (C.id j) t s.trace :=
    incDelta_local.filterMap_filter s.trace
  have hsent : sentBy (C.id j) t (s.tab t).trace = sentBy (C.id j) t s.trace :=
    sentBuffer_local.filterMap_filter s.trace
  have hlocal := htab.nodeLocal hn htc hadd (by rw [htrace, receivedBy_filter]; exact hrecv)
  have hsum : (s.node j).storage t
      = updatesTotal (emittedBuffers C t s j) + content ((s.node j).prop.tab t).updateStore := by
    calc (s.node j).storage t
        = total (incsOf (C.id j) t s.trace) := by rw [← hincs]; exact hlocal.storage
      _ = total ((incsOf (C.id j) t (s.tab t).trace).map logged) := by rw [hincs, map_logged hkeys]
      _ = total (logsOf (C.id j) t (s.tab t).trace) := by
          rw [total_perm ((htab.nodeTally j).incs hrun'), hlogs, List.append_nil]
      _ = updatesTotal (emittedBuffers C t s j)
            + content ((s.node j).prop.tab t).updateStore := by
          rw [hlocal.logs hrun', hsent]
          rfl
  rw [hsum, Pi.add_apply, updatesTotal_apply]
  rfl

end system

/-- 二度の batch を送り、三つ目の update が store にある所で、`table_agrees_with_updates` を使う。 -/
theorem table_agrees_pairRing :
    ∃ s, SysReachable pairRing s ∧ (sentBy (pairRing.id 0) 0 s.trace).length = 2 ∧
      (s.node 0).storage 0 1 = 3 ∧
      (s.node 0).storage 0 1
        = ((emittedBuffers pairRing 0 s 0).map fun b => total b.updates 1).sum
          + (((s.node 0).prop.tab 0).updateStore.lookup 1).getD 0 := by
  let batch : List (SysLabel (Fin 2) (BitVec 32)) :=
    incLabels 0 1 1 ++ tickLabels 0 ⟨[(1, 1)], [], [(1, 1)]⟩
  obtain ⟨s, hr, h1, h2, h3, h4, h5, h6⟩ : ∃ s, SysReachable pairRing s ∧
      (s.node 0).prop.state = .run ∧ (∀ e ∈ (s.node 0).appQ, e.2.logOf 0 = none) ∧
      receivedBy (pairRing.id 0) 0 s.trace = [] ∧
      ((incsOf (pairRing.id 0) 0 s.trace).all fun kv => int32Key kv.1) = true ∧
      (sentBy (pairRing.id 0) 0 s.trace).length = 2 ∧ (s.node 0).storage 0 1 = 3 :=
    Lts.Reachable.exists_of_run (batch ++ batch ++ incLabels 0 1 1) (by decide +kernel)
  exact ⟨s, hr, h5, h6, table_agrees_with_updates hr h1 (by decide) rfl rfl h2 h3
    (List.all_eq_true.mp h4) 1⟩

/--
key `2 ^ 32 + 1` の `Inc` は、table ではその key に足されるが、log では key 1 の update になる。
-/
theorem table_disagrees_wide_key :
    ∃ s, SysReachable pairRing s ∧
      (∀ j, (s.node j).prop.state = .run ∧ (s.node j).recv.state = .run) ∧
      (s.node 0).appQ.length = 0 ∧ receivedBy (pairRing.id 0) 0 s.trace = [] ∧
      (s.node 0).storage 0 4294967297
        ≠ ((emittedBuffers pairRing 0 s 0).map fun b => total b.updates 4294967297).sum
          + (((s.node 0).prop.tab 0).updateStore.lookup 4294967297).getD 0 ∧
      ((s.node 0).prop.tab 0).updateStore.lookup 1 = some 1 ∧ (s.node 0).storage 0 1 = 0 := by
  obtain ⟨s, hr, h1, h2, h3, h4, h5, h6, h7, h8⟩ : ∃ s, SysReachable pairRing s ∧
      (∀ j, (s.node j).prop.state = .run ∧ (s.node j).recv.state = .run) ∧
      (s.node 0).appQ.length = 0 ∧ receivedBy (pairRing.id 0) 0 s.trace = [] ∧
      emittedBuffers pairRing 0 s 0 = [] ∧ (s.node 0).storage 0 4294967297 = 1 ∧
      ((s.node 0).prop.tab 0).updateStore.lookup 4294967297 = none ∧
      ((s.node 0).prop.tab 0).updateStore.lookup 1 = some 1 ∧ (s.node 0).storage 0 1 = 0 :=
    Lts.Reachable.exists_of_run (incLabels 0 4294967297 1) (by decide +kernel)
  refine ⟨s, hr, h1, h2, h3, ?_, h7, h8⟩
  rw [h4, h5, h6]
  decide

end QuiltDB
