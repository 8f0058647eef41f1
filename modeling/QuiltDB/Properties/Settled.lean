import QuiltDB.Properties.Drain
import QuiltDB.Properties.Agreement
import QuiltDB.Properties.PrefixRefine

/-!
# 流れ切った森

どの node も RUN のまま、送るものが無くなった所。輪の無い network では、`Inc` は下流の全ての node に届き、
それより上流には届かない。

下流の無い node の propagator には送る先が無いので、その store に何が残っていてもよい。
-/

namespace QuiltDB

open Segments Totals

variable {V Node : Type}

section forest

variable [DecidableEq Node] [AddCommMonoid V] [DecidableEq V] {C : SysConfig Node V} {t : TableId}
  {s : SysState Node V}

/--
流れ切った所。log は全て処理され、channel は空で、下流のある node の store と queue も空である。

下流の無い node は送る先が無いので、何が残っていてもよい。
-/
structure Settled (C : SysConfig Node V) (t : TableId) (s : SysState Node V) : Prop where
  appQ : ∀ j, (s.node j).appQ = []
  tcp : ∀ u, s.tcp u = []
  updateStore : ∀ j, C.down j ≠ none → ((s.node j).prop.tab t).updateStore.entries = []
  updQ : ∀ j, C.down j ≠ none → (s.node j).updQ = []
  ackQ : ∀ j, C.down j ≠ none → (s.node j).ackQ = []
  pairQ : ∀ j, C.down j ≠ none → (s.node j).pairQ = []

omit [DecidableEq Node] [AddCommMonoid V] [DecidableEq V] in
/-- queue が空なら、propagator は登録の返事を待っていない。 -/
theorem Control.pend_eq_none [Zero V] {c : NodeConfig V} {ns : NodeState V} (h : Control c ns)
    (hpair : ns.pairQ = []) (hack : ns.ackQ = []) : (ns.tabView t).pend = none := by
  show ns.prop.pc.ofTable t = none
  cases h.pair with
  | idle _ hpc | told _ hpc | heard _ hpc =>
    cases hp : ns.prop.pc with
    | waitAck t' b todo => exact absurd hp (hpc t' b todo)
    | _ => rfl
  | asked _ _ _ _ hq =>
    rw [hpair] at hq
    cases hq
  | answered _ _ _ _ _ hq =>
    rw [hack] at hq
    cases hq

section flushed

variable {j o : Node} {v : TabView V} {tr : List (Event V)}

omit [AddCommMonoid V] [DecidableEq V] in
/-- 送る分が無ければ、自分の log を全て送り終えている。 -/
theorem emitted_own_of_flushed (h : ∀ s, v.pendingSeg C o o = some s → s.1 = s.2)
    (hpend : v.pend = none) (ht : NodeTally C t tr o v) :
    v.emitted C o o = (logsOf (C.id o) t tr).length := by
  have hst : v.pt.myUpdateRange.st = v.pt.myUpdateRange.end_ + 1 :=
    h _ (by rw [pendingSeg_self, ownSeg_of_none hpend])
  rw [TabView.emitted, if_pos rfl, hpend, if_neg (by simp), hst, ht.length]

omit [AddCommMonoid V] [DecidableEq V] in
/-- 送る分が無ければ、peer について記録した所まで送り終えている。 -/
theorem emitted_peer_of_flushed (h : ∀ s, v.pendingSeg C j o = some s → s.1 = s.2) (hj : j ≠ o) :
    v.emitted C o j = v.recd (C.id o) := by
  rw [TabView.emitted, if_neg hj, TabView.recd]
  cases hl : v.pt.tablePeersUpdateRange.lookup (C.id o) with
  | none => rfl
  | some r => exact h r.seg (by rw [pendingSeg_peer (Ne.symm hj), hl]; rfl)

end flushed

/-- 流れ切った所では、`o` の下流のどの node も、`o` の log を全て送り終えている。 -/
theorem Settled.emitted_eq (hset : Settled C t s) (h : SysReachable C s) (hC : AppliesAll C t)
    (hrun : ∀ j, (s.node j).prop.state = .run ∧ (s.node j).recv.state = .run) {o u : Node}
    (hlive : LiveFlow C t o (s.tab t)) (hfeed : C.Feeds o u) (hne : C.down u ≠ none) :
    ((s.tab t).view u).emitted C o u = (logsOf (C.id o) t (s.tab t).trace).length := by
  have htab := h.tabReach t
  have hflushed : ∀ j, C.down j ≠ none →
      ∀ x, ((s.tab t).view j).pendingSeg C j o = some x → x.1 = x.2 := by
    intro j hj x hx
    obtain ⟨tc, htc, -⟩ := hC.table j
    exact htab.nodeFlushed (hC.nanosec j) htc (decide_eq_true (hrun j).1) (hset.updateStore j hj) o x hx
  have hpend : ∀ j, C.down j ≠ none → ((s.tab t).view j).pend = none := fun j hj =>
    (h.control j).pend_eq_none (hset.pairQ j hj) (hset.ackQ j hj)
  -- `o` から一歩ずつ下流へ進む
  induction hfeed with
  | refl => exact emitted_own_of_flushed (hflushed o hne) (hpend o hne) (htab.nodeTally o)
  | @tail u d hu hdown ih =>
    by_cases hdo : d = o
    · subst hdo
      exact emitted_own_of_flushed (hflushed d hne) (hpend d hne) (htab.nodeTally d)
    · have hu' : C.down u ≠ none := by rw [hdown]; rintro ⟨⟩
      have hfwd := (hlive.node d hne (decide_eq_true (hrun d).1)).fwd hdo
      rw [show ((s.tab t).view d).fwd = [] by
        show (s.node d).updQ.filterMap _ = []
        rw [hset.updQ d hne, List.filterMap_nil]] at hfwd
      have hlink := hlive.link u d hdown hu (decide_eq_true (hrun d).2)
      rw [hpend u hu', show (s.tab t).chan u = [] by
        show (s.tcp u).filterMap _ = []
        rw [hset.tcp u, List.filterMap_nil]] at hlink
      calc ((s.tab t).view d).emitted C o d
          = ((s.tab t).view d).recd (C.id o) := emitted_peer_of_flushed (hflushed d hne) hdo
        _ = recvTop C t o (s.tab t).trace d := hfwd
        _ = ((s.tab t).view u).emitted C o u := hlink
        _ = (logsOf (C.id o) t (s.tab t).trace).length := ih hu'

/-- 流れ切った所では、`o` の log は下流の全ての node に届いている。 -/
theorem Settled.recvTop_eq (hset : Settled C t s) (h : SysReachable C s) (hC : AppliesAll C t)
    (hrun : ∀ j, (s.node j).prop.state = .run ∧ (s.node j).recv.state = .run) {o j : Node}
    (hlive : LiveFlow C t o (s.tab t)) (hfeed : C.Feeds o j) (hj : j ≠ o) :
    recvTop C t o (s.tab t).trace j = (logsOf (C.id o) t (s.tab t).trace).length := by
  rcases Relation.ReflTransGen.cases_tail hfeed with rfl | ⟨u, hu, hdown⟩
  · exact absurd rfl hj
  · have hne : C.down u ≠ none := by rw [hdown]; rintro ⟨⟩
    have hlink := hlive.link u j hdown hu (decide_eq_true (hrun j).2)
    have hpend : ((s.tab t).view u).pend = none :=
      (h.control u).pend_eq_none (hset.pairQ u hne) (hset.ackQ u hne)
    rw [hpend, show (s.tab t).chan u = [] by
      show (s.tcp u).filterMap _ = []
      rw [hset.tcp u, List.filterMap_nil]] at hlink
    exact hlink.trans (hset.emitted_eq h hC hrun hlive hu hne)

open Classical in
/--
**流れ切った森の table。** どの node も RUN で、送るものが残っていなければ、node `j` の table の値は、`j` から
上流へ辿って着く全ての node の `Inc` の和である。
-/
theorem forest_settled_complete (hforest : C.IsForest) (hC : AppliesAll C t)
    (hfwd : ForwardsDown C t) (h : SysReachable C s)
    (hrun : ∀ j, (s.node j).prop.state = .run ∧ (s.node j).recv.state = .run)
    (hkeys : ∀ o, ∀ kv ∈ incsOf (C.id o) t s.trace, int32Key kv.1 = true) (hset : Settled C t s)
    (j : Node) :
    (s.node j).storage t
      = ∑ o ∈ C.nodeSet with C.Feeds o j, total (incsOf (C.id o) t s.trace) := by
  have htab := h.tabReach t
  have hlive := htab.forest_liveFlow hforest hfwd
  have hlogs : ∀ o, logsOf (C.id o) t (s.tab t).trace = logsOf (C.id o) t s.trace := fun o =>
    handledLog_local.filterMap_filter s.trace
  -- queue が空なら、処理した log が `Inc` の全てである
  have hall : ∀ o, total (logsOf (C.id o) t s.trace) = total (incsOf (C.id o) t s.trace) := by
    intro o
    have h0 := (htab.nodeTally o).incs (decide_eq_true (hrun o).1)
    rw [show incsOf (C.id o) t (s.tab t).trace = incsOf (C.id o) t s.trace from
      incDelta_local.filterMap_filter s.trace, hlogs, map_logged (hkeys o),
      show ((s.tab t).view o).logs = [] by
        show (s.node o).appQ.filterMap _ = []
        rw [hset.appQ o, List.filterMap_nil], List.append_nil] at h0
    exact (total_perm h0).symm
  have hpart : ∀ o ∈ C.nodeSet.erase j,
      total ((logsOf (C.id o) t s.trace).take (processedTo C t o j s.trace).toNat)
        = if C.Feeds o j then total (incsOf (C.id o) t s.trace) else 0 := by
    intro o ho
    have htop : recvTop C t o (s.tab t).trace j = processedTo C t o j s.trace :=
      processedTo_eq_recvTop ((hlive o).recv j).eq_le
    rw [← htop]
    split
    · next hfeed =>
      rw [hset.recvTop_eq h hC hrun (hlive o) hfeed (Finset.ne_of_mem_erase ho).symm, hlogs,
        Int.toNat_natCast, List.take_length, hall]
    · next hno =>
      rw [recvTop, htab.recvSegs_nil hno]
      rfl
  have hself : C.Feeds j j := .refl
  rw [h.storage_eq_value hforest hC.table hfwd j, Finset.sum_filter,
    ← Finset.add_sum_erase _ _ (C.mem_nodeSet j), if_pos hself]
  exact congrArg _ (Finset.sum_congr rfl hpart)

end forest

/-- node 0 の `Inc` が node 2 まで流れ切った所で、`forest_settled_complete` を使う。 -/
theorem forest_settled_pathTopology :
    ∃ s, SysReachable pathTopology s ∧ Settled pathTopology 0 s ∧ (s.node 2).storage 0 1 = 5 ∧
      ∀ j, (s.node j).storage 0 = ∑ o ∈ @Finset.filter _ (pathTopology.Feeds · j)
        (Classical.decPred _) pathTopology.nodeSet, total (incsOf (pathTopology.id o) 0 s.trace) := by
  let labels : List (SysLabel (Fin 3) (BitVec 32)) := List.flatten
    [incLabels 0 1 1, tickLabels 0 ⟨[(1, 1)], [], [(1, 1)]⟩, [.tcp 0, .node 1 .pullRecv],
      relayLabels 1 ⟨[(1, 1)], [(0, ⟨0, 0⟩)], []⟩, [.tcp 1], incLabels 2 1 4]
  obtain ⟨s, hr, h1, h2, h3, h4, h5⟩ : ∃ s, SysReachable pathTopology s ∧
      (∀ j, (s.node j).prop.state = .run ∧ (s.node j).recv.state = .run) ∧
      (∀ j, (s.node j).appQ.isEmpty = true ∧ (s.tcp j).isEmpty = true) ∧
      (∀ j, pathTopology.down j ≠ none →
        ((s.node j).prop.tab 0).updateStore.entries.isEmpty = true ∧
        (s.node j).updQ.isEmpty = true ∧ (s.node j).ackQ.isEmpty = true ∧
        (s.node j).pairQ.isEmpty = true) ∧
      (pathTopology.nodes.all fun o =>
        (incsOf (pathTopology.id o) 0 s.trace).all fun kv => int32Key kv.1) = true ∧
      (s.node 2).storage 0 1 = 5 :=
    Lts.Reachable.exists_of_run labels (by decide +kernel)
  simp only [List.isEmpty_iff] at h2 h3
  have hset : Settled pathTopology 0 s :=
    ⟨fun j => (h2 j).1, fun j => (h2 j).2, fun j hj => (h3 j hj).1, fun j hj => (h3 j hj).2.1,
      fun j hj => (h3 j hj).2.2.1, fun j hj => (h3 j hj).2.2.2⟩
  have hkeys : ∀ o, ∀ kv ∈ incsOf (pathTopology.id o) 0 s.trace, int32Key kv.1 = true := fun o =>
    List.all_eq_true.mp (List.all_eq_true.mp h4 o (pathTopology.mem_nodes o))
  refine ⟨s, hr, hset, h5, fun j => ?_⟩
  convert forest_settled_complete pathTopology_isForest appliesAll_pathTopology
    forwardsDown_pathTopology hr h1 hkeys hset j

end QuiltDB
