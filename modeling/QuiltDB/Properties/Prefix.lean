import QuiltDB.Properties.Contiguity
import QuiltDB.Properties.Faithful

/-!
# 森での prefix の一致

輪の無い network では、自分の update が戻ってくることはない。だから range は失われず、どの node の table も、
自分の `Inc` と、他の node それぞれの log の先頭を足したものになる。
-/

namespace QuiltDB

open Segments Totals Slices

variable {V Node : Type}

/-! ## 受け取った所 -/

/-- receiver `j` が処理した `o` の range の終わりのうち、最も大きいものの次。無ければ 0。 -/
def processedTo (C : SysConfig Node V) (t : TableId) (o j : Node) (trace : List (Event V)) : Int :=
  ((recvSegs C t o trace j).map Prod.snd).foldl max 0

theorem recvSegs_filter (C : SysConfig Node V) (t : TableId) (o j : Node) (tr : List (Event V)) :
    recvSegs C t o (tr.filter (Event.isOf t)) j = recvSegs C t o tr j := by
  rw [recvSegs, receivedBy_filter, recvSegs]

/-- range が続いて届いていれば、最後の range の終わりが最も大きい。 -/
theorem processedTo_eq {C : SysConfig Node V} {t : TableId} {o j : Node} {tr : List (Event V)}
    {v : TabView V} (h : NodeFlow (· = ·) C t o tr j v) :
    processedTo C t o j tr = recvTop C t o tr j := h.recv.foldl_max

/-! ## 森 -/

section forest

variable [DecidableEq Node]

section tab

variable [AddCommMonoid V] {C : SysConfig Node V} {t : TableId}
  {Q Q' : Node → UpdateBuffer V → Prop} {S : TabSys Node V}

/-- 届く buffer がいつも満たす条件は、仮定に加えてよい。 -/
theorem TabReach.strengthen (h : TabReach C t Q S)
    (hQ : ∀ S, TabReach C t Q S → ∀ u d b, C.down u = some d → b ∈ S.chan u → Q' d b) :
    TabReach C t Q' S := by
  induction h with
  | refl => exact .refl
  | tail hr hs ih =>
    refine ih.tail ?_
    cases hs with
    | self he => exact .self he
    | recv hd hc hq he =>
      exact .recv hd hc (fun _ => hQ _ hr _ _ _ hd (by rw [hc]; exact List.mem_cons_self)) he

omit [DecidableEq Node] [AddCommMonoid V] in
/-- 輪の外の node に、自分の range は戻ってこない。 -/
theorem Carry.own_absent (hc : Carry C S) {u d : Node} {b : UpdateBuffer V} (hoff : C.OffRing d)
    (hd : C.down u = some d) (hb : b ∈ S.chan u) : C.id d ∉ b.iterNodeRanges.map Prod.fst := by
  intro hmem
  obtain ⟨e, he, heq⟩ := List.mem_map.mp hmem
  exact hoff.not_feeds hd (hc.chan u b hb e he d heq.symm)

/-- 自分の range が無ければ、除くものも無い。 -/
theorem Faithful.dedupsExactly {tr : List (Event V)} {j : Node} {v : TabView V}
    {b : UpdateBuffer V} (hb : Faithful C t tr b) (hok : ChanOk C b)
    (hown : C.id j ∉ b.iterNodeRanges.map Prod.fst) : DedupsExactly C t tr j v b := by
  intro tc r r' b' _ _ hd
  have hnone : b.segOf (C.id j) = none := UpdateBuffer.segOf_eq_none hown
  obtain ⟨k, hk⟩ := hok.packed
  rcases Receiver.dedup_spec hk (C.id_nonneg j) hd with ⟨-, -, rfl⟩ | ⟨_, _, _, _, _, _, hrs, -⟩
  · refine ⟨?_, hnone, fun _ _ => rfl⟩
    rw [hb.total, carried, ← Finset.add_sum_erase _ _ (C.mem_nodeSet j), hnone, piece_none,
      zero_add]
  · refine absurd ?_ hown
    rw [hrs, List.map_append]
    exact List.mem_append_right _ List.mem_cons_self

/--
**輪の外の node の table は、range の表すものを持つ。** 他の所に輪があっても、止まっていく途中でもそうである。
-/
theorem TabReach.faithfulOn_offRing (h : TabReach C t Q S)
    (hC : ∀ j, ∃ tc, (C.tableDir j).lookup t = some tc ∧ tc.vaddFunc = (· + ·) ∧
      tc.applyUpdates = true) : FaithfulOn C t C.OffRing S := by
  refine h.invariant .start fun S S' hr hs hi => ?_
  refine hi.step (fun _ _ hd hoff => hoff.up hd) (fun j _ => hC j) hr.shape
    (fun j => hr.nodeTally j) (fun j hj b hb _ => ?_) hs
  obtain ⟨u, hd, hu⟩ := hb
  exact (hi.chan u (hj.up hd) b hu).dedupsExactly (hr.shape.chan u b hu)
    (hr.carry.own_absent hj hd hu)

/-- **森では、自分の range が無い buffer だけが届く。** -/
theorem TabReach.forest (h : TabReach C t Q S) (hf : C.IsForest) :
    TabReach C t (fun d b => C.id d ∉ b.iterNodeRanges.map Prod.fst) S :=
  h.strengthen fun _ hr _ _ _ hd hb => hr.carry.own_absent (hf.offRing _) hd hb

omit [DecidableEq Node] [AddCommMonoid V] in
theorem OwnLast.of_absent {id : NodeId} {b : UpdateBuffer V}
    (h : id ∉ b.iterNodeRanges.map Prod.fst) : OwnLast id b := by
  intro pre r post hrs
  refine absurd ?_ h
  rw [hrs, List.map_append]
  exact List.mem_append_right _ List.mem_cons_self

end tab

/-! ## prefix の一致 -/

variable [AddCommMonoid V] [DecidableEq V] {C : SysConfig Node V} {s : SysState Node V}
  {t : TableId}

/--
**森での prefix の一致。** どの node の table も、自分の `Inc` の和に、他の node `o` それぞれの propagator が
処理した log の先頭 `processedTo` 個の和を足したものである。range が続くことの `CHECK` は落ちない。
-/
theorem forest_prefix_consistent (hforest : C.IsForest) (hC : AppliesAll C t)
    (hfwd : ∀ j tc, (C.tableDir j).lookup t = some tc → tc.forwardUpdates = true)
    (h : SysReachable C s)
    (hrun : ∀ j, (s.node j).prop.state = .run ∧ (s.node j).recv.state = .run) :
    (∀ j, (∀ o, processedTo C t o j s.trace ≤ (logsOf (C.id o) t s.trace).length) ∧
      ∀ key, (s.node j).storage t key = total (incsOf (C.id j) t s.trace) key
        + ∑ o ∈ C.nodeSet.erase j,
            total ((logsOf (C.id o) t s.trace).take (processedTo C t o j s.trace).toNat) key) ∧
    ∀ j b rest id, (s.node j).updQ = .epUpdateBuffer t b :: rest →
      sysStep C s (.node j .pullRecv) ≠ some (.error (.notContiguous id)) := by
  have htab := (h.tabReach t).forest hforest
  have hl : Lossless C t (fun d b => C.id d ∉ b.iterNodeRanges.map Prod.fst) (s.tab t) :=
    ⟨fun j => ⟨decide_eq_true (hrun j).1, decide_eq_true (hrun j).2⟩, hfwd,
      fun _ _ hb => .of_absent hb⟩
  have hflow : ∀ o, Flow (· = ·) C t o (s.tab t) := fun o =>
    htab.flow_eq (hforest o).singleFeed hl
  have hall : AllFaithful C t (s.tab t) := htab.allFaithful hC hl fun S hr hS u j b _ hu _ hq =>
    (hS.chan u trivial b hu).dedupsExactly (hr.shape.chan u b hu) hq
  have hlogs : ∀ o, logsOf (C.id o) t (s.tab t).trace = logsOf (C.id o) t s.trace := fun o =>
    handledLog_local.filterMap_filter s.trace
  have htop : ∀ o j, recvTop C t o (s.tab t).trace j = processedTo C t o j s.trace := by
    intro o j
    rw [← processedTo_eq ((hflow o).node j), processedTo, processedTo]
    rw [show (s.tab t).trace = s.trace.filter (Event.isOf t) from rfl, recvSegs_filter]
  refine ⟨fun j => ⟨fun o => ?_, fun key => ?_⟩, fun j b rest id hq herr => ?_⟩
  · rw [← hlogs, ← htop]
    exact (hall.table j trivial).recvTop_le ((hflow o).node j)
  · have hst := congrFun ((hall.table j trivial).storage_eq fun o => (hflow o).node j) key
    rw [Pi.add_apply, Finset.sum_apply] at hst
    rw [show incsOf (C.id j) t (s.tab t).trace = incsOf (C.id j) t s.trace from
      incDelta_local.filterMap_filter s.trace] at hst
    refine hst.trans (congrArg _ (Finset.sum_congr rfl fun o _ => ?_))
    rw [hlogs, htop]
  · obtain ⟨e, he⟩ := pullRecv_notContiguous hq herr
    have hfwdq : ((s.tab t).view j).fwd = b :: rest.filterMap (PropagatorMsg.ofTable t) := by
      simp [SysState.tab, NodeState.tabView, hq, PropagatorMsg.ofTable]
    obtain ⟨peers, hok⟩ := recordRanges_ok_of_flow (htab.shape.node j) (fun o => (hflow o).node j)
      hfwdq
    rw [show ((s.tab t).view j).pt = (s.node j).prop.tab t from rfl, he] at hok
    cases hok

end forest

theorem appliesAll_pathTopology : AppliesAll pathTopology 0 :=
  ⟨by decide, fun _ => ⟨loopTable, rfl, rfl, rfl⟩⟩

/--
node 0 の二つの log のうち、一つ目だけが node 2 に届いた所で、`forest_prefix_consistent` を使う。
-/
theorem forest_prefix_pathTopology :
    ∃ s, SysReachable pathTopology s ∧ processedTo pathTopology 0 0 2 s.trace = 1 ∧
      (logsOf (pathTopology.id 0) 0 s.trace).length = 2 ∧ (s.node 2).storage 0 1 = 5 ∧
      (s.node 2).storage 0 1 = total (incsOf (pathTopology.id 2) 0 s.trace) 1
        + ∑ o ∈ pathTopology.nodeSet.erase 2, total ((logsOf (pathTopology.id o) 0 s.trace).take
            (processedTo pathTopology 0 o 2 s.trace).toNat) 1 := by
  let labels : List (SysLabel (Fin 3) (BitVec 32)) := List.flatten
    [incLabels 0 1 1, tickLabels 0 ⟨[(1, 1)], [], [(1, 1)]⟩, incLabels 0 1 2,
      [.tcp 0, .node 1 .pullRecv], relayLabels 1 ⟨[(1, 1)], [(0, ⟨0, 0⟩)], []⟩, [.tcp 1],
      incLabels 2 1 4]
  obtain ⟨s, hr, h1, h2, h3, h4⟩ : ∃ s, SysReachable pathTopology s ∧
      (∀ j, (s.node j).prop.state = .run ∧ (s.node j).recv.state = .run) ∧
      processedTo pathTopology 0 0 2 s.trace = 1 ∧
      (logsOf (pathTopology.id 0) 0 s.trace).length = 2 ∧ (s.node 2).storage 0 1 = 5 :=
    Lts.Reachable.exists_of_run labels (by decide +kernel)
  have hfwd : ∀ j tc, (pathTopology.tableDir j).lookup 0 = some tc → tc.forwardUpdates = true := by
    intro j tc htc
    obtain rfl : loopTable = tc := Option.some.inj htc
    rfl
  exact ⟨s, hr, h2, h3, h4,
    ((forest_prefix_consistent pathTopology_isForest appliesAll_pathTopology hfwd hr h1).1 2).2 1⟩

end QuiltDB
