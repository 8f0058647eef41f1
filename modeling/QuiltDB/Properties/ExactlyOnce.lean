import QuiltDB.Properties.Drain
import QuiltDB.Properties.Prefix
import QuiltDB.Properties.Queue

/-!
# 輪での exactly once

輪を一周した buffer から、receiver は登録してあった自分の batch を引く。自分の slot が最後にある buffer だけが
届くなら、引いた残りは他の node の range の log をちょうど運び、どの `Inc` もどの table に高々一度しか
足されない。全てが流れ切れば、どの table も全ての `Inc` の和になる。

自分の slot の後ろに他の slot があると、その range が失われて update だけが先へ進み、同じ `Inc` が元の node の
table にもう一度足される。
-/

namespace QuiltDB

open Segments Totals Slices

variable {V Node : Type}

/-! ## 自分の batch を引く -/

section remove

variable {vsub : V → V → V} {myId : NodeId} {rng : UpdateRange} {queue queue' : List (UpdateBuffer V)}
  {b b' : UpdateBuffer V}

/--
batch が続き番号で並んでいれば、引く loop は一つの batch で終わる。

二つ目の batch には、一つ目の `end_` と同じ `st_` を求めるからである。
-/
theorem Receiver.removeMyUpdates_single {a e : Int}
    (h : removeMyUpdates myId vsub rng queue rng.st b = .ok (queue', b'))
    (hchain : Chain (· = ·) a ((queue.filterMap fun q => q.getNodeRange myId).map UpdateRange.seg) e) :
    ∃ q ∈ queue, q.getNodeRange myId = some rng ∧ subtractUpdates vsub b q.updates = .ok b' := by
  obtain ⟨q, rest, r, b₁, rfl, hr, hcont, hst, hsub, hcase⟩ := removeMyUpdates_ok_cases h
  rcases hcase with ⟨-, hrec⟩ | ⟨hend, -, rfl⟩
  · obtain ⟨q₂, rest₂, r₂, -, rfl, hr₂, -, hst₂, -, -⟩ := removeMyUpdates_ok_cases hrec
    rw [List.filterMap_cons, hr, List.filterMap_cons, hr₂] at hchain
    have hnext : r.end_ + 1 = r₂.st := hchain.2.2.1
    omega
  · have hle : r.end_ ≤ rng.end_ := by
      simp only [UpdateRange.contains, Bool.and_eq_true, decide_eq_true_eq] at hcont
      exact hcont.2
    have hrng : r = rng := by
      cases r
      cases rng
      rw [UpdateRange.mk.injEq]
      exact ⟨hst, le_antisymm hle hend⟩
    exact ⟨q, List.mem_cons_self, hrng ▸ hr, hsub⟩

end remove

section dedup

variable [DecidableEq Node] [AddCommGroup V] {C : SysConfig Node V} {t : TableId} {j : Node}
  {v : TabView V} {tr : List (Event V)} {b : UpdateBuffer V}

/-- queue の batch は、番号が続いている。 -/
theorem TabReach.my_chain {Q : Node → UpdateBuffer V → Prop} {S : TabSys Node V}
    {tc : TableConfig V} (h : TabReach C t Q S) (htc : (C.tableDir j).lookup t = some tc)
    (hloop : tc.loop = true) (hrun : (S.view j).rRun = true) :
    ∃ a e, Chain (· = ·) a ((((S.view j).my.getD []).filterMap
      fun q => q.getNodeRange (C.id j)).map UpdateRange.seg) e := by
  obtain ⟨done, hsplit, -⟩ := (h.nodeQueue hrun).split
  have hchain := (h.nodeReg htc hloop).chain (h.shape.node j) (h.cuts.node j)
  rw [regRanges, hsplit, List.filterMap_append, List.map_append] at hchain
  obtain ⟨a, -, ha⟩ := hchain.split
  exact ⟨a, _, ha⟩

/-- 自分の slot が最後にあれば、自分の update はちょうど除かれる。 -/
theorem Faithful.dedupsExactly_of_ownLast (hb : Faithful C t tr b) (hok : ChanOk C b)
    (hlast : OwnLast (C.id j) b) (hown : NodeOwn C t tr j v)
    (hchain : ∃ a e, Chain (· = ·) a (((v.my.getD []).filterMap
      fun q => q.getNodeRange (C.id j)).map UpdateRange.seg) e)
    (hsub : ∀ tc, (C.tableDir j).lookup t = some tc → tc.vsubFunc = fun x y => x - y) :
    DedupsExactly C t tr j v b := by
  by_cases habs : C.id j ∈ b.iterNodeRanges.map Prod.fst
  swap
  · exact hb.dedupsExactly hok habs
  intro tc r r' b' htc hr hd
  obtain ⟨k, hk⟩ := hok.packed
  rcases Receiver.dedup_spec hk (C.id_nonneg j) hd with ⟨hme, -, -⟩ |
    ⟨pre, rng, post, queue, queue', b₁, hrs, hq, hrem, -, hup, hit⟩
  · exact absurd habs hme
  obtain ⟨a, e, hchain⟩ := hchain
  rw [← hr, hq, Option.getD_some] at hchain
  obtain ⟨q, hmem, hget, hsubt⟩ := Receiver.removeMyUpdates_single hrem hchain
  have hqown : Totals.total q.updates = slice (logsOf (C.id j) t tr) rng.seg :=
    (hown.my q (by rw [← hr, hq]; exact hmem) rng hget).1
  have hseg : b.segOf (C.id j) = some rng.seg := by
    refine UpdateBuffer.segOf_mem hk.nodup ?_
    rw [hrs]
    exact List.mem_append_right _ List.mem_cons_self
  refine ⟨?_, UpdateBuffer.segOf_eq_none fun hmem' => ?_, fun o ho => ?_⟩
  · rw [show (InternalTable.ofConfig tc).vsubFunc = fun x y => x - y from hsub tc htc] at hsubt
    rw [hup, Receiver.total_subtractUpdates hsubt, hb.total, carried,
      ← Finset.add_sum_erase _ _ (C.mem_nodeSet j), hseg, piece_some, hqown]
    exact add_sub_cancel_left _ _
  · rw [hit] at hmem'
    have hnd := hk.nodup
    rw [hrs, List.map_append, List.map_cons] at hnd
    exact (List.nodup_append.mp hnd).2.2 _ hmem' _ List.mem_cons_self rfl
  · rcases Receiver.dedup_segOf hok (C.id_nonneg j) hd
      (fun heq => ho (C.id_injective heq)) with h1 | ⟨-, h2⟩
    · exact h1
    · exact absurd hlast h2

end dedup

/-! ## exactly once -/

section ring

variable [DecidableEq Node] [AddCommGroup V] {C : SysConfig Node V} {t : TableId} {o j : Node}
  {s : SysState Node V}

omit [DecidableEq Node] in
theorem Topology.IsRing.feeds {T : Topology Node} (h : T.IsRing) (a b : Node) : T.Feeds a b := by
  obtain ⟨next, hdown, hall⟩ := h
  obtain ⟨k, rfl⟩ := hall a b
  induction k with
  | zero => exact .refl
  | succ k ih =>
    rw [Function.iterate_succ_apply']
    exact ih.down (hdown _)

/--
node `j` の table の値は、`Inc` を高々一度ずつ足したものである。

`part o` は、node `o` の `Inc` のうち足されたものを表す。
-/
def AtMostOnce (C : SysConfig Node V) (t : TableId) (s : SysState Node V) (j : Node) : Prop :=
  ∃ part : Node → List (Key × V), part j = incsOf (C.id j) t s.trace ∧
    (∀ o, (part o).Subperm (incsOf (C.id o) t s.trace)) ∧
    ∀ key, (s.node j).storage t key = ∑ o ∈ C.nodeSet, total (part o) key

omit [DecidableEq Node] [AddCommGroup V] in
/-- table `t` の store と、全ての queue と channel が空である。 -/
structure Drained (t : TableId) (s : SysState Node V) : Prop where
  updateStore : ∀ j, ((s.node j).prop.tab t).updateStore.entries = []
  appQ : ∀ j, (s.node j).appQ = []
  updQ : ∀ j, (s.node j).updQ = []
  ackQ : ∀ j, (s.node j).ackQ = []
  pairQ : ∀ j, (s.node j).pairQ = []
  tcp : ∀ u, s.tcp u = []

omit [AddCommGroup V] in
/-- queue が空なら、登録の返事を待っている propagator も無い。 -/
theorem Drained.tabDrained (h : Drained t s) (hc : ∀ j, Control (C.nodeConfig j) (s.node j))
    (hrun : ∀ j, (s.node j).prop.state = .run) (hf : ∀ j, NodeFlushed C j ((s.tab t).view j)) :
    TabDrained C (s.tab t) := by
  refine ⟨fun j => hf j (decide_eq_true (hrun j)) (h.updateStore j), fun j => ?_, fun j => ?_,
    fun j => ?_, fun u => ?_⟩
  · show (s.node j).prop.pc.ofTable t = none
    cases (hc j).pair with
    | idle _ hpc | told _ hpc | heard _ hpc =>
      cases hp : (s.node j).prop.pc with
      | waitAck t' b todo => exact absurd hp (hpc t' b todo)
      | _ => rfl
    | asked _ _ _ _ hq =>
      rw [h.pairQ j] at hq
      cases hq
    | answered _ _ _ _ _ hq =>
      rw [h.ackQ j] at hq
      cases hq
  · show (s.node j).updQ.filterMap _ = []
    rw [h.updQ j, List.filterMap_nil]
  · show (s.node j).appQ.filterMap _ = []
    rw [h.appQ j, List.filterMap_nil]
  · show (s.tcp u).filterMap _ = []
    rw [h.tcp u, List.filterMap_nil]

/-- 自分の `Inc` と他の node の log を、node ごとの部分に分ける。 -/
theorem NodeTable.parts {tr : List (Event V)} {v : TabView V} (h : NodeTable C t tr j v)
    (hf : ∀ o, NodeFlow (· = ·) C t o tr j v) (key : Key) :
    v.storage key = ∑ o ∈ C.nodeSet, total (if o = j then incsOf (C.id j) t tr
      else (logsOf (C.id o) t tr).take (recvTop C t o tr j).toNat) key := by
  rw [h.storage_eq hf, Pi.add_apply, Finset.sum_apply, ← Finset.add_sum_erase _ _ (C.mem_nodeSet j),
    if_pos rfl]
  congr 1
  refine Finset.sum_congr rfl fun o ho => ?_
  rw [if_neg (Finset.ne_of_mem_erase ho)]

variable [DecidableEq V]

/--
**輪での exactly once。** どの receiver も自分の slot が最後にある buffer だけを受け取る run では、どの node の
table も、どの `Inc` も高々一度しか足していない。store と queue と channel が全て空なら、どの table の値も
全ての node の `Inc` の和である。
-/
theorem ring_exactly_once (hring : C.IsRing) (hC : AppliesAll C t)
    (hflags : ∀ j tc, (C.tableDir j).lookup t = some tc → tc.loop = true ∧
      tc.forwardUpdates = true ∧ tc.vsubFunc = fun x y => x - y)
    (h : SysReachableUnder C (fun s l => delivers C t ownLast s l = true) s)
    (hrun : ∀ j, (s.node j).prop.state = .run ∧ (s.node j).recv.state = .run)
    (hkeys : ∀ o, ∀ kv ∈ incsOf (C.id o) t s.trace, int32Key kv.1 = true) :
    (∀ j, AtMostOnce C t s j) ∧
    (Drained t s → ∀ j key, (s.node j).storage t key
      = ∑ o ∈ C.nodeSet, total (incsOf (C.id o) t s.trace) key) := by
  have htab := h.tabReach_delivers
  have hl : Lossless C t (fun d b => ownLast (C.id d) b = true) (s.tab t) :=
    ⟨fun j => ⟨decide_eq_true (hrun j).1, decide_eq_true (hrun j).2⟩,
      fun j tc htc => (hflags j tc htc).2.1, fun d b hb => ownLast_spec hb⟩
  have hflow : ∀ o, Flow (· = ·) C t o (s.tab t) := fun o => htab.flow_eq (hring.singleFeed o) hl
  have hall : AllFaithful C t (s.tab t) := by
    refine htab.allFaithful hC hl fun S hr hS u j b _ hu hrun hq => ?_
    obtain ⟨tc, htc, hadd, -⟩ := hC.table j
    have hloop := (hflags j tc htc).1
    exact (hS.chan u trivial b hu).dedupsExactly_of_ownLast (hr.shape.chan u b hu) (ownLast_spec hq)
      (hr.nodeOwn (hC.nanosec j) htc hloop hadd) (hr.my_chain htc hloop hrun)
      fun tc htc => (hflags j tc htc).2.2
  have hlogs : ∀ o, logsOf (C.id o) t (s.tab t).trace = logsOf (C.id o) t s.trace := fun o =>
    handledLog_local.filterMap_filter s.trace
  have hincs : ∀ o, incsOf (C.id o) t (s.tab t).trace = incsOf (C.id o) t s.trace := fun o =>
    incDelta_local.filterMap_filter s.trace
  -- `Inc` の log は、処理したものと queue にあるものに分かれる
  have hperm : ∀ o, (incsOf (C.id o) t s.trace).Perm
      (logsOf (C.id o) t s.trace ++ ((s.tab t).view o).logs) := by
    intro o
    have h0 := (htab.nodeTally o).incs (decide_eq_true (hrun o).1)
    rwa [hincs, hlogs, map_logged (hkeys o)] at h0
  have hparts : ∀ j key, (s.node j).storage t key = ∑ o ∈ C.nodeSet, total (if o = j
      then incsOf (C.id j) t s.trace
      else (logsOf (C.id o) t s.trace).take (recvTop C t o (s.tab t).trace j).toNat) key := by
    intro j key
    refine ((hall.table j trivial).parts (fun o => (hflow o).node j) key).trans ?_
    refine Finset.sum_congr rfl fun o _ => ?_
    rw [hincs, hlogs]
  refine ⟨fun j => ⟨_, if_pos rfl, fun o => ?_, hparts j⟩, fun hd j key => ?_⟩
  · split
    · next ho => exact ho ▸ List.Subperm.refl _
    · exact ((List.take_sublist _ _).trans (List.sublist_append_left _ _)).subperm.trans
        (hperm o).symm.subperm
  · have hdr := hd.tabDrained (fun j => SysReachable.control h.reachable j) (fun j => (hrun j).1)
      fun j => by
        obtain ⟨tc, htc, -⟩ := hC.table j
        exact htab.nodeFlushed (hC.nanosec j) htc
    rw [hparts j key]
    refine Finset.sum_congr rfl fun o _ => ?_
    split
    · next ho => rw [ho]
    · next ho =>
      have htop := hdr.received_all (hflow o) (htab.nodeTally o) (hring.feeds o j) (Ne.symm ho)
      rw [htop, hlogs, Int.toNat_natCast, List.take_length, total_perm (hperm o), hdr.logs o,
        List.append_nil]

end ring

/-- table 0 の store と、全ての queue と channel が空か。 -/
def isDrained (s : SysState (Fin 2) (BitVec 32)) : Bool :=
  decide (∀ j, ((s.node j).prop.tab 0).updateStore.entries.isEmpty = true ∧
    (s.node j).appQ.isEmpty = true ∧ (s.node j).updQ.isEmpty = true ∧
    (s.node j).ackQ.isEmpty = true ∧ (s.node j).pairQ.isEmpty = true ∧ (s.tcp j).isEmpty = true)

theorem drained_of_isDrained {s : SysState (Fin 2) (BitVec 32)} (h : isDrained s = true) :
    Drained 0 s := by
  have hall := of_decide_eq_true h
  simp only [List.isEmpty_iff] at hall
  exact ⟨fun j => (hall j).1, fun j => (hall j).2.1, fun j => (hall j).2.2.1,
    fun j => (hall j).2.2.2.1, fun j => (hall j).2.2.2.2.1, fun j => (hall j).2.2.2.2.2⟩

/-- 二つの node の `Inc` が輪を一周して流れ切った所で、`ring_exactly_once` を使う。 -/
theorem ring_exactly_once_pairRing :
    ∃ s, SysReachable pairRing s ∧ Drained 0 s ∧ AtMostOnce pairRing 0 s 0 ∧
      (s.node 0).storage 0 2 = 1 ∧ (s.node 0).storage 0 2
        = ∑ o ∈ pairRing.nodeSet, total (incsOf (pairRing.id o) 0 s.trace) 2 := by
  let labels : List (SysLabel (Fin 2) (BitVec 32)) := List.flatten
    [incLabels 0 1 1, tickLabels 0 ⟨[(1, 1)], [], [(1, 1)]⟩, [.tcp 0, .node 1 .pullRecv],
      relayLabels 1 ⟨[(1, 1)], [(0, ⟨0, 0⟩)], []⟩, [.tcp 1],
      incLabels 1 2 1, tickLabels 1 ⟨[(2, 1)], [(0, ⟨1, 0⟩)], [(2, 1)]⟩,
      [.tcp 1, .node 0 .pullRecv], relayLabels 0 ⟨[(2, 1)], [(1, ⟨0, 0⟩)], []⟩, [.tcp 0]]
  obtain ⟨s, hr, h1, h2, h3, h4⟩ : ∃ s, SysReachableUnder pairRing
      (fun s l => delivers pairRing 0 ownLast s l = true) s ∧
      (∀ j, (s.node j).prop.state = .run ∧ (s.node j).recv.state = .run) ∧ isDrained s = true ∧
      (pairRing.nodes.all fun o =>
        (incsOf (pairRing.id o) 0 s.trace).all fun kv => int32Key kv.1) = true ∧
      (s.node 0).storage 0 2 = 1 :=
    Lts.ReachableUnder.exists_of_run labels (by decide +kernel)
  have hC : AppliesAll pairRing 0 := ⟨by decide, fun _ => ⟨loopTable, rfl, rfl, rfl⟩⟩
  have hflags : ∀ j tc, (pairRing.tableDir j).lookup 0 = some tc → tc.loop = true ∧
      tc.forwardUpdates = true ∧ tc.vsubFunc = fun x y => x - y := by
    intro j tc htc
    obtain rfl : loopTable = tc := Option.some.inj htc
    exact ⟨rfl, rfl, rfl⟩
  have hkeys : ∀ o, ∀ kv ∈ incsOf (pairRing.id o) 0 s.trace, int32Key kv.1 = true := fun o =>
    List.all_eq_true.mp (List.all_eq_true.mp h3 o (pairRing.mem_nodes o))
  obtain ⟨honce, hsum⟩ := ring_exactly_once pairRing_isRing hC hflags hr h1 hkeys
  have hd := drained_of_isDrained h2
  exact ⟨s, hr.reachable, hd, honce 0, h4, hsum hd 0 2⟩

/--
node 1 の `Inc` は、node 0 の range と一緒に node 0 に届く。node 0 の receiver が自分の slot を消すと node 1 の
range が見えなくなり、node 0 の次の batch に混ざって戻った update を、node 1 はもう一度自分の table に足す。
-/
theorem ring_inc_applied_twice :
    ∃ s, SysReachable pairRing s ∧
      (∀ j, (s.node j).prop.state = .run ∧ (s.node j).recv.state = .run) ∧
      (∀ o, ∀ kv ∈ incsOf (pairRing.id o) 0 s.trace, int32Key kv.1 = true) ∧
      ¬AtMostOnce pairRing 0 s 1 := by
  let labels : List (SysLabel (Fin 2) (BitVec 32)) := List.flatten
    [incLabels 1 1 1, incLabels 0 3 1, tickLabels 0 ⟨[(3, 1)], [], [(3, 1)]⟩,
      [.tcp 0, .node 1 .pullRecv], tickLabels 1 ⟨[(1, 1), (3, 1)], [(0, ⟨0, 0⟩)], [(1, 1)]⟩,
      [.tcp 1, .node 0 .pullRecv], incLabels 0 2 1,
      tickLabels 0 ⟨[(1, 1), (3, 0), (2, 1)], [], [(2, 1)]⟩, [.tcp 0]]
  obtain ⟨s, hr, h1, h2, h3, h4, h5⟩ : ∃ s, SysReachable pairRing s ∧
      (∀ j, (s.node j).prop.state = .run ∧ (s.node j).recv.state = .run) ∧
      (pairRing.nodes.all fun o =>
        (incsOf (pairRing.id o) 0 s.trace).all fun kv => int32Key kv.1) = true ∧
      incsOf (pairRing.id 1) 0 s.trace = [(1, 1)] ∧
      incsOf (pairRing.id 0) 0 s.trace = [(3, 1), (2, 1)] ∧ (s.node 1).storage 0 1 = 2 :=
    Lts.Reachable.exists_of_run labels (by decide +kernel)
  refine ⟨s, hr, h1, fun o => ?_, ?_⟩
  · exact List.all_eq_true.mp (List.all_eq_true.mp h2 o (pairRing.mem_nodes o))
  · rintro ⟨part, hown, hsub, hsum⟩
    -- node 0 の `Inc` に key 1 は無く、node 1 の `Inc` は 1 だけを足す
    have hzero : total (part 0) 1 = 0 := by
      refine total_of_not_mem fun hmem => ?_
      have hkeys := List.map_subset Prod.fst (hsub 0).subset hmem
      rw [h4] at hkeys
      revert hkeys
      decide
    have hone := hsum 1
    rw [← Finset.add_sum_erase _ _ (pairRing.mem_nodeSet 1),
      show pairRing.nodeSet.erase 1 = {0} by decide, Finset.sum_singleton, hzero, hown, h3, h5] at hone
    revert hone
    decide

end QuiltDB
