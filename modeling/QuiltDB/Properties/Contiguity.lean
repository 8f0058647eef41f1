import QuiltDB.Properties.Flow

/-!
# range は続いて届く

輪では、どの receiver も自分の slot が最後にある buffer だけを受け取るなら、propagator が記録する
peer の range は 0 から隙間なく続く。自分の slot の後ろに他の slot があると、その range は失われ、
次の range で `CHECK` が落ちる。
-/

namespace QuiltDB

open Segments

variable {V Node : Type}

/-! ## 条件 -/

/-- 自分の slot の後ろの slot は、どれも空いている。 -/
def ownLast (id : NodeId) (b : UpdateBuffer V) : Bool :=
  ((b.slots.dropWhile fun s => s.nodeId != id).drop 1).all fun s => !s.occupied

theorem mem_drop_dropWhile {α : Type} {p : α → Bool} {l₁ l₂ : List α} {x y : α} (hx : p x = false)
    (hy : y ∈ l₂) : y ∈ ((l₁ ++ x :: l₂).dropWhile p).drop 1 := by
  induction l₁ with
  | nil =>
    rw [List.nil_append, List.dropWhile_cons_of_neg (by simp [hx])]
    exact hy
  | cons a l₁ ih =>
    rw [List.cons_append, List.dropWhile_cons]
    split
    · exact ih
    · exact List.mem_append_right _ (List.mem_cons_of_mem _ hy)

theorem ownLast_spec {id : NodeId} {b : UpdateBuffer V} (h : ownLast id b = true) :
    OwnLast id b := by
  intro pre r post heq
  rw [UpdateBuffer.iterNodeRanges_eq] at heq
  obtain ⟨l₁, l, hl, rfl, hcons⟩ := List.map_eq_append_iff.mp heq
  obtain ⟨x, l₂, rfl, hx, rfl⟩ := List.map_eq_cons_iff.mp hcons
  by_contra hne
  obtain ⟨y, hy⟩ := List.exists_mem_of_ne_nil l₂ fun hnil => hne (by rw [hnil]; rfl)
  have hocc : y.occupied = true := by
    refine List.mem_takeWhile_imp (l := b.slots) ?_
    rw [hl]
    exact List.mem_append_right _ (List.mem_cons_of_mem _ hy)
  have hslots : b.slots = l₁ ++ x :: (l₂ ++ b.slots.dropWhile Slot.occupied) := by
    rw [← List.cons_append, ← List.append_assoc, ← hl, List.takeWhile_append_dropWhile]
  have hid : x.nodeId = id := congrArg Prod.fst hx
  have hmem : y ∈ (b.slots.dropWhile fun s => s.nodeId != id).drop 1 := by
    rw [hslots]
    exact mem_drop_dropWhile (by simp [hid]) (List.mem_append_left _ hy)
  have hfree := List.all_eq_true.mp h y hmem
  rw [hocc] at hfree
  cases hfree

/-- 輪では、どの node も輪の上にある。 -/
theorem Topology.IsRing.singleFeed {T : Topology Node} (h : T.IsRing) (o : Node) :
    T.SingleFeed o := by
  obtain ⟨next, hdown, hall⟩ := h
  have hfeeds : ∀ k, T.Feeds o (next^[k] o) := by
    intro k
    induction k with
    | zero => exact .refl
    | succ k ih =>
      rw [Function.iterate_succ_apply']
      exact ih.down (hdown _)
  obtain ⟨k, hk⟩ := hall (next o) o
  refine (hfeeds k).singleFeed ?_
  rw [hdown, ← Function.iterate_succ_apply' next, Function.iterate_succ_apply, hk]

/-! ## 記録 -/

section record

variable [DecidableEq Node] {C : SysConfig Node V} {t : TableId} {j : Node} {v : TabView V}
  {tr : List (Event V)}

omit [DecidableEq Node] in
/-- 途中の range が記録した所から続いていれば、記録の `CHECK` は落ちない。 -/
theorem recordRanges_ok_of_flow (hs : NodeShape C j v)
    (hf : ∀ o, NodeFlow (· = ·) C t o tr j v) {b : UpdateBuffer V}
    {rest : List (UpdateBuffer V)} (hfwd : v.fwd = b :: rest) :
    ∃ peers, Propagator.recordRanges v.pt.tablePeersUpdateRange b.iterNodeRanges = .ok peers := by
  have hb := hs.fwd b (by rw [hfwd]; exact List.mem_cons_self)
  refine Propagator.recordRanges_ok hb.nodup fun e he r₀ hr₀ => ?_
  obtain ⟨⟨o, ho⟩, hne, -⟩ := hb.ids e he
  have hj : j ≠ o := fun heq => hne (heq ▸ ho.symm)
  have hseg : b.segOf (C.id o) = some e.2.seg := UpdateBuffer.segOf_mem hb.nodup (ho ▸ he)
  have hhead := (hf o).fwd_head hj hfwd hseg
  rw [TabView.recd, ho, hr₀] at hhead
  exact hhead

end record

section system

variable [DecidableEq Node] [Zero V] [DecidableEq V] {C : SysConfig Node V} {s : SysState Node V}
  {t : TableId}

omit [DecidableEq Node] [DecidableEq V] [Zero V] in
theorem except_map_error {α β : Type} {f : α → β} {x : Except Fault α} {e : Fault}
    (h : x.map f = .error e) : x = .error e := by
  cases x with
  | error e' => exact congrArg _ (Except.error.inj h)
  | ok a => cases h

omit [Zero V] [DecidableEq V] in
theorem NodeState.ofProp_error {ns : NodeState V} {x : Except Fault (Propagator V × PropOut V)}
    {e : Fault} (h : ns.ofProp x = .error e) : x = .error e := by
  cases x with
  | error e' => exact congrArg _ (Except.error.inj h)
  | ok a => cases h

omit [DecidableEq V] in
/-- `EPUpdateBuffer` の処理が落ちるのは、table が無いか、range の記録が続かない時である。 -/
theorem Propagator.onUpdateBuffer_error {c : NodeConfig V} {p : Propagator V} {b : UpdateBuffer V}
    {e : Fault} (h : onUpdateBuffer c p t b = .error e) (he : e ≠ .tableDoesNotExist) :
    recordRanges (p.tab t).tablePeersUpdateRange b.iterNodeRanges = .error e := by
  unfold onUpdateBuffer at h
  split at h
  · exact absurd (Except.error.inj h).symm he
  · split at h
    · cases h
    · dsimp only at h
      split at h
      · next e' hrec => rw [hrec, Except.error.inj h]
      · cases h

/-- `EPUpdateBuffer` を読む一歩が range の `CHECK` で落ちるのは、記録が続かない時である。 -/
theorem pullRecv_notContiguous {j : Node} {b : UpdateBuffer V} {rest : List (PropagatorMsg V)}
    {id : NodeId} (hq : (s.node j).updQ = .epUpdateBuffer t b :: rest)
    (h : sysStep C s (.node j .pullRecv) = some (.error (.notContiguous id))) :
    ∃ e, Propagator.recordRanges ((s.node j).prop.tab t).tablePeersUpdateRange b.iterNodeRanges
      = .error e := by
  rw [sysStep, Option.map_eq_some_iff] at h
  obtain ⟨x, hx, he⟩ := h
  rw [nodeStep, nodeStepSelf] at hx
  split at hx
  · next msg rest' hpc hq' =>
    rw [hq] at hq'
    obtain ⟨rfl, -⟩ := List.cons.inj hq'
    cases hx
    have herr := except_map_error he
    exact ⟨_, Propagator.onUpdateBuffer_error (NodeState.ofProp_error herr) (by rintro ⟨⟩)⟩
  · cases hx

/--
**peer の range は隙間なく続く。** 輪で、どの receiver も自分の slot が最後にある buffer だけを受け取る
run では、`CHECK` は落ちず、記録される range は 0 から続く。
-/
theorem ring_ranges_contiguous (hring : C.IsRing)
    (hfwd : ∀ j tc, (C.tableDir j).lookup t = some tc → tc.forwardUpdates = true)
    (h : SysReachableUnder C (fun s l => delivers C t ownLast s l = true) s)
    (hrun : ∀ j, (s.node j).prop.state = .run ∧ (s.node j).recv.state = .run) :
    (∀ j b rest id, (s.node j).updQ = .epUpdateBuffer t b :: rest →
      sysStep C s (.node j .pullRecv) ≠ some (.error (.notContiguous id))) ∧
    ∀ j o, j ≠ o → ∃ e, Chain (· = ·) 0 (recordedSegs (C.id j) t (C.id o) s.trace) e := by
  have htab := h.tabReach_delivers
  have hl : Lossless C t (fun d b => ownLast (C.id d) b = true) (s.tab t) :=
    ⟨fun j => ⟨decide_eq_true (hrun j).1, decide_eq_true (hrun j).2⟩, hfwd,
      fun d b hb => ownLast_spec hb⟩
  have hflow : ∀ o, Flow (· = ·) C t o (s.tab t) := fun o => htab.flow_eq (hring.singleFeed o) hl
  constructor
  · intro j b rest id hq herr
    obtain ⟨e, he⟩ := pullRecv_notContiguous hq herr
    have hfwdq : ((s.tab t).view j).fwd = b :: rest.filterMap (PropagatorMsg.ofTable t) := by
      simp [SysState.tab, NodeState.tabView, hq, PropagatorMsg.ofTable]
    obtain ⟨peers, hok⟩ := recordRanges_ok_of_flow (htab.shape.node j) (fun o => (hflow o).node j)
      hfwdq
    exact absurd (he.symm.trans hok) (by rintro ⟨⟩)
  · intro j o hj
    have hrec := ((hflow o).node j).recs hj
    rw [show (s.tab t).trace = s.trace.filter (Event.isOf t) from rfl, recordedSegs_filter] at hrec
    exact ⟨_, hrec⟩

/-- node 1 が node 0 の range を二つ続けて記録した所で、`ring_ranges_contiguous` を使う。 -/
theorem ring_ranges_pairRing :
    ∃ s, SysReachableUnder pairRing (fun s l => delivers pairRing 0 ownLast s l = true) s ∧
      recordedSegs 1 0 0 s.trace = [(0, 1), (1, 2)] ∧
      ∃ e, Chain (· = ·) 0 (recordedSegs (pairRing.id 1) 0 (pairRing.id 0) s.trace) e := by
  let batch : List (SysLabel (Fin 2) (BitVec 32)) := List.flatten
    [incLabels 0 1 1, tickLabels 0 ⟨[(1, 1)], [], [(1, 1)]⟩, [.tcp 0, .node 1 .pullRecv]]
  obtain ⟨s, hr, hstates, hrec⟩ : ∃ s, SysReachableUnder pairRing
      (fun s l => delivers pairRing 0 ownLast s l = true) s ∧
      (∀ j, (s.node j).prop.state = .run ∧ (s.node j).recv.state = .run) ∧
      recordedSegs 1 0 0 s.trace = [(0, 1), (1, 2)] :=
    Lts.ReachableUnder.exists_of_run (batch ++ batch) (by decide +kernel)
  have hfwd : ∀ j tc, (pairRing.tableDir j).lookup 0 = some tc → tc.forwardUpdates = true := by
    rintro j tc ⟨⟩
    rfl
  exact ⟨s, hr, hrec,
    (ring_ranges_contiguous pairRing_isRing hfwd hr hstates).2 1 0 (by decide)⟩

/--
node 1 の batch が node 0 の batch と一緒に戻ると、node 1 の receiver は自分の slot を消し、その後ろの
node 0 の range が見えなくなる。次に届いた node 0 の range で `CHECK` が落ちる。
-/
theorem ring_range_check_fails :
    ∃ s, SysReachable pairRing s ∧
      (∀ j, (s.node j).prop.state = .run ∧ (s.node j).recv.state = .run) ∧
      sysStep pairRing s (.node 1 .pullRecv) = some (.error (.notContiguous (pairRing.id 0))) := by
  let labels : List (SysLabel (Fin 2) (BitVec 32)) := List.flatten
    [incLabels 1 2 1, tickLabels 1 ⟨[(2, 1)], [], [(2, 1)]⟩,
      incLabels 0 1 1, tickLabels 0 ⟨[(1, 1)], [], [(1, 1)]⟩, [.tcp 0, .node 1 .pullRecv],
      [.tcp 1, .node 0 .pullRecv],
      incLabels 0 1 1, tickLabels 0 ⟨[(1, 1), (2, 1)], [(1, ⟨0, 0⟩)], [(1, 1)]⟩,
      [.tcp 0, .node 1 .pullRecv],
      incLabels 0 1 1, tickLabels 0 ⟨[(1, 1)], [(1, ⟨1, 0⟩)], [(1, 1)]⟩, [.tcp 0]]
  obtain ⟨s, hr, hstates, hfail⟩ : ∃ s, SysReachable pairRing s ∧
      (∀ j, (s.node j).prop.state = .run ∧ (s.node j).recv.state = .run) ∧
      failsWith (.notContiguous (pairRing.id 0)) (sysStep pairRing s (.node 1 .pullRecv)) = true :=
    Lts.Reachable.exists_of_run labels (by decide +kernel)
  exact ⟨s, hr, hstates, eq_of_failsWith hfail⟩

end system

/-! ## 輪の無い道と、輪の外の node -/

/-- 0 → 1 → 2 の一本道。 -/
def pathTopology : SysConfig (Fin 3) (BitVec 32) where
  nodes := [0, 1, 2]
  nodes_nodup := by decide
  mem_nodes := by decide
  id := fun j => (j.val : Int)
  id_nonneg := by decide
  id_injective := by decide
  down := fun j => if j = 2 then none else some (j + 1)
  nanosec := fun _ => 1
  tableDir := fun _ => (∅ : AList fun _ : TableId => TableConfig (BitVec 32)).insert 0 loopTable

theorem pathTopology_isForest : pathTopology.IsForest := by
  have hlt : ∀ j d : Fin 3, pathTopology.down j = some d → j < d := by decide
  have hmono : ∀ a b, pathTopology.Feeds a b → a ≤ b := by
    intro a b h
    induction h with
    | refl => exact le_rfl
    | tail _ hd ih => exact ih.trans (hlt _ _ hd).le
  intro o j d _ hd hback
  exact absurd (hmono d j hback) (not_le.mpr (hlt j d hd))

/-- 0 が輪 1 → 2 → 1 に流れ込む。 -/
def tailedRing : SysConfig (Fin 3) (BitVec 32) where
  nodes := [0, 1, 2]
  nodes_nodup := by decide
  mem_nodes := by decide
  id := fun j => (j.val : Int)
  id_nonneg := by decide
  id_injective := by decide
  down := fun j => some (if j = 1 then 2 else 1)
  nanosec := fun _ => 1
  tableDir := fun _ => (∅ : AList fun _ : TableId => TableConfig (BitVec 32)).insert 0 loopTable

end QuiltDB
