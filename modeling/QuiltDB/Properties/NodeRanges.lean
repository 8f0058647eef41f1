import QuiltDB.Properties.Buffer

/-!
# node range の iterator

`UpdateNodeRange` と `DeleteNodeRange` をどの順で呼んでも、埋まっている slot の id は重ならない。
`GetNodeRange` は全ての slot を見るが、`NextNodeRange` は最初の空き slot で止まる。
そこで iterator が今ある range を漏らさず返すのは、埋まった slot が前に詰まっている時に限る。
-/

namespace QuiltDB

/-- node range の領域を書き換える呼び出し。 -/
inductive RangeOp where
  | update (nodeId : NodeId) (st end_ : Int)
  | delete (nodeId : NodeId)
  deriving Repr, DecidableEq

/-- 呼び出しの `_node_id`。 -/
def RangeOp.nodeId : RangeOp → NodeId
  | .update nodeId _ _ => nodeId
  | .delete nodeId => nodeId

namespace UpdateBuffer

variable {V : Type} {b : UpdateBuffer V}

/-- 呼び出し一つ。`-1` を返す呼び出しは buffer を変えない。 -/
def applyOp (b : UpdateBuffer V) : RangeOp → UpdateBuffer V
  | .update nodeId st end_ => (b.updateNodeRange nodeId st end_).getD b
  | .delete nodeId => (b.deleteNodeRange nodeId).getD b

/-- 埋まった slot より前に空き slot が無い。 -/
def noGap (b : UpdateBuffer V) : Bool := (b.slots.dropWhile Slot.occupied).all fun s => !s.occupied

/-- `StartNodeRangeIteration` から読み切ると、今ある range がちょうど一度ずつ得られる。 -/
structure Enumerates (b : UpdateBuffer V) : Prop where
  /-- 何度か呼べば負の id が返り、それより多く回しても得られるものは増えない。 -/
  ends : ∃ n, ∀ fuel, n ≤ fuel →
    drainNodeRanges fuel b.startNodeRangeIteration = b.iterNodeRanges
  once : (b.iterNodeRanges.map Prod.fst).Nodup
  present : ∀ id r, (id, r) ∈ b.iterNodeRanges ↔ 0 ≤ id ∧ b.getNodeRange id = some r

/-! ## slot の id -/

/-- 埋まっている slot の id。 -/
def occupiedIds (slots : List Slot) : List NodeId := (slots.filter Slot.occupied).map Slot.nodeId

theorem occupiedIds_append (l₁ l₂ : List Slot) :
    occupiedIds (l₁ ++ l₂) = occupiedIds l₁ ++ occupiedIds l₂ := by
  rw [occupiedIds, List.filter_append, List.map_append]
  rfl

theorem occupiedIds_cons_of_nonneg {s : Slot} (h : 0 ≤ s.nodeId) (l : List Slot) :
    occupiedIds (s :: l) = s.nodeId :: occupiedIds l := by
  have hocc : s.occupied = true := decide_eq_true h
  rw [occupiedIds, List.filter_cons_of_pos hocc, List.map_cons]
  rfl

theorem occupiedIds_cons_of_neg {s : Slot} (h : s.nodeId < 0) (l : List Slot) :
    occupiedIds (s :: l) = occupiedIds l := by
  rw [occupiedIds, List.filter_cons_of_neg (by simpa [Slot.occupied] using h)]
  rfl

theorem mem_occupiedIds {slots : List Slot} {id : NodeId} :
    id ∈ occupiedIds slots ↔ 0 ≤ id ∧ ∃ s ∈ slots, s.nodeId = id := by
  simp only [occupiedIds, List.mem_map, List.mem_filter, Slot.occupied, decide_eq_true_eq]
  constructor
  · rintro ⟨s, ⟨hs, h0⟩, rfl⟩
    exact ⟨h0, s, hs, rfl⟩
  · rintro ⟨h0, s, hs, rfl⟩
    exact ⟨s, ⟨hs, h0⟩, rfl⟩

theorem occupiedIds_create (cap k : Nat) :
    occupiedIds (createUpdateBuffer (V := V) cap k).slots = [] := by
  refine List.eq_nil_iff_forall_not_mem.mpr fun id hid => ?_
  obtain ⟨h0, s, hs, rfl⟩ := mem_occupiedIds.mp hid
  rw [List.eq_of_mem_replicate hs] at h0
  exact absurd h0 (by decide)

/-- `UpdateNodeRange` は、埋まっている id を変えないか、無かった id を一つ足す。 -/
theorem updateNodeRange_occupiedIds {id : NodeId} {st end_ : Int} {b' : UpdateBuffer V}
    (hid : 0 ≤ id) (h : b.updateNodeRange id st end_ = some b') (hnd : (occupiedIds b.slots).Nodup) :
    (occupiedIds b'.slots).Nodup := by
  unfold updateNodeRange at h
  split at h
  · next slots hs =>
    cases h
    obtain ⟨pre, s, post, hl, heq, -, rfl⟩ := modifyFirst_cases hs
    rw [beq_iff_eq] at heq
    have hs0 : 0 ≤ s.nodeId := heq ▸ hid
    rw [hl, occupiedIds_append, occupiedIds_cons_of_nonneg hs0] at hnd
    rw [occupiedIds_append, occupiedIds_cons_of_nonneg (by exact hs0)]
    exact hnd
  · next hnone =>
    rw [Option.map_eq_some_iff] at h
    obtain ⟨slots, hs, rfl⟩ := h
    obtain ⟨pre, s, post, hl, heq, -, rfl⟩ := modifyFirst_cases hs
    rw [beq_iff_eq] at heq
    have hnew : id ∉ occupiedIds b.slots := by
      intro hmem
      obtain ⟨-, x, hx, rfl⟩ := mem_occupiedIds.mp hmem
      exact absurd (modifyFirst_eq_none hnone x hx) (by simp)
    have hsn : s.nodeId < 0 := by
      rw [heq]
      decide
    rw [hl, occupiedIds_append, occupiedIds_cons_of_neg hsn, ← occupiedIds_append] at hnd hnew
    rw [occupiedIds_append, occupiedIds_cons_of_nonneg (by exact hid)]
    rw [occupiedIds_append] at hnd hnew
    exact List.nodup_middle.mpr (List.nodup_cons.mpr ⟨hnew, hnd⟩)

theorem deleteSlot_occupiedIds {id : NodeId} {slots slots' : List Slot}
    (h : deleteSlot id slots = some slots') :
    (occupiedIds slots').Sublist (occupiedIds slots) := by
  induction slots generalizing slots' with
  | nil => cases h
  | cons s slots ih =>
    rw [deleteSlot] at h
    split at h
    · cases h
    · next hs =>
      have hs0 : 0 ≤ s.nodeId := not_lt.mp hs
      rw [occupiedIds_cons_of_nonneg hs0]
      split at h
      · cases h
        rw [occupiedIds_cons_of_neg (show (-1 : Int) < 0 by decide)]
        exact List.sublist_cons_self _ _
      · rw [Option.map_eq_some_iff] at h
        obtain ⟨l, hl, rfl⟩ := h
        rw [occupiedIds_cons_of_nonneg hs0]
        exact (ih hl).cons_cons _

theorem applyOp_nodup {op : RangeOp} (hop : 0 ≤ op.nodeId) (hnd : (occupiedIds b.slots).Nodup) :
    (occupiedIds (b.applyOp op).slots).Nodup := by
  cases op with
  | update id st end_ =>
    cases h : b.updateNodeRange id st end_ with
    | none =>
      rw [applyOp, h]
      exact hnd
    | some b' =>
      rw [applyOp, h]
      exact updateNodeRange_occupiedIds hop h hnd
  | delete id =>
    cases h : deleteSlot id b.slots with
    | none =>
      rw [applyOp, deleteNodeRange, h]
      exact hnd
    | some slots =>
      rw [applyOp, deleteNodeRange, h]
      exact hnd.sublist (deleteSlot_occupiedIds h)

/-- どの順で呼んでも、埋まっている slot の id は重ならない。 -/
theorem applyOps_nodup {ops : List RangeOp} (hops : ∀ op ∈ ops, 0 ≤ op.nodeId)
    (hnd : (occupiedIds b.slots).Nodup) : (occupiedIds (ops.foldl applyOp b).slots).Nodup := by
  induction ops generalizing b with
  | nil => exact hnd
  | cons op ops ih =>
    exact ih (fun x hx => hops x (List.mem_cons_of_mem _ hx))
      (applyOp_nodup (hops op List.mem_cons_self) hnd)

/-! ## iterator と `GetNodeRange` -/

/-- id が重ならなければ、`GetNodeRange` は埋まっている slot の range をそのまま返す。 -/
theorem getNodeRange_iff (hnd : (occupiedIds b.slots).Nodup) {id : NodeId} (hid : 0 ≤ id)
    {r : UpdateRange} : b.getNodeRange id = some r ↔ ∃ s ∈ b.slots, s.entry = (id, r) := by
  unfold getNodeRange
  constructor
  · intro h
    obtain ⟨s, hs, rfl⟩ := Option.map_eq_some_iff.mp h
    have hsid := List.find?_some hs
    rw [beq_iff_eq] at hsid
    exact ⟨s, List.mem_of_find?_eq_some hs, by rw [Slot.entry, hsid]⟩
  · rintro ⟨s, hs, heq⟩
    obtain ⟨rfl, rfl⟩ := Prod.mk.inj heq
    cases hf : b.slots.find? fun x => x.nodeId == s.nodeId with
    | none => exact absurd (List.find?_eq_none.mp hf s hs) (by simp)
    | some s' =>
      have hs' := List.find?_some hf
      rw [beq_iff_eq] at hs'
      have hocc : ∀ x ∈ b.slots, x.nodeId = s.nodeId → x ∈ b.slots.filter Slot.occupied :=
        fun x hx heq => List.mem_filter.mpr ⟨hx, decide_eq_true (heq ▸ hid)⟩
      have hss := List.inj_on_of_nodup_map hnd (hocc s' (List.mem_of_find?_eq_some hf) hs')
        (hocc s hs rfl) hs'
      rw [hss]
      rfl

theorem mem_iterNodeRanges {e : NodeId × UpdateRange} :
    e ∈ b.iterNodeRanges ↔ ∃ s ∈ b.slots.takeWhile Slot.occupied, s.entry = e := by
  rw [iterNodeRanges_eq, List.mem_map]

theorem iterNodeRanges_ids (b : UpdateBuffer V) :
    b.iterNodeRanges.map Prod.fst = occupiedIds (b.slots.takeWhile Slot.occupied) := by
  rw [iterNodeRanges_eq, List.map_map, occupiedIds, List.filter_eq_self.mpr]
  · rfl
  · exact fun s hs => List.mem_takeWhile_imp hs

/-- 回す回数は slot の個数に 1 を足せば足りる。 -/
theorem iterNodeRanges_ends (b : UpdateBuffer V) {fuel : Nat} (h : b.slots.length + 1 ≤ fuel) :
    drainNodeRanges fuel b.startNodeRangeIteration = b.iterNodeRanges := by
  have hle : b.startNodeRangeIteration.remaining.length ≤ b.slots.length := by
    rw [remaining, List.length_map]
    exact (List.takeWhile_sublist _).length_le
  rw [drainNodeRanges_eq (by omega), iterNodeRanges, drainNodeRanges_eq (by omega)]

/--
**`UpdateNodeRange` と `DeleteNodeRange` をどの順で呼んだ buffer についても、iterator が今ある
range をちょうど一度ずつ返すのは、埋まった slot より前に空き slot が無い時で、その時に限る。**
-/
theorem node_range_iteration_iff (cap k : Nat) (ops : List RangeOp)
    (hops : ∀ op ∈ ops, 0 ≤ op.nodeId) :
    Enumerates (ops.foldl applyOp (createUpdateBuffer (V := V) cap k)) ↔
      (ops.foldl applyOp (createUpdateBuffer (V := V) cap k)).noGap = true := by
  have hnd : (occupiedIds (ops.foldl applyOp (createUpdateBuffer (V := V) cap k)).slots).Nodup :=
    applyOps_nodup hops (by rw [occupiedIds_create]; exact List.nodup_nil)
  generalize ops.foldl applyOp (createUpdateBuffer (V := V) cap k) = b at hnd ⊢
  have hsplit : b.slots.takeWhile Slot.occupied ++ b.slots.dropWhile Slot.occupied = b.slots :=
    List.takeWhile_append_dropWhile
  have hnd' := hnd
  rw [← hsplit, occupiedIds_append, List.nodup_append] at hnd'
  obtain ⟨hnd₁, -, hdisj⟩ := hnd'
  rw [noGap, List.all_eq_true]
  constructor
  · intro h s hs
    by_contra hocc
    have h0 : 0 ≤ s.nodeId := by simpa [Slot.occupied] using hocc
    have hget : b.getNodeRange s.nodeId = some s.range :=
      (getNodeRange_iff hnd h0).mpr ⟨s, hsplit ▸ List.mem_append_right _ hs, rfl⟩
    have hmem := List.mem_map_of_mem (f := Prod.fst) ((h.present s.nodeId s.range).mpr ⟨h0, hget⟩)
    rw [iterNodeRanges_ids] at hmem
    exact hdisj _ hmem _ (mem_occupiedIds.mpr ⟨h0, s, hs, rfl⟩) rfl
  · intro h
    refine ⟨⟨b.slots.length + 1, fun fuel hf => iterNodeRanges_ends b hf⟩, ?_, fun id r => ?_⟩
    · rw [iterNodeRanges_ids]
      exact hnd₁
    · rw [mem_iterNodeRanges]
      constructor
      · rintro ⟨s, hs, heq⟩
        have hocc : s.occupied = true := List.mem_takeWhile_imp hs
        have h0 : 0 ≤ id := (Prod.mk.inj heq).1 ▸ of_decide_eq_true hocc
        exact ⟨h0, (getNodeRange_iff hnd h0).mpr ⟨s, hsplit ▸ List.mem_append_left _ hs, heq⟩⟩
      · rintro ⟨h0, hget⟩
        obtain ⟨s, hs, heq⟩ := (getNodeRange_iff hnd h0).mp hget
        refine ⟨s, ?_, heq⟩
        rw [← hsplit, List.mem_append] at hs
        rcases hs with hs | hs
        · exact hs
        · have hfree := h s hs
          rw [Slot.occupied, (Prod.mk.inj heq).1, decide_eq_true h0] at hfree
          cases hfree

/-- 二つの range を書いて後の方を消した buffer では、残った range がそのまま得られる。 -/
theorem node_range_iteration_last_deleted :
    Enumerates ([RangeOp.update 0 0 0, .update 1 0 0, .delete 1].foldl applyOp
      (createUpdateBuffer (V := BitVec 32) 0 2)) :=
  (node_range_iteration_iff 0 2 _ (by decide)).mpr (by decide)

/-- 先の方を消すと、残った range は `GetNodeRange` では見えるが iterator では得られない。 -/
theorem node_range_iteration_skips :
    ¬Enumerates ([RangeOp.update 0 0 0, .update 1 0 0, .delete 0].foldl applyOp
      (createUpdateBuffer (V := BitVec 32) 0 2)) := by
  intro h
  have hmem := (h.present 1 ⟨0, 0⟩).mpr (by decide)
  exact absurd hmem (by decide)

end UpdateBuffer

end QuiltDB
