import QuiltDB.Properties.NodeRanges

/-!
# node range の表

node range の領域を「node id から range への表」として見た時の意味を証明する。

* `node_range_table` — どの順に呼んでも、`GetNodeRange` が返すのは 0 を返した最後の呼び出しが
  書いた range である
* `delete_finds_iff` — `DeleteNodeRange` が今ある node を必ず見つけるのは、その slot より前に
  空き slot が無い時に限る

どちらも、呼び出し一つの効果を言う `getNodeRange_applyOp` から出る。
-/

namespace QuiltDB

/-- 成功した呼び出しの後で、その node に見える range。 -/
def RangeOp.range : RangeOp → Option UpdateRange
  | .update _ st end_ => some { st := st, end_ := end_ }
  | .delete _ => none

namespace UpdateBuffer

variable {V : Type} {b : UpdateBuffer V}

/-- 呼び出しが `0` を返すか。 -/
def returnsZero (b : UpdateBuffer V) : RangeOp → Bool
  | .update nodeId st end_ => (b.updateNodeRange nodeId st end_).isSome
  | .delete nodeId => (b.deleteNodeRange nodeId).isSome

/-- `b` から順に呼んだ記録。呼び出しと、それが `0` を返したかの組の列である。 -/
def calls (b : UpdateBuffer V) : List RangeOp → List (RangeOp × Bool)
  | [] => []
  | op :: ops => (op, b.returnsZero op) :: (b.applyOp op).calls ops

/-- `n` についての呼び出しのうち、`0` を返した最後のもの。 -/
def lastOk (b : UpdateBuffer V) (n : NodeId) (ops : List RangeOp) : Option RangeOp :=
  (((b.calls ops).filter fun c => c.1.nodeId == n && c.2).getLast?).map Prod.fst

/-- `n` の slot より前に空き slot が無い。`n` の slot が無い時は何も求めない。 -/
def noHoleBefore (b : UpdateBuffer V) (n : NodeId) : Bool :=
  !(b.slots.any fun s => s.nodeId == n) ||
    (b.slots.takeWhile fun s => s.nodeId != n).all Slot.occupied

/-- `DeleteNodeRange(n)` は `n` がある時だけ `0` を返し、その後の `GetNodeRange(n)` は失敗する。 -/
structure DeleteFinds (b : UpdateBuffer V) (n : NodeId) : Prop where
  found : (b.deleteNodeRange n).isSome = (b.getNodeRange n).isSome
  gone : (b.applyOp (.delete n)).getNodeRange n = none

/-! ## slot の列と `GetNodeRange` -/

/-- 空き slot の id は、どの node の id でもない。 -/
theorem free_ne {n : NodeId} (hn : 0 ≤ n) : (-1 : NodeId) ≠ n := by
  rintro rfl
  exact absurd hn (by decide)

theorem getNodeRange_append_cons {pre post : List Slot} {s : Slot}
    (hb : b.slots = pre ++ s :: post) (hpre : ∀ x ∈ pre, x.nodeId ≠ s.nodeId) :
    b.getNodeRange s.nodeId = some s.range := by
  have hnone : pre.find? (fun x => x.nodeId == s.nodeId) = none :=
    List.find?_eq_none.mpr fun x hx heq => hpre x hx (beq_iff_eq.mp heq)
  rw [getNodeRange, hb, List.find?_append, hnone, Option.none_or,
    List.find?_cons_of_pos (by simp)]
  rfl

/-- `n` の slot でない slot は、`n` の `GetNodeRange` に関わらない。 -/
theorem getNodeRange_skip {pre post : List Slot} {s : Slot} {n : NodeId}
    (hb : b.slots = pre ++ s :: post) (hs : s.nodeId ≠ n) :
    b.getNodeRange n = ((pre ++ post).find? fun x => x.nodeId == n).map Slot.range := by
  rw [getNodeRange, hb, List.find?_append, List.find?_append,
    List.find?_cons_of_neg (by simpa using hs)]

theorem getNodeRange_eq_none_iff {n : NodeId} :
    b.getNodeRange n = none ↔ ∀ s ∈ b.slots, s.nodeId ≠ n := by
  unfold getNodeRange
  rw [Option.map_eq_none_iff, List.find?_eq_none]
  exact forall₂_congr fun s _ => by rw [beq_iff_eq]

theorem getNodeRange_create {cap k : Nat} {n : NodeId} (hn : 0 ≤ n) :
    (createUpdateBuffer (V := V) cap k).getNodeRange n = none := by
  rw [getNodeRange_eq_none_iff]
  intro s hs
  rw [List.eq_of_mem_replicate hs]
  exact free_ne hn

/-! ## 呼び出し一つの効果 -/

/-- `UpdateNodeRange` が書くのは一つの slot で、そこは同じ id の slot か、id が無い時の空き slot である。 -/
theorem updateNodeRange_slots {id : NodeId} {st end_ : Int} {b' : UpdateBuffer V}
    (h : b.updateNodeRange id st end_ = some b') :
    ∃ pre s post, b.slots = pre ++ s :: post ∧ (s.nodeId = id ∨ s.nodeId = -1) ∧
      (∀ x ∈ pre, x.nodeId ≠ id) ∧
      b'.slots = pre ++ { nodeId := id, st := st, end_ := end_ } :: post := by
  unfold updateNodeRange at h
  split at h
  · next slots hs =>
    cases h
    obtain ⟨pre, s, post, hl, heq, hpre, rfl⟩ := modifyFirst_cases hs
    rw [beq_iff_eq] at heq
    subst heq
    exact ⟨pre, s, post, hl, .inl rfl, fun x hx => beq_eq_false_iff_ne.mp (hpre x hx), rfl⟩
  · next hnone =>
    -- 一巡目で見つからなかったので、どの slot も `id` でない
    rw [Option.map_eq_some_iff] at h
    obtain ⟨slots, hs, rfl⟩ := h
    obtain ⟨pre, s, post, hl, heq, -, rfl⟩ := modifyFirst_cases hs
    rw [beq_iff_eq] at heq
    refine ⟨pre, s, post, hl, .inr heq, fun x hx => ?_, rfl⟩
    refine beq_eq_false_iff_ne.mp (modifyFirst_eq_none hnone x ?_)
    rw [hl]
    exact List.mem_append_left _ hx

theorem getNodeRange_updateNodeRange {id n : NodeId} {st end_ : Int} {b' : UpdateBuffer V}
    (hn : 0 ≤ n) (h : b.updateNodeRange id st end_ = some b') :
    b'.getNodeRange n = if id = n then some { st := st, end_ := end_ } else b.getNodeRange n := by
  obtain ⟨pre, s, post, hb, hs, hpre, hb'⟩ := updateNodeRange_slots h
  split
  · next heq =>
    subst heq
    exact getNodeRange_append_cons hb' hpre
  · next hne =>
    have hsn : s.nodeId ≠ n := by
      rcases hs with hs | hs
      · exact hs ▸ hne
      · exact hs ▸ free_ne hn
    rw [getNodeRange_skip hb' hne, getNodeRange_skip hb hsn]

theorem deleteSlot_cases {id : NodeId} {slots slots' : List Slot}
    (h : deleteSlot id slots = some slots') :
    ∃ pre s post, slots = pre ++ s :: post ∧ s.nodeId = id ∧ (∀ x ∈ pre, x.nodeId ≠ id) ∧
      slots' = pre ++ { s with nodeId := -1 } :: post := by
  induction slots generalizing slots' with
  | nil => cases h
  | cons s slots ih =>
    rw [deleteSlot] at h
    split at h
    · cases h
    · split at h
      · next heq =>
        cases h
        exact ⟨[], s, slots, rfl, heq, (by rintro _ ⟨⟩), rfl⟩
      · next hne =>
        rw [Option.map_eq_some_iff] at h
        obtain ⟨l, hl, rfl⟩ := h
        obtain ⟨pre, t, post, rfl, ht, hpre, rfl⟩ := ih hl
        refine ⟨s :: pre, t, post, rfl, ht, ?_, rfl⟩
        rintro x (_ | ⟨_, hx⟩)
        · exact hne
        · exact hpre x hx

theorem getNodeRange_deleteNodeRange {id n : NodeId} {b' : UpdateBuffer V}
    (hnd : (occupiedIds b.slots).Nodup) (hn : 0 ≤ n) (h : b.deleteNodeRange id = some b') :
    b'.getNodeRange n = if id = n then none else b.getNodeRange n := by
  obtain ⟨slots, hs, rfl⟩ := Option.map_eq_some_iff.mp h
  obtain ⟨pre, s, post, hb, rfl, hpre, rfl⟩ := deleteSlot_cases hs
  split
  · next heq =>
    subst heq
    rw [hb, occupiedIds_append, occupiedIds_cons_of_nonneg hn, List.nodup_middle,
      List.nodup_cons, ← occupiedIds_append] at hnd
    refine getNodeRange_eq_none_iff.mpr fun x hx heq => ?_
    rcases List.mem_append.mp hx with hx | hx
    · exact hpre x hx heq
    · rcases List.mem_cons.mp hx with rfl | hx
      · exact free_ne hn heq
      · exact hnd.1 (mem_occupiedIds.mpr ⟨hn, x, List.mem_append_right _ hx, heq⟩)
  · next hne =>
    rw [getNodeRange_skip hb hne]
    exact getNodeRange_skip (s := { s with nodeId := -1 }) rfl (free_ne hn)

/-- 呼び出しは、`0` を返した時にその node の range だけを変える。 -/
theorem getNodeRange_applyOp {op : RangeOp} {n : NodeId} (hnd : (occupiedIds b.slots).Nodup)
    (hn : 0 ≤ n) :
    (b.applyOp op).getNodeRange n =
      if op.nodeId = n ∧ b.returnsZero op = true then op.range else b.getNodeRange n := by
  cases op with
  | update id st end_ =>
    cases h : b.updateNodeRange id st end_ with
    | none => simp [applyOp, returnsZero, h]
    | some b' => simp [applyOp, returnsZero, h, RangeOp.nodeId, RangeOp.range,
        getNodeRange_updateNodeRange hn h]
  | delete id =>
    cases h : b.deleteNodeRange id with
    | none => simp [applyOp, returnsZero, h]
    | some b' => simp [applyOp, returnsZero, h, RangeOp.nodeId, RangeOp.range,
        getNodeRange_deleteNodeRange hnd hn h]

/-- `UpdateNodeRange` が `-1` を返すのは、その node が無く、空き slot も無い時に限る。 -/
theorem updateNodeRange_eq_none_iff {id : NodeId} (st end_ : Int) :
    b.updateNodeRange id st end_ = none ↔
      b.getNodeRange id = none ∧ ∀ s ∈ b.slots, s.nodeId ≠ -1 := by
  rw [getNodeRange_eq_none_iff]
  unfold updateNodeRange
  constructor
  · intro h
    split at h
    · cases h
    · next hnone =>
      rw [Option.map_eq_none_iff] at h
      exact ⟨fun s hs => beq_eq_false_iff_ne.mp (modifyFirst_eq_none hnone s hs),
        fun s hs => beq_eq_false_iff_ne.mp (modifyFirst_eq_none h s hs)⟩
  · rintro ⟨habs, hfull⟩
    rw [modifyFirst_none fun s hs => beq_eq_false_iff_ne.mpr (habs s hs)]
    show Option.map _ _ = none
    rw [modifyFirst_none fun s hs => beq_eq_false_iff_ne.mpr (hfull s hs)]
    rfl

/-! ## 呼び出しの列 -/

theorem calls_append (b : UpdateBuffer V) (ops₁ ops₂ : List RangeOp) :
    b.calls (ops₁ ++ ops₂) = b.calls ops₁ ++ (ops₁.foldl applyOp b).calls ops₂ := by
  induction ops₁ generalizing b with
  | nil => rfl
  | cons op ops ih =>
    show (op, b.returnsZero op) :: (b.applyOp op).calls (ops ++ ops₂) = _
    rw [ih]
    rfl

theorem lastOk_concat (b : UpdateBuffer V) (n : NodeId) (ops : List RangeOp) (op : RangeOp) :
    b.lastOk n (ops ++ [op]) =
      if op.nodeId = n ∧ (ops.foldl applyOp b).returnsZero op = true then some op
      else b.lastOk n ops := by
  unfold lastOk
  rw [calls_append]
  show Option.map _ (List.getLast? (List.filter _ (_ ++ [(op, _)]))) = _
  rw [List.filter_append]
  split
  · next h =>
    rw [List.filter_cons_of_pos (by simpa using h), List.filter_nil, List.getLast?_concat]
    rfl
  · next h =>
    rw [List.filter_cons_of_neg (by simpa using h), List.filter_nil, List.append_nil]

/-- `GetNodeRange` が見せるのは、`0` を返した最後の呼び出しの結果である。 -/
theorem getNodeRange_foldl (hnd : (occupiedIds b.slots).Nodup) {n : NodeId} (hn : 0 ≤ n)
    (hb : b.getNodeRange n = none) {ops : List RangeOp} (hops : ∀ op ∈ ops, 0 ≤ op.nodeId) :
    (ops.foldl applyOp b).getNodeRange n = (b.lastOk n ops).bind RangeOp.range := by
  -- 最後の呼び出しから遡るので、列の後ろについての帰納法にする
  induction ops using List.reverseRecOn with
  | nil => exact hb
  | append_singleton ops op ih =>
    have hops' : ∀ x ∈ ops, 0 ≤ x.nodeId := fun x hx => hops x (List.mem_append_left _ hx)
    rw [List.foldl_append, List.foldl_cons, List.foldl_nil,
      getNodeRange_applyOp (applyOps_nodup hops' hnd) hn, lastOk_concat, ih hops']
    split <;> rfl

theorem lastOk_nodeId {n : NodeId} {ops : List RangeOp} {op : RangeOp}
    (h : b.lastOk n ops = some op) : op.nodeId = n := by
  obtain ⟨c, hc, rfl⟩ := Option.map_eq_some_iff.mp h
  have hmem := (List.mem_filter.mp (List.mem_of_getLast? hc)).2
  rw [Bool.and_eq_true, beq_iff_eq] at hmem
  exact hmem.1

/-- 最後に成功した呼び出しが range を残すのは、それが `UpdateNodeRange` の時に限る。 -/
theorem lastOk_range_iff {n : NodeId} {ops : List RangeOp} {st end_ : Int} :
    (b.lastOk n ops).bind RangeOp.range = some { st := st, end_ := end_ } ↔
      b.lastOk n ops = some (.update n st end_) := by
  constructor
  · intro h
    obtain ⟨op, hop, hr⟩ := Option.bind_eq_some_iff.mp h
    have hid := lastOk_nodeId hop
    cases op with
    | update id st' end' =>
      cases hr
      rw [hop]
      exact congrArg (fun x => some (RangeOp.update x st end_)) hid
    | delete id => cases hr
  · intro h
    rw [h]
    rfl

/-- node range の表としての意味。`ops` は新しい buffer への呼び出しの列である。 -/
structure TableSemantics (fresh : UpdateBuffer V) (ops : List RangeOp) : Prop where
  /-- どの id も、二つの slot を占めない。 -/
  once : (occupiedIds (ops.foldl applyOp fresh).slots).Nodup
  /-- `GetNodeRange(n)` は、`0` を返した最後の呼び出しが `UpdateNodeRange` の時にその range を返す。 -/
  last : ∀ n st end_, 0 ≤ n →
    ((ops.foldl applyOp fresh).getNodeRange n = some { st := st, end_ := end_ } ↔
      fresh.lastOk n ops = some (.update n st end_))
  /-- `UpdateNodeRange(n)` が `-1` を返すのは、`n` が無く、空き slot（id が `-1`）も無い時に限る。 -/
  full : ∀ n st end_, 0 ≤ n →
    ((ops.foldl applyOp fresh).returnsZero (.update n st end_) = false ↔
      (ops.foldl applyOp fresh).getNodeRange n = none ∧
        ∀ s ∈ (ops.foldl applyOp fresh).slots, s.nodeId ≠ -1)
  /-- `-1` を返した呼び出しは何も変えない。 -/
  failed : ∀ op, (ops.foldl applyOp fresh).returnsZero op = false →
    (ops.foldl applyOp fresh).applyOp op = ops.foldl applyOp fresh
  /-- どの呼び出しも、他の node の range を変えない。 -/
  others : ∀ op n, 0 ≤ op.nodeId → 0 ≤ n → op.nodeId ≠ n →
    ((ops.foldl applyOp fresh).applyOp op).getNodeRange n =
      (ops.foldl applyOp fresh).getNodeRange n

theorem applyOp_of_not_returnsZero {op : RangeOp} (h : b.returnsZero op = false) :
    b.applyOp op = b := by
  cases op with
  | update id st end_ =>
    have hnone : b.updateNodeRange id st end_ = none := by simpa [returnsZero] using h
    rw [applyOp, hnone, Option.getD_none]
  | delete id =>
    have hnone : b.deleteNodeRange id = none := by simpa [returnsZero] using h
    rw [applyOp, hnone, Option.getD_none]

/--
**`UpdateNodeRange` と `DeleteNodeRange` をどの順に呼んでも、node range の領域は表として振る舞う。**

id は重ならず、`GetNodeRange` は `0` を返した最後の呼び出しを映し、失敗は表が一杯の時に限られ、
どの呼び出しも他の node に触れない。
-/
theorem node_range_table (cap k : Nat) (ops : List RangeOp) (hops : ∀ op ∈ ops, 0 ≤ op.nodeId) :
    TableSemantics (createUpdateBuffer (V := V) cap k) ops := by
  have hfresh : (occupiedIds (createUpdateBuffer (V := V) cap k).slots).Nodup := by
    rw [occupiedIds_create]
    exact List.nodup_nil
  have hnd := applyOps_nodup hops hfresh
  constructor
  case once => exact hnd
  case last =>
    intro n st end_ hn
    rw [getNodeRange_foldl hfresh hn (getNodeRange_create hn) hops, lastOk_range_iff]
  case full =>
    intro n st end_ _
    rw [← updateNodeRange_eq_none_iff st end_]
    show Option.isSome _ = false ↔ _
    rw [Option.isSome_eq_false_iff, Option.isNone_iff_eq_none]
  case failed => exact fun op h => applyOp_of_not_returnsZero h
  case others =>
    intro op n _ hn hne
    rw [getNodeRange_applyOp hnd hn, if_neg fun h => hne h.1]

/-- 空き slot が一つの buffer で書き、消し、別の node に使い直す列。 -/
theorem node_range_table_reused_slot :
    TableSemantics (createUpdateBuffer (V := BitVec 32) 0 1)
      [.update 3 0 4, .update 5 1 2, .delete 3, .update 5 1 2] :=
  node_range_table 0 1 _ (by decide)

/-! ## `DeleteNodeRange` が見つけるもの -/

/-- 空き slot の先にある slot には、`DeleteNodeRange` の loop は届かない。 -/
theorem deleteSlot_eq_none_of_free {id : NodeId} {pre : List Slot} (rest : List Slot)
    (hpre : ∀ x ∈ pre, x.nodeId ≠ id) (hfree : ∃ x ∈ pre, x.nodeId < 0) :
    deleteSlot id (pre ++ rest) = none := by
  induction pre with
  | nil =>
    obtain ⟨x, hx, -⟩ := hfree
    cases hx
  | cons s pre ih =>
    rw [List.cons_append, deleteSlot]
    split
    · rfl
    · next hs =>
      rw [if_neg (hpre s List.mem_cons_self), ih (fun x hx => hpre x (List.mem_cons_of_mem _ hx)) ?_]
      · rfl
      · obtain ⟨x, hx, hlt⟩ := hfree
        rcases List.mem_cons.mp hx with rfl | hx
        · exact absurd hlt hs
        · exact ⟨x, hx, hlt⟩

theorem deleteSlot_eq_none_of_absent {id : NodeId} {slots : List Slot}
    (h : ∀ s ∈ slots, s.nodeId ≠ id) : deleteSlot id slots = none := by
  cases hd : deleteSlot id slots with
  | none => rfl
  | some slots' =>
    obtain ⟨pre, s, post, rfl, hs, -, -⟩ := deleteSlot_cases hd
    exact absurd hs (h s (List.mem_append_right _ List.mem_cons_self))

/-- slot の列のうち `n` の slot と、その手前。 -/
theorem exists_slot_split {slots : List Slot} {n : NodeId} (h : ∃ s ∈ slots, s.nodeId = n) :
    ∃ pre s post, slots = pre ++ s :: post ∧ s.nodeId = n ∧ (∀ x ∈ pre, x.nodeId ≠ n) ∧
      slots.takeWhile (fun x => x.nodeId != n) = pre := by
  induction slots with
  | nil =>
    obtain ⟨s, hs, -⟩ := h
    cases hs
  | cons t slots ih =>
    by_cases ht : t.nodeId = n
    · refine ⟨[], t, slots, rfl, ht, (by rintro _ ⟨⟩), ?_⟩
      exact List.takeWhile_cons_of_neg (by simpa using ht)
    · obtain ⟨s, hs, hn⟩ := h
      have hs' : s ∈ slots := by
        rcases List.mem_cons.mp hs with rfl | hs
        · exact absurd hn ht
        · exact hs
      obtain ⟨pre, u, post, rfl, hu, hpre, htw⟩ := ih ⟨s, hs', hn⟩
      refine ⟨t :: pre, u, post, rfl, hu, ?_, ?_⟩
      · rintro x (_ | ⟨_, hx⟩)
        · exact ht
        · exact hpre x hx
      · rw [List.takeWhile_cons_of_pos (by simpa using ht), htw]

/-- `n` がある時、`DeleteNodeRange(n)` が `0` を返すのは、手前に空き slot が無い時に限る。 -/
theorem deleteNodeRange_isSome_iff {n : NodeId} (hn : 0 ≤ n) (h : ∃ s ∈ b.slots, s.nodeId = n) :
    (b.deleteNodeRange n).isSome = true ↔
      (b.slots.takeWhile fun s => s.nodeId != n).all Slot.occupied = true := by
  obtain ⟨pre, s, post, hb, hs, hpre, htw⟩ := exists_slot_split h
  rw [htw, deleteNodeRange, Option.isSome_map, hb, List.all_eq_true]
  constructor
  · intro hsome x hx
    by_contra hocc
    have hx0 : x.nodeId < 0 := by simpa [Slot.occupied] using hocc
    rw [deleteSlot_eq_none_of_free (s :: post) hpre ⟨x, hx, hx0⟩] at hsome
    cases hsome
  · intro hall
    rw [deleteSlot_append (fun x hx => ⟨of_decide_eq_true (hall x hx), hpre x hx⟩) hs hn]
    rfl

theorem any_nodeId_iff {n : NodeId} :
    (b.slots.any fun s => s.nodeId == n) = true ↔ ∃ s ∈ b.slots, s.nodeId = n := by
  rw [List.any_eq_true]
  exact exists_congr fun s => and_congr_right fun _ => beq_iff_eq

/--
**どの順に呼んだ buffer でも、`DeleteNodeRange(n)` が今ある `n` を必ず見つけて消すのは、
`n` の slot より前に空き slot が無い時で、その時に限る。**
-/
theorem delete_finds_iff (cap k : Nat) (ops : List RangeOp) (hops : ∀ op ∈ ops, 0 ≤ op.nodeId)
    (n : NodeId) (hn : 0 ≤ n) :
    DeleteFinds (ops.foldl applyOp (createUpdateBuffer (V := V) cap k)) n ↔
      (ops.foldl applyOp (createUpdateBuffer (V := V) cap k)).noHoleBefore n = true := by
  have hnd : (occupiedIds (ops.foldl applyOp (createUpdateBuffer (V := V) cap k)).slots).Nodup :=
    applyOps_nodup hops (by rw [occupiedIds_create]; exact List.nodup_nil)
  generalize ops.foldl applyOp (createUpdateBuffer (V := V) cap k) = b at hnd ⊢
  unfold noHoleBefore
  by_cases hmem : ∃ s ∈ b.slots, s.nodeId = n
  · have hget : (b.getNodeRange n).isSome = true := by
      rw [Option.isSome_iff_ne_none]
      intro hnone
      obtain ⟨s, hs, heq⟩ := hmem
      exact getNodeRange_eq_none_iff.mp hnone s hs heq
    rw [any_nodeId_iff.mpr hmem, Bool.not_true, Bool.false_or, ← deleteNodeRange_isSome_iff hn hmem]
    constructor
    · intro h
      rw [h.found, hget]
    · intro h
      refine ⟨h.trans hget.symm, ?_⟩
      rw [getNodeRange_applyOp hnd hn, if_pos ⟨rfl, h⟩]
      rfl
  · -- `n` が無ければ、二つの探索はどちらも失敗する
    have habs : ∀ s ∈ b.slots, s.nodeId ≠ n := fun s hs heq => hmem ⟨s, hs, heq⟩
    have hdel : b.deleteNodeRange n = none := by
      rw [deleteNodeRange, deleteSlot_eq_none_of_absent habs]
      rfl
    have hget : b.getNodeRange n = none := getNodeRange_eq_none_iff.mpr habs
    refine iff_of_true ⟨by rw [hdel, hget]; rfl, ?_⟩ ?_
    · rw [applyOp, hdel]
      exact hget
    · rw [Bool.or_eq_true, Bool.not_eq_true']
      exact .inl (Bool.eq_false_iff.mpr fun h => hmem (any_nodeId_iff.mp h))

/-- 二つの range を書いた buffer から、先に書いた方を消す。 -/
theorem delete_finds_first :
    DeleteFinds ([RangeOp.update 0 0 0, .update 1 0 0].foldl applyOp
      (createUpdateBuffer (V := BitVec 32) 0 2)) 0 :=
  (delete_finds_iff 0 2 _ (by decide) 0 (by decide)).mpr (by decide)

/-- 先に書いた方を消した後では、`GetNodeRange(1)` は成功するのに `DeleteNodeRange(1)` は `-1` を返す。 -/
theorem delete_misses_behind_hole :
    ¬DeleteFinds ([RangeOp.update 0 0 0, .update 1 0 0, .delete 0].foldl applyOp
      (createUpdateBuffer (V := BitVec 32) 0 2)) 1 := by
  intro h
  exact absurd h.found (by decide)

end UpdateBuffer

end QuiltDB
