import QuiltDB.Utils.FlatBuffer
import QuiltDB.Properties.RangeTable

/-!
# byte 列の配置

`UpdateBuffer` の byte 列を、header・node range・update・残りの四つに分けて見る（`View`）。
どの呼び出しも、この形の byte 列を同じ形に移す。配置についての計算はここで済ませ、
`Properties/FlatBuffer.lean` では `View` の field だけを見る。
-/

namespace QuiltDB.FlatBuffer

open Bytes

/-! ## `size_t` を通した計算 -/

@[simp] theorem ofSize_toSize (v : Int32) : ofSize (toSize v) = v := by
  have h := congrArg Int32.toBitVec v.toInt32_toInt64
  apply Int32.toBitVec.inj
  show v.toInt64.toBitVec.setWidth 32 = v.toBitVec
  rwa [Int64.toBitVec_toInt32, BitVec.signExtend_eq_setWidth_of_le _ (by decide)] at h

theorem ofSize_add (x y : UInt64) : ofSize (x + y) = ofSize x + ofSize y := by
  apply Int32.toBitVec.inj
  exact BitVec.setWidth_add x.toBitVec y.toBitVec (show 32 ≤ 64 by decide)

theorem ofSize_mul (x y : UInt64) : ofSize (x * y) = ofSize x * ofSize y := by
  apply Int32.toBitVec.inj
  exact BitVec.setWidth_mul x.toBitVec y.toBitVec (show 32 ≤ 64 by decide)

theorem ofNat_mul (a b : Nat) : Int32.ofNat (a * b) = Int32.ofNat a * Int32.ofNat b := by
  apply Int32.toBitVec.inj
  rw [Int32.toBitVec_mul]
  exact BitVec.ofNat_mul ..

/-- 配置の正確な大きさ。 -/
def layoutSize (us cap k : Nat) : Nat := 44 + 20 * k + cap * (8 + us)

/-- `j` 番目の update の位置。 -/
def updateOffset (us k j : Nat) : Nat := 44 + 20 * k + j * (8 + us)

theorem updateStOffset_ofNat (k : Nat) : updateStOffset (Int32.ofNat k) = Int32.ofNat (44 + 20 * k) := by
  unfold updateStOffset
  rw [ofSize_add, ofSize_mul, ofSize_toSize, Nat.mul_comm, ofNat_add, ofNat_mul]
  rfl

theorem advance_ofNat (a us : Nat) :
    advance (Int32.ofNat a) (Int32.ofNat us) = Int32.ofNat (a + (8 + us)) := by
  unfold advance
  rw [ofSize_add, ofSize_add, ofSize_toSize, ofSize_toSize, ofNat_add, ofNat_add]
  rfl

theorem getBuffSize_ofNat (us cap k : Nat) :
    getBuffSize (Int32.ofNat us) (Int32.ofNat cap) (Int32.ofNat k)
      = Int32.ofNat (layoutSize us cap k) := by
  unfold getBuffSize layoutSize
  show ofSize (toSize (ofSize _ + ofSize _) + 44) = _
  rw [ofSize_add, ofSize_toSize, ofSize_mul, ofSize_mul, ofSize_toSize, ofSize_toSize,
    ofSize_add 8, ofSize_toSize, ofNat_add, ofNat_add, ofNat_mul, ofNat_mul, ofNat_add]
  show Int32.ofNat k * 20 + Int32.ofNat cap * (8 + Int32.ofNat us) + 44
    = 44 + 20 * Int32.ofNat k + Int32.ofNat cap * (8 + Int32.ofNat us)
  grind

/-! ## header -/

/-- header の値。 -/
abbrev Header := Field → Int32

def Field.all : List Field :=
  [.buffSize, .updateSize, .updateCapacity, .nodeRangeCapacity, .numUpdatesOccupied,
    .nodeRangeStOffset, .numNodes, .updateStOffset, .updateEndOffset, .updateIterOffset,
    .nodeRangeIterOffset]

def headerBytes (h : Header) : List UInt8 := Field.all.flatMap fun f => int32Bytes (h f)

@[simp] theorem length_headerBytes (h : Header) : (headerBytes h).length = 44 :=
  length_flatMap_width fun f _ => length_int32Bytes (h f)

theorem Field.all_split (f : Field) :
    Field.all = Field.all.take f.index ++ f :: Field.all.drop (f.index + 1) := by
  cases f <;> rfl

theorem Field.length_take (f : Field) : (Field.all.take f.index).length = f.index := by
  cases f <;> rfl

theorem Field.ne_of_mem (f : Field) :
    ∀ g ∈ Field.all.take f.index ++ Field.all.drop (f.index + 1), g ≠ f := by
  cases f <;> decide

/-- header を field `f` のところで切る。 -/
theorem headerBytes_split (h : Header) (f : Field) :
    headerBytes h = (Field.all.take f.index).flatMap (fun g => int32Bytes (h g)) ++
      (int32Bytes (h f) ++ (Field.all.drop (f.index + 1)).flatMap fun g => int32Bytes (h g)) := by
  unfold headerBytes
  conv => lhs; rw [Field.all_split f]
  rw [List.flatMap_append, List.flatMap_cons]

theorem length_fields_before (h : Header) (f : Field) :
    ((4 * f.index : Nat) : Int) =
      ((Field.all.take f.index).flatMap fun g => int32Bytes (h g)).length := by
  rw [length_flatMap_width (w := 4) fun g _ => length_int32Bytes (h g), Field.length_take,
    Nat.mul_comm]

theorem getField_headerBytes (h : Header) (rest : List UInt8) (f : Field) :
    getField (headerBytes h ++ rest) f = some (h f) := by
  rw [getField, headerBytes_split h f, List.append_assoc, List.append_assoc]
  exact loadInt32_at _ (length_fields_before h f)

theorem setField_headerBytes (h : Header) (rest : List UInt8) (f : Field) (v : Int32) :
    setField (headerBytes h ++ rest) f v = some (headerBytes (Function.update h f v) ++ rest) := by
  have hsame : ∀ g ∈ Field.all.take f.index ++ Field.all.drop (f.index + 1),
      int32Bytes (Function.update h f v g) = int32Bytes (h g) := fun g hg => by
    rw [Function.update_of_ne (Field.ne_of_mem f g hg)]
  have hpre := List.flatMap_congr fun g hg => hsame g (List.mem_append_left _ hg)
  have hpost := List.flatMap_congr fun g hg => hsame g (List.mem_append_right _ hg)
  rw [setField, headerBytes_split h f, headerBytes_split (Function.update h f v) f, hpre, hpost,
    Function.update_self, List.append_assoc, List.append_assoc, List.append_assoc, List.append_assoc]
  exact storeInt32_at v (length_fields_before h f) (length_int32Bytes _)

/-! ## slot と update 一つ -/

/-- byte 列に置かれた slot。 -/
structure RangeSlot where
  nodeId : Int32
  st : Int64
  end_ : Int64
  deriving Repr, DecidableEq

/-- 列のモデルの slot。 -/
def RangeSlot.toSlot (s : RangeSlot) : Slot :=
  { nodeId := s.nodeId.toInt, st := s.st.toInt, end_ := s.end_.toInt }

def RangeSlot.bytes (s : RangeSlot) : List UInt8 :=
  int32Bytes s.nodeId ++ (int64Bytes s.st ++ int64Bytes s.end_)

@[simp] theorem RangeSlot.length_bytes (s : RangeSlot) : s.bytes.length = 20 := by
  simp [RangeSlot.bytes]

def updateBytes (kv : Key × List UInt8) : List UInt8 := int64Bytes kv.1 ++ kv.2

theorem length_updateBytes {kv : Key × List UInt8} {us : Nat} (h : kv.2.length = us) :
    (updateBytes kv).length = 8 + us := by
  rw [updateBytes, List.length_append, length_int64Bytes, h]

section slot

variable {a c : List UInt8} {p : Int} (s : RangeSlot)

theorem loadInt32_slot (hp : p = a.length) : loadInt32 (a ++ (s.bytes ++ c)) p = some s.nodeId := by
  rw [RangeSlot.bytes, List.append_assoc]
  exact loadInt32_at _ hp

theorem storeInt32_slot (v : Int32) (hp : p = a.length) :
    storeInt32 (a ++ (s.bytes ++ c)) p v = some (a ++ ({ s with nodeId := v }.bytes ++ c)) := by
  rw [RangeSlot.bytes, RangeSlot.bytes, List.append_assoc, List.append_assoc]
  exact storeInt32_at v hp (length_int32Bytes _)

/-- `range_st` のところで切る。 -/
theorem RangeSlot.split_st (a c : List UInt8) :
    a ++ (s.bytes ++ c)
      = (a ++ int32Bytes s.nodeId) ++ (int64Bytes s.st ++ (int64Bytes s.end_ ++ c)) := by
  rw [RangeSlot.bytes, List.append_assoc, List.append_assoc, List.append_assoc]

/-- `range_end` のところで切る。 -/
theorem RangeSlot.split_end (a c : List UInt8) :
    a ++ (s.bytes ++ c)
      = (a ++ int32Bytes s.nodeId ++ int64Bytes s.st) ++ (int64Bytes s.end_ ++ c) := by
  rw [RangeSlot.bytes, List.append_assoc, List.append_assoc, List.append_assoc, List.append_assoc]

theorem add_four_eq (hp : p = a.length) : p + 4 = (a ++ int32Bytes s.nodeId).length := by
  rw [hp, List.length_append, length_int32Bytes]
  rfl

theorem add_twelve_eq (hp : p = a.length) :
    p + 4 + 8 = (a ++ int32Bytes s.nodeId ++ int64Bytes s.st).length := by
  rw [add_four_eq s hp, @List.length_append _ _ (int64Bytes s.st), length_int64Bytes]
  rfl

theorem loadInt64_slot_st (hp : p = a.length) :
    loadInt64 (a ++ (s.bytes ++ c)) (p + 4) = some s.st := by
  rw [s.split_st]
  exact loadInt64_at _ (add_four_eq s hp)

theorem loadInt64_slot_end (hp : p = a.length) :
    loadInt64 (a ++ (s.bytes ++ c)) (p + 4 + 8) = some s.end_ := by
  rw [s.split_end]
  exact loadInt64_at _ (add_twelve_eq s hp)

theorem storeInt64_slot_st (v : Int64) (hp : p = a.length) :
    storeInt64 (a ++ (s.bytes ++ c)) (p + 4) v = some (a ++ ({ s with st := v }.bytes ++ c)) := by
  rw [s.split_st, RangeSlot.split_st]
  exact storeInt64_at v (add_four_eq s hp) (length_int64Bytes _)

theorem storeInt64_slot_end (v : Int64) (hp : p = a.length) :
    storeInt64 (a ++ (s.bytes ++ c)) (p + 4 + 8) v
      = some (a ++ ({ s with end_ := v }.bytes ++ c)) := by
  rw [s.split_end, RangeSlot.split_end]
  exact storeInt64_at v (add_twelve_eq s hp) (length_int64Bytes _)

end slot

/-! ## 全体の配置 -/

/-- byte 列を四つに分けて見たもの。`slack` は update の領域のうち空いている分である。 -/
structure View where
  header : Header
  slots : List RangeSlot
  updates : List (Key × List UInt8)
  slack : List UInt8

def View.bytes (v : View) : List UInt8 :=
  headerBytes v.header ++
    (v.slots.flatMap RangeSlot.bytes ++ (v.updates.flatMap updateBytes ++ v.slack))

@[simp] theorem View.getField (v : View) (f : Field) :
    FlatBuffer.getField v.bytes f = some (v.header f) :=
  getField_headerBytes _ _ _

/-- field 一つを書き換えた見え方。 -/
def View.set (v : View) (f : Field) (x : Int32) : View :=
  { v with header := Function.update v.header f x }

@[simp] theorem View.set_header_self (v : View) (f : Field) (x : Int32) :
    (v.set f x).header f = x := Function.update_self _ _ _

theorem View.set_header_of_ne (v : View) {f g : Field} (h : g ≠ f) (x : Int32) :
    (v.set f x).header g = v.header g := Function.update_of_ne h _ _

@[simp] theorem View.setField (v : View) (f : Field) (x : Int32) :
    FlatBuffer.setField v.bytes f x = some (v.set f x).bytes :=
  setField_headerBytes _ _ _ _

@[simp] theorem length_slots_bytes (slots : List RangeSlot) :
    (slots.flatMap RangeSlot.bytes).length = slots.length * 20 :=
  length_flatMap_width fun s _ => s.length_bytes

/-- slot の領域の、途中の slot のところで切る。 -/
theorem View.bytes_slot {v : View} {pre post : List RangeSlot} {s : RangeSlot}
    (h : v.slots = pre ++ s :: post) :
    v.bytes = (headerBytes v.header ++ pre.flatMap RangeSlot.bytes) ++
      (s.bytes ++ (post.flatMap RangeSlot.bytes ++ (v.updates.flatMap updateBytes ++ v.slack))) := by
  rw [View.bytes, h, List.flatMap_append, List.flatMap_cons, List.append_assoc, List.append_assoc,
    List.append_assoc]

theorem slot_offset (h : Header) (pre : List RangeSlot) :
    ((44 + 20 * pre.length : Nat) : Int) = (headerBytes h ++ pre.flatMap RangeSlot.bytes).length := by
  rw [List.length_append, length_headerBytes, length_slots_bytes, Nat.mul_comm]

/-- update の領域の、途中の update のところで切る。 -/
theorem View.bytes_update {v : View} {pre post : List (Key × List UInt8)} {kv : Key × List UInt8}
    (h : v.updates = pre ++ kv :: post) :
    v.bytes = (headerBytes v.header ++ v.slots.flatMap RangeSlot.bytes ++ pre.flatMap updateBytes) ++
      (updateBytes kv ++ (post.flatMap updateBytes ++ v.slack)) := by
  rw [View.bytes, h, List.flatMap_append, List.flatMap_cons, List.append_assoc, List.append_assoc,
    List.append_assoc, List.append_assoc]

theorem update_offset (v : View) (pre : List (Key × List UInt8)) {us : Nat}
    (hpre : ∀ kv ∈ pre, kv.2.length = us) :
    (updateOffset us v.slots.length pre.length : Int) =
      (headerBytes v.header ++ v.slots.flatMap RangeSlot.bytes ++ pre.flatMap updateBytes).length := by
  rw [List.length_append, List.length_append, length_headerBytes, length_slots_bytes,
    length_flatMap_width fun kv hkv => length_updateBytes (hpre kv hkv), updateOffset, Nat.mul_comm 20]

/-! ## slot を探す loop -/

section scan

variable {id : Int32}

theorem add_twenty (a : List UInt8) (s : RangeSlot) :
    (a.length : Int) + 20 = (a ++ s.bytes).length := by
  rw [List.length_append, s.length_bytes]
  rfl

theorem findSlot_cases (id : Int32) (slots : List RangeSlot) (a c : List UInt8) :
    ((∀ s ∈ slots, s.nodeId ≠ id) ∧
      findSlot (a ++ (slots.flatMap RangeSlot.bytes ++ c)) id slots.length a.length = some none) ∨
    ∃ pre s post, slots = pre ++ s :: post ∧ s.nodeId = id ∧ (∀ x ∈ pre, x.nodeId ≠ id) ∧
      findSlot (a ++ (slots.flatMap RangeSlot.bytes ++ c)) id slots.length a.length
        = some (some ((a.length + 20 * pre.length : Nat) : Int)) := by
  induction slots generalizing a with
  | nil => exact .inl ⟨(by rintro _ ⟨⟩), rfl⟩
  | cons s slots ih =>
    have hload := loadInt32_slot (c := slots.flatMap RangeSlot.bytes ++ c) s (rfl : (a.length : Int) = _)
    rw [List.flatMap_cons, List.append_assoc, List.length_cons, findSlot, hload]
    simp only [bind, Option.bind_some]
    by_cases hs : s.nodeId = id
    · refine .inr ⟨[], s, slots, rfl, hs, (by rintro _ ⟨⟩), ?_⟩
      rw [if_pos hs]
      rfl
    · rw [if_neg hs, add_twenty a s, ← List.append_assoc]
      rcases ih (a ++ s.bytes) with ⟨hall, heq⟩ | ⟨pre, t, post, rfl, ht, hpre, heq⟩
      · refine .inl ⟨?_, heq⟩
        rintro x (_ | ⟨_, hx⟩)
        · exact hs
        · exact hall x hx
      · refine .inr ⟨s :: pre, t, post, rfl, ht, ?_, ?_⟩
        · rintro x (_ | ⟨_, hx⟩)
          · exact hs
          · exact hpre x hx
        · rw [heq, List.length_append, s.length_bytes, List.length_cons,
            show a.length + 20 + 20 * pre.length = a.length + 20 * (pre.length + 1) by omega]

theorem toInt_neg_iff {x : Int32} : x < 0 ↔ x.toInt < 0 := Int32.lt_iff_toInt_lt

/-- `DeleteNodeRange` の loop は、列のモデルの `deleteSlot` と同じ slot を消す。 -/
theorem deleteLoop_cases (id : Int32) (slots : List RangeSlot) (a c : List UInt8) :
    (UpdateBuffer.deleteSlot id.toInt (slots.map RangeSlot.toSlot) = none ∧
      deleteLoop (a ++ (slots.flatMap RangeSlot.bytes ++ c)) id slots.length a.length
        = some (-1, a ++ (slots.flatMap RangeSlot.bytes ++ c))) ∨
    ∃ slots' : List RangeSlot, slots'.length = slots.length ∧
      UpdateBuffer.deleteSlot id.toInt (slots.map RangeSlot.toSlot)
        = some (slots'.map RangeSlot.toSlot) ∧
      deleteLoop (a ++ (slots.flatMap RangeSlot.bytes ++ c)) id slots.length a.length
        = some (0, a ++ (slots'.flatMap RangeSlot.bytes ++ c)) := by
  induction slots generalizing a with
  | nil => exact .inl ⟨rfl, rfl⟩
  | cons s slots ih =>
    have hload := loadInt32_slot (c := slots.flatMap RangeSlot.bytes ++ c) s (rfl : (a.length : Int) = _)
    rw [List.flatMap_cons, List.append_assoc, List.length_cons, deleteLoop, hload, List.map_cons,
      UpdateBuffer.deleteSlot]
    simp only [bind, Option.bind_some]
    by_cases hneg : s.nodeId < 0
    · refine .inl ⟨if_pos (toInt_neg_iff.mp hneg), ?_⟩
      rw [if_pos hneg]
      rfl
    · have hneg' : ¬s.toSlot.nodeId < 0 := fun h => hneg (toInt_neg_iff.mpr h)
      rw [if_neg hneg, if_neg hneg']
      by_cases hs : s.nodeId = id
      · refine .inr ⟨{ s with nodeId := -1 } :: slots, rfl, ?_, ?_⟩
        · rw [if_pos (show s.toSlot.nodeId = id.toInt from congrArg Int32.toInt hs)]
          rfl
        · rw [if_pos hs, storeInt32_slot s (-1) rfl, List.flatMap_cons, List.append_assoc]
          rfl
      · have hs' : ¬s.toSlot.nodeId = id.toInt := fun h => hs (Int32.toInt.inj h)
        rw [if_neg hs, if_neg hs', add_twenty a s, ← List.append_assoc]
        rcases ih (a ++ s.bytes) with ⟨hnone, heq⟩ | ⟨slots', hlen, hsome, heq⟩
        · refine .inl ⟨?_, heq⟩
          rw [hnone]
          rfl
        · refine .inr ⟨s :: slots', congrArg (· + 1) hlen, ?_, ?_⟩
          · rw [hsome]
            rfl
          · rw [heq, List.flatMap_cons, List.append_assoc, List.append_assoc]

end scan

/-! ## 初期化 -/

/-- constructor が書く空き slot。 -/
def freeSlot : RangeSlot := { nodeId := -1, st := -1, end_ := -1 }

theorem initNodeRanges_bytes (slots : List RangeSlot) (a c : List UInt8) :
    initNodeRanges slots.length a.length (a ++ (slots.flatMap RangeSlot.bytes ++ c))
      = some (a ++ ((List.replicate slots.length freeSlot).flatMap RangeSlot.bytes ++ c)) := by
  induction slots generalizing a with
  | nil => rfl
  | cons s slots ih =>
    rw [List.length_cons, initNodeRanges, List.flatMap_cons, List.append_assoc]
    simp only [bind]
    rw [storeInt32_slot s (-1) rfl, Option.bind_some, storeInt64_slot_st _ (-1) rfl, Option.bind_some,
      storeInt64_slot_end _ (-1) rfl, Option.bind_some, ← List.append_assoc,
      show (a.length : Int) + 20 = (a ++ freeSlot.bytes).length from add_twenty a freeSlot]
    refine (ih (a ++ freeSlot.bytes)).trans ?_
    rw [List.replicate_succ, List.flatMap_cons, List.append_assoc, List.append_assoc]

theorem exists_slot_bytes {bs : List UInt8} (h : bs.length = 20) : ∃ s : RangeSlot, bs = s.bytes := by
  obtain ⟨id, hid⟩ := exists_int32Bytes (show (bs.take 4).length = 4 by rw [List.length_take]; omega)
  obtain ⟨st, hst⟩ := exists_int64Bytes (show ((bs.drop 4).take 8).length = 8 by
    rw [List.length_take, List.length_drop]; omega)
  obtain ⟨end_, hend⟩ := exists_int64Bytes (show ((bs.drop 4).drop 8).length = 8 by
    rw [List.length_drop, List.length_drop]; omega)
  refine ⟨{ nodeId := id, st := st, end_ := end_ }, ?_⟩
  rw [RangeSlot.bytes, ← hid, ← hst, ← hend, List.take_append_drop, List.take_append_drop]

theorem exists_headerBytes {bs : List UInt8} (h : bs.length = 44) : ∃ h, bs = headerBytes h := by
  obtain ⟨xs, hlen, rfl⟩ := exists_flatMap (fun _ h => exists_int32Bytes h) 11 h
  refine ⟨fun f => xs.getD f.index 0, ?_⟩
  match xs, hlen with
  | [_, _, _, _, _, _, _, _, _, _, _], _ => rfl

/-- 中身の決まっていない byte 列も、大きさが合えば同じ形に見える。 -/
theorem exists_view {m : List UInt8} {us cap k : Nat} (hm : m.length = layoutSize us cap k) :
    ∃ v : View, v.bytes = m ∧ v.slots.length = k ∧ v.updates = [] ∧
      v.slack.length = cap * (8 + us) := by
  unfold layoutSize at hm
  obtain ⟨h, hh⟩ := exists_headerBytes (show (m.take 44).length = 44 by
    rw [List.length_take]; omega)
  obtain ⟨slots, hlen, hslots⟩ := exists_flatMap (fun _ h => exists_slot_bytes h) k
    (show ((m.drop 44).take (k * 20)).length = k * 20 by
      rw [List.length_take, List.length_drop]; omega)
  refine ⟨{ header := h, slots := slots, updates := [], slack := (m.drop 44).drop (k * 20) }, ?_,
    hlen, rfl, ?_⟩
  · show headerBytes h ++ (slots.flatMap RangeSlot.bytes ++ ([] ++ _)) = m
    rw [← hh, ← hslots, List.nil_append, List.take_append_drop, List.take_append_drop]
  · show ((m.drop 44).drop (k * 20)).length = _
    rw [List.length_drop, List.length_drop]
    omega

/-! ## 触る範囲 -/

/-- node range の呼び出しが変えるところは、slot の領域と `node_range_iter_offset_` だけである。 -/
structure NodeLocal (v v' : View) : Prop where
  header : ∀ f, f ≠ .nodeRangeIterOffset → v'.header f = v.header f
  slots : v'.slots.length = v.slots.length
  updates : v'.updates = v.updates
  slack : v'.slack = v.slack

/-- update の呼び出しは、slot の領域にも `node_range_iter_offset_` にも触らない。 -/
structure UpdateLocal (v v' : View) : Prop where
  header : v'.header .nodeRangeIterOffset = v.header .nodeRangeIterOffset
  slots : v'.slots = v.slots

theorem NodeLocal.refl (v : View) : NodeLocal v v := ⟨fun _ _ => rfl, rfl, rfl, rfl⟩

theorem UpdateLocal.refl (v : View) : UpdateLocal v v := ⟨rfl, rfl⟩

/-- header の最後の field だけを分ける。 -/
theorem headerBytes_last (h : Header) :
    headerBytes h = (Field.all.take 10).flatMap (fun f => int32Bytes (h f)) ++
      int32Bytes (h .nodeRangeIterOffset) := by
  rw [headerBytes_split h .nodeRangeIterOffset]
  show _ ++ (_ ++ []) = _
  rw [List.append_nil]
  rfl

theorem length_fields_init (h : Header) :
    ((Field.all.take 10).flatMap fun f => int32Bytes (h f)).length = 40 :=
  length_flatMap_width fun f _ => length_int32Bytes (h f)

theorem NodeLocal.take_bytes {v v' : View} (h : NodeLocal v v') :
    v'.bytes.take 40 = v.bytes.take 40 := by
  have hcongr : (Field.all.take 10).flatMap (fun f => int32Bytes (v'.header f))
      = (Field.all.take 10).flatMap fun f => int32Bytes (v.header f) :=
    List.flatMap_congr fun f hf => by
      rw [h.header f fun heq => Field.ne_of_mem .nodeRangeIterOffset f (List.mem_append_left _ hf) heq]
  have htake : ∀ w : View, w.bytes.take 40
      = (Field.all.take 10).flatMap fun f => int32Bytes (w.header f) := by
    intro w
    rw [View.bytes, headerBytes_last, List.append_assoc, List.take_append_of_le_length
      (length_fields_init _).ge, List.take_of_length_le (length_fields_init _).le]
  rw [htake, htake, hcongr]

theorem View.drop_bytes (v : View) :
    v.bytes.drop (44 + 20 * v.slots.length) = v.updates.flatMap updateBytes ++ v.slack := by
  have hlen : (headerBytes v.header ++ v.slots.flatMap RangeSlot.bytes).length
      = 44 + 20 * v.slots.length := by
    rw [List.length_append, length_headerBytes, length_slots_bytes, Nat.mul_comm]
  rw [View.bytes, ← List.append_assoc, ← hlen, List.drop_left]

theorem NodeLocal.drop_bytes {v v' : View} (h : NodeLocal v v') :
    v'.bytes.drop (44 + 20 * v.slots.length) = v.bytes.drop (44 + 20 * v.slots.length) := by
  have h' := v'.drop_bytes
  rw [h.slots] at h'
  rw [h', v.drop_bytes, h.updates, h.slack]

/-- `node_range_iter_offset_` と slot の領域。 -/
theorem View.nodeRange_bytes (v : View) :
    (v.bytes.drop 40).take (4 + 20 * v.slots.length)
      = int32Bytes (v.header .nodeRangeIterOffset) ++ v.slots.flatMap RangeSlot.bytes := by
  have hlen : (int32Bytes (v.header .nodeRangeIterOffset) ++ v.slots.flatMap RangeSlot.bytes).length
      = 4 + 20 * v.slots.length := by
    rw [List.length_append, length_int32Bytes, length_slots_bytes, Nat.mul_comm]
  rw [View.bytes, headerBytes_last, List.append_assoc, ← length_fields_init v.header, List.drop_left,
    ← List.append_assoc, ← hlen, List.take_left]

theorem UpdateLocal.nodeRange_bytes {v v' : View} (h : UpdateLocal v v') :
    (v'.bytes.drop 40).take (4 + 20 * v.slots.length)
      = (v.bytes.drop 40).take (4 + 20 * v.slots.length) := by
  have h' := v'.nodeRange_bytes
  rw [h.slots, h.header] at h'
  rw [h', v.nodeRange_bytes]

end QuiltDB.FlatBuffer
