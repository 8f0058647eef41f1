import QuiltDB.Properties.FlatLayout

/-!
# byte 列と列のモデルの対応

`Utils/FlatBuffer.lean` の byte 列の計算と、`Utils/Memstruct.lean` の列のモデルの対応 `Sim` を
定め、呼び出し一つがこれを保ち、同じ答えを返すことを呼び出しごとに証明する。

どの定理も同じ形をしている。`v.bytes` の上の計算は範囲の外を触らずに終わり、
終わった後の byte 列も `View` の形をしていて、列のモデルの一歩先と対応する。
-/

namespace QuiltDB.FlatBuffer

open Bytes

/-! ## 列のモデルとの対応 -/

/-- `j` 番目の update の delta の位置。 -/
def deltaOffset (us k j : Nat) : Int := (updateOffset us k j + 8 : Nat)

/-- delta のポインタが指す update の番号。 -/
def slotIndex (us k : Nat) (ptr : Int) : Nat := (ptr.toNat - (44 + 20 * k + 8)) / (8 + us)

/-- 呼び出し一つが、列のモデルの buffer に行うこと。 -/
def specStep (us k : Nat) (b : UpdateBuffer (List UInt8)) : Op → UpdateBuffer (List UInt8)
  | .appendUpdate key update => (b.appendUpdate key update).getD b
  | .startIteration => b.startIteration.getD b
  | .nextUpdate => (b.nextUpdate.map Prod.snd).getD b
  | .writeDelta ptr delta =>
    { b with updates := b.updates.modify (slotIndex us k ptr) fun kv => (kv.1, delta) }
  | .updateNodeRange nodeId st end_ => b.applyOp (.update nodeId.toInt st.toInt end_.toInt)
  | .deleteNodeRange nodeId => b.applyOp (.delete nodeId.toInt)
  | .startNodeRangeIteration => b.startNodeRangeIteration
  | .nextNodeRange => (b.nextNodeRange.map Prod.snd).getD b
  | .getUpdate _ | .getNodeRange _ => b

/-- 列のモデルの buffer から決まる header の値。 -/
def headerOf (us cap k : Nat) (b : UpdateBuffer (List UInt8)) : Header
  | .buffSize => Int32.ofNat (layoutSize us cap k)
  | .updateSize => Int32.ofNat us
  | .updateCapacity => Int32.ofNat cap
  | .nodeRangeCapacity => Int32.ofNat k
  | .numUpdatesOccupied => Int32.ofNat b.updates.length
  | .nodeRangeStOffset => Int32.ofNat 44
  | .numNodes => 0
  | .updateStOffset => Int32.ofNat (updateOffset us k 0)
  | .updateEndOffset => Int32.ofNat (updateOffset us k b.updates.length)
  | .updateIterOffset => Int32.ofNat (updateOffset us k b.updateIter)
  | .nodeRangeIterOffset => Int32.ofNat (44 + 20 * b.nodeRangeIter)

/--
byte 列の見え方 `v` が、列のモデルの buffer `b` を表している。

`node_range_iter_offset_` は constructor が書かないので、`StartNodeRangeIteration` の後でだけ
値が決まる。
-/
structure Sim (us cap k : Nat) (v : View) (b : UpdateBuffer (List UInt8)) (iterating : Bool) :
    Prop where
  fit : layoutSize us cap k < 2 ^ 31
  size : us < 2 ^ 31
  slots : b.slots = v.slots.map RangeSlot.toSlot
  slotCount : v.slots.length = k
  updates : b.updates = v.updates
  capacity : b.updateCapacity = cap
  deltas : ∀ kv ∈ v.updates, kv.2.length = us
  slack : b.updates.length * (8 + us) + v.slack.length = cap * (8 + us)
  header : ∀ f, (f = .nodeRangeIterOffset → iterating = true) → v.header f = headerOf us cap k b f
  iter : b.updateIter ≤ b.updates.length
  rangeIter : b.nodeRangeIter ≤ k

section Sim

variable {us cap k : Nat} {v : View} {b : UpdateBuffer (List UInt8)} {it : Bool}

theorem Sim.length_updates (h : Sim us cap k v b it) : b.updates.length ≤ cap := by
  have hslack := h.slack
  exact Nat.le_of_mul_le_mul_right (by omega) (show 0 < 8 + us by omega)

theorem updateOffset_le {j : Nat} (hj : j ≤ cap) : updateOffset us k j ≤ layoutSize us cap k :=
  Nat.add_le_add_left (Nat.mul_le_mul_right _ hj) _

theorem Sim.updateOffset_lt (h : Sim us cap k v b it) {j : Nat} (hj : j ≤ b.updates.length) :
    updateOffset us k j < 2 ^ 31 :=
  lt_of_le_of_lt (updateOffset_le (hj.trans h.length_updates)) h.fit

theorem updateOffset_succ (us k j : Nat) :
    updateOffset us k (j + 1) = updateOffset us k j + (8 + us) := by
  unfold updateOffset
  rw [Nat.succ_mul j, ← Nat.add_assoc]

theorem updateOffset_le_iff {us k i j : Nat} : updateOffset us k i ≤ updateOffset us k j ↔ i ≤ j := by
  unfold updateOffset
  rw [Nat.add_le_add_iff_left]
  exact Nat.mul_le_mul_right_iff (show 0 < 8 + us by omega)

theorem Sim.cap_lt (h : Sim us cap k v b it) : cap < 2 ^ 31 := by
  have hfit := h.fit
  have hle : cap * 1 ≤ cap * (8 + us) := Nat.mul_le_mul_left _ (by omega)
  unfold layoutSize at hfit
  omega

theorem Sim.slotOffset_lt (h : Sim us cap k v b it) {i : Nat} (hi : i ≤ k) :
    44 + 20 * i < 2 ^ 31 := by
  have hfit := h.fit
  unfold layoutSize at hfit
  omega

/-- `nodeRangeIterOffset` の他の field は、いつでも決まった値を持つ。 -/
theorem Sim.field (h : Sim us cap k v b it) {f : Field} (hf : f ≠ .nodeRangeIterOffset) :
    v.header f = headerOf us cap k b f :=
  h.header f fun heq => absurd heq hf

theorem Sim.length_bytes (h : Sim us cap k v b it) : v.bytes.length = layoutSize us cap k := by
  have hslack := h.slack
  rw [h.updates] at hslack
  rw [View.bytes, List.length_append, List.length_append, List.length_append, length_headerBytes,
    length_slots_bytes, length_flatMap_width fun kv hkv => length_updateBytes (h.deltas kv hkv),
    h.slotCount, layoutSize]
  omega

/-! ## update の呼び出し -/

/-- 空きの手前までの byte 列。 -/
def View.front (v : View) : List UInt8 :=
  headerBytes v.header ++ v.slots.flatMap RangeSlot.bytes ++ v.updates.flatMap updateBytes

theorem View.bytes_slack (v : View) : v.bytes = v.front ++ v.slack := by
  rw [View.bytes, View.front, List.append_assoc, List.append_assoc]

theorem Sim.front_length (h : Sim us cap k v b it) :
    (updateOffset us k b.updates.length : Int) = v.front.length := by
  rw [h.updates, ← h.slotCount]
  exact update_offset v v.updates h.deltas

theorem View.store_key (v : View) {x rest : List UInt8} (key : Key) (hs : v.slack = x ++ rest)
    (hx : x.length = 8) :
    storeInt64 v.bytes v.front.length key = some { v with slack := int64Bytes key ++ rest }.bytes := by
  rw [v.bytes_slack, hs, View.bytes_slack]
  exact storeInt64_at key rfl hx

theorem View.store_delta (v : View) {y z delta : List UInt8} (key : Key)
    (hy : delta.length = y.length) :
    store { v with slack := int64Bytes key ++ (y ++ z) }.bytes (v.front.length + 8) delta
      = some { v with updates := v.updates ++ [(key, delta)], slack := z }.bytes := by
  have hoff : (v.front.length : Int) + 8 = (v.front ++ int64Bytes key).length := by
    rw [List.length_append, length_int64Bytes]
    rfl
  have hfront : { v with updates := v.updates ++ [(key, delta)], slack := z }.front
      = v.front ++ (int64Bytes key ++ delta) := by
    simp only [View.front, List.flatMap_append, List.flatMap_singleton, updateBytes, List.append_assoc]
  rw [View.bytes_slack, View.bytes_slack, hfront]
  show store (v.front ++ (int64Bytes key ++ (y ++ z))) _ _ = _
  rw [← List.append_assoc, store_at hoff hy, List.append_assoc, List.append_assoc, List.append_assoc]

/-- `AppendUpdate` の後の見え方。 -/
def View.append (v : View) (us k len : Nat) (key : Key) (delta : List UInt8) : View :=
  ({ v with updates := v.updates ++ [(key, delta)], slack := v.slack.drop (8 + us) }.set
    .updateEndOffset (Int32.ofNat (updateOffset us k (len + 1)))).set
    .numUpdatesOccupied (Int32.ofNat (len + 1))

theorem Sim.appendUpdate_full (h : Sim us cap k v b it) (hfull : b.updates.length = cap) (key : Key)
    (delta : List UInt8) : appendUpdate v.bytes key delta = some (-1, v.bytes) := by
  have heq : v.header .numUpdatesOccupied = v.header .updateCapacity := by
    rw [h.field (f := .numUpdatesOccupied) (by decide), h.field (f := .updateCapacity) (by decide)]
    exact congrArg Int32.ofNat hfull
  unfold appendUpdate
  simp only [View.getField, bind, Option.bind_some]
  rw [if_pos heq]
  rfl

theorem toSize_ofNat {n : Nat} (hn : n < 2 ^ 31) : (toSize (Int32.ofNat n)).toNat = n := by
  have hint : (Int32.ofNat n).toInt = n := Int32.toInt_ofNat_of_lt hn
  have hto : (Int32.ofNat n).toInt64 = Int64.ofNat n := by
    apply Int64.toInt.inj
    rw [Int32.toInt_toInt64, hint, Int64.toInt_ofNat_of_lt (by omega)]
  show (Int32.ofNat n).toInt64.toUInt64.toNat = n
  rw [hto]
  show (BitVec.ofNat 64 n).toNat = n
  rw [BitVec.toNat_ofNat, Nat.mod_eq_of_lt (by omega)]

theorem Sim.slack_le (h : Sim us cap k v b it) (hlt : b.updates.length < cap) :
    8 + us ≤ v.slack.length := by
  have hslack := h.slack
  have hmul : (b.updates.length + 1) * (8 + us) ≤ cap * (8 + us) := Nat.mul_le_mul_right _ hlt
  rw [Nat.succ_mul] at hmul
  omega

/-- 空きがあれば、`AppendUpdate` は末尾に一つ書く。 -/
theorem Sim.appendUpdate_bytes (h : Sim us cap k v b it) (hlt : b.updates.length < cap) (key : Key)
    {delta : List UInt8} (hd : delta.length = us) :
    appendUpdate v.bytes key delta = some (0, (v.append us k b.updates.length key delta).bytes) := by
  have hne : ¬v.header .numUpdatesOccupied = v.header .updateCapacity := by
    rw [h.field (f := .numUpdatesOccupied) (by decide), h.field (f := .updateCapacity) (by decide)]
    intro heq
    have hcap := h.cap_lt
    exact absurd ((ofNat_inj (by omega) hcap).mp heq) (by omega)
  have hend : (v.header .updateEndOffset).toInt = v.front.length := by
    rw [h.field (f := .updateEndOffset) (by decide), ← h.front_length]
    exact Int32.toInt_ofNat_of_lt (h.updateOffset_lt le_rfl)
  -- slack を、key と delta の入る分とその残りに分ける
  have hlen := h.slack_le hlt
  have hsplit : v.slack = v.slack.take 8 ++ ((v.slack.drop 8).take us ++ v.slack.drop (8 + us)) := by
    rw [← List.drop_drop, List.take_append_drop, List.take_append_drop]
  have hkey := v.store_key key hsplit (by rw [List.length_take]; omega)
  have hy : delta.length = ((v.slack.drop 8).take us).length := by
    rw [List.length_take, List.length_drop]
    omega
  have hdelta := v.store_delta (z := v.slack.drop (8 + us)) key hy
  have hsize : (toSize (v.header .updateSize)).toNat = us := by
    rw [h.field (f := .updateSize) (by decide)]
    exact toSize_ofNat h.size
  have hload : load delta 0 us = some delta := by
    have hat := load_at (b := delta) (c := []) (show (0 : Int) = ([] : List UInt8).length from rfl)
      hd.symm
    rwa [List.nil_append, List.append_nil] at hat
  have hadv : advance (v.header .updateEndOffset) (v.header .updateSize)
      = Int32.ofNat (updateOffset us k (b.updates.length + 1)) := by
    rw [h.field (f := .updateEndOffset) (by decide), h.field (f := .updateSize) (by decide),
      updateOffset_succ]
    exact advance_ofNat _ _
  have hnum : v.header .numUpdatesOccupied + 1 = Int32.ofNat (b.updates.length + 1) := by
    rw [h.field (f := .numUpdatesOccupied) (by decide), ofNat_add]
    rfl
  unfold appendUpdate
  simp only [View.getField, bind, Option.bind_some]
  rw [if_neg hne, hend, hkey]
  simp only [View.getField, Option.bind_some]
  rw [hsize, hload]
  simp only [Option.bind_some]
  rw [hdelta]
  simp only [Option.bind_some, View.setField]
  rw [hadv, hnum]
  rfl

theorem headerOf_updates {f : Field} (hnum : f ≠ .numUpdatesOccupied) (hend : f ≠ .updateEndOffset)
    (us' : List (Key × List UInt8)) :
    headerOf us cap k { b with updates := us' } f = headerOf us cap k b f := by
  cases f with
  | numUpdatesOccupied => exact absurd rfl hnum
  | updateEndOffset => exact absurd rfl hend
  | _ => rfl

theorem headerOf_updateIter {f : Field} (hf : f ≠ .updateIterOffset) (i : Nat) :
    headerOf us cap k { b with updateIter := i } f = headerOf us cap k b f := by
  cases f with
  | updateIterOffset => exact absurd rfl hf
  | _ => rfl

theorem headerOf_nodeRangeIter {f : Field} (hf : f ≠ .nodeRangeIterOffset) (i : Nat) :
    headerOf us cap k { b with nodeRangeIter := i } f = headerOf us cap k b f := by
  cases f with
  | nodeRangeIterOffset => exact absurd rfl hf
  | _ => rfl

theorem Sim.append (h : Sim us cap k v b it) (hlt : b.updates.length < cap) (key : Key)
    {delta : List UInt8} (hd : delta.length = us) :
    Sim us cap k (v.append us k b.updates.length key delta)
      { b with updates := b.updates ++ [(key, delta)] } it := by
  constructor
  case fit => exact h.fit
  case size => exact h.size
  case slots => exact h.slots
  case slotCount => exact h.slotCount
  case updates => exact congrArg (· ++ [(key, delta)]) h.updates
  case capacity => exact h.capacity
  case deltas =>
    intro kv hkv
    rcases List.mem_append.mp hkv with hkv | hkv
    · exact h.deltas kv hkv
    · rw [List.mem_singleton.mp hkv]
      exact hd
  case slack =>
    have hlen := h.slack_le hlt
    have hslack := h.slack
    show (b.updates ++ [(key, delta)]).length * (8 + us) + (v.slack.drop (8 + us)).length = _
    rw [List.length_append, List.length_singleton, Nat.succ_mul, List.length_drop]
    omega
  case header =>
    intro f hf
    rw [View.append]
    by_cases hnum : f = .numUpdatesOccupied
    · subst hnum
      rw [View.set_header_self, headerOf, List.length_append, List.length_singleton]
    · rw [View.set_header_of_ne _ hnum]
      by_cases hend : f = .updateEndOffset
      · subst hend
        rw [View.set_header_self, headerOf, List.length_append, List.length_singleton]
      · rw [View.set_header_of_ne _ hend, headerOf_updates hnum hend, ← h.header f hf]
  case iter =>
    show b.updateIter ≤ (b.updates ++ [(key, delta)]).length
    rw [List.length_append]
    exact h.iter.trans (Nat.le_add_right _ _)
  case rangeIter => exact h.rangeIter

/-- `update_iter_offset_` だけを書き換えた見え方。 -/
theorem Sim.setUpdateIter (h : Sim us cap k v b it) {i : Nat} (hi : i ≤ b.updates.length) :
    Sim us cap k (v.set .updateIterOffset (Int32.ofNat (updateOffset us k i)))
      { b with updateIter := i } it := by
  refine { h with header := fun f hf => ?_, iter := hi }
  by_cases hf' : f = .updateIterOffset
  · subst hf'
    rw [View.set_header_self]
    rfl
  · rw [View.set_header_of_ne _ hf', headerOf_updateIter hf', h.header f hf]

/-- `node_range_iter_offset_` だけを書き換えた見え方。 -/
theorem Sim.setNodeRangeIter (h : Sim us cap k v b it) {i : Nat} (hi : i ≤ k) :
    Sim us cap k (v.set .nodeRangeIterOffset (Int32.ofNat (44 + 20 * i)))
      { b with nodeRangeIter := i } true := by
  refine { h with header := fun f _ => ?_, rangeIter := hi }
  by_cases hf' : f = .nodeRangeIterOffset
  · subst hf'
    rw [View.set_header_self]
    rfl
  · rw [View.set_header_of_ne _ hf', headerOf_nodeRangeIter hf', h.field hf']

theorem UpdateLocal.set (v : View) {f : Field} (hf : f ≠ .nodeRangeIterOffset) (x : Int32) :
    UpdateLocal v (v.set f x) :=
  ⟨v.set_header_of_ne hf.symm x, rfl⟩

theorem NodeLocal.set (v : View) (x : Int32) : NodeLocal v (v.set .nodeRangeIterOffset x) :=
  ⟨fun _ hf => v.set_header_of_ne hf x, rfl, rfl, rfl⟩

/-! ## `AppendUpdate` と update の iterator -/

/-- `AppendUpdate` は一杯の時だけ `-1` を返し、その時は何も書かない。 -/
theorem Sim.appendUpdate (h : Sim us cap k v b it) (key : Key) {delta : List UInt8}
    (hd : delta.length = us) :
    ∃ v', FlatBuffer.appendUpdate v.bytes key delta
        = some (if b.updates.length = cap then -1 else 0, v'.bytes) ∧
      (b.updates.length = cap → v' = v) ∧ UpdateLocal v v' ∧
      Sim us cap k v' (specStep us k b (.appendUpdate key delta)) it := by
  by_cases hfull : b.updates.length = cap
  · refine ⟨v, ?_, fun _ => rfl, UpdateLocal.refl v, ?_⟩
    · rw [if_pos hfull, h.appendUpdate_full hfull]
    · have hnone : b.appendUpdate key delta = none := if_pos (hfull.trans h.capacity.symm)
      rw [specStep, hnone]
      exact h
  · have hlt : b.updates.length < cap := lt_of_le_of_ne h.length_updates hfull
    refine ⟨v.append us k b.updates.length key delta, ?_, fun heq => absurd heq hfull, ?_, ?_⟩
    · rw [if_neg hfull, h.appendUpdate_bytes hlt key hd]
    · refine ⟨?_, rfl⟩
      rw [View.append, View.set_header_of_ne _ (by decide), View.set_header_of_ne _ (by decide)]
    · have hsome : b.appendUpdate key delta = some { b with updates := b.updates ++ [(key, delta)] } :=
        if_neg fun heq => hfull (heq.trans h.capacity)
      rw [specStep, hsome]
      exact h.append hlt key hd

/-- `StartIteration`。update が無い時は iterator を戻さないが、その時 iterator は元から先頭にある。 -/
theorem Sim.startIteration (h : Sim us cap k v b it) :
    ∃ r v', FlatBuffer.startIteration v.bytes = some (r, v'.bytes) ∧ UpdateLocal v v' ∧
      Sim us cap k v' (specStep us k b .startIteration) it ∧
      (specStep us k b .startIteration).updateIter = 0 ∧
      (specStep us k b .startIteration).updates = b.updates := by
  have hnum := h.field (f := .numUpdatesOccupied) (by decide)
  have hst := h.field (f := .updateStOffset) (by decide)
  by_cases hzero : b.updates.length = 0
  · have hnone : b.startIteration = none := if_pos hzero
    have hiter := h.iter
    have hnum0 : headerOf us cap k b .numUpdatesOccupied = 0 := congrArg Int32.ofNat hzero
    refine ⟨-1, v, ?_, UpdateLocal.refl v, ?_⟩
    · unfold FlatBuffer.startIteration
      simp only [View.getField, bind, Option.bind_some]
      rw [hnum, if_pos hnum0]
      rfl
    · rw [specStep, hnone]
      exact ⟨h, by rw [Option.getD_none]; omega, rfl⟩
  · have hsome : b.startIteration = some { b with updateIter := 0 } := if_neg hzero
    have hne : ¬headerOf us cap k b .numUpdatesOccupied = 0 := by
      intro heq
      have hlen := h.length_updates
      have hcap := h.cap_lt
      exact hzero ((ofNat_inj (by omega) (by decide)).mp heq)
    refine ⟨0, v.set .updateIterOffset (Int32.ofNat (updateOffset us k 0)), ?_,
      UpdateLocal.set v (by decide) _, ?_⟩
    · unfold FlatBuffer.startIteration
      simp only [View.getField, bind, Option.bind_some]
      rw [hnum, if_neg hne, hst]
      simp only [View.setField, Option.bind_some]
      rfl
    · rw [specStep, hsome]
      exact ⟨h.setUpdateIter (Nat.zero_le _), rfl, rfl⟩

/-- `j` 番目の update は、決まった位置に置かれている。delta だけを変えても前後の byte は変わらない。 -/
theorem Sim.split_update (h : Sim us cap k v b it) {j : Nat} {kv : Key × List UInt8}
    (hj : b.updates[j]? = some kv) :
    ∃ pre post a c, v.updates = pre ++ kv :: post ∧ pre.length = j ∧
      (updateOffset us k j : Int) = a.length ∧
      ∀ d, { v with updates := pre ++ (kv.1, d) :: post }.bytes = a ++ (updateBytes (kv.1, d) ++ c) := by
  rw [h.updates] at hj
  obtain ⟨hlt, heq⟩ := List.getElem?_eq_some_iff.mp hj
  have hsplit : v.updates = v.updates.take j ++ kv :: v.updates.drop (j + 1) := by
    rw [← heq, List.getElem_cons_drop, List.take_append_drop]
  have hlen : (v.updates.take j).length = j := by
    rw [List.length_take]
    omega
  have hoff := update_offset v (v.updates.take j)
    fun x hx => h.deltas x (List.mem_of_mem_take hx)
  rw [hlen, h.slotCount] at hoff
  refine ⟨v.updates.take j, v.updates.drop (j + 1), _,
    (v.updates.drop (j + 1)).flatMap updateBytes ++ v.slack, hsplit, hlen, hoff, fun d => ?_⟩
  exact View.bytes_update (v := { v with updates := _ }) rfl

theorem Sim.loadKey (h : Sim us cap k v b it) {j : Nat} {kv : Key × List UInt8}
    (hj : b.updates[j]? = some kv) : loadInt64 v.bytes (updateOffset us k j) = some kv.1 := by
  obtain ⟨pre, post, a, c, hsplit, -, hoff, hbytes⟩ := h.split_update hj
  have hv : v.bytes = a ++ (int64Bytes kv.1 ++ (kv.2 ++ c)) := by
    rw [← List.append_assoc (int64Bytes kv.1)]
    exact (congrArg (fun l => { v with updates := l }.bytes) hsplit).trans (hbytes kv.2)
  rw [hv]
  exact loadInt64_at _ hoff

theorem deltaOffset_eq {a : List UInt8} {us k j : Nat} (key : Key)
    (h : (updateOffset us k j : Int) = a.length) :
    deltaOffset us k j = (a ++ int64Bytes key).length := by
  rw [List.length_append, length_int64Bytes, Nat.cast_add, ← h]
  rfl

/-- delta のところで切る。 -/
theorem Sim.split_delta (h : Sim us cap k v b it) {j : Nat} {kv : Key × List UInt8}
    (hj : b.updates[j]? = some kv) :
    ∃ pre post a c, v.updates = pre ++ kv :: post ∧ pre.length = j ∧
      deltaOffset us k j = (a : List UInt8).length ∧
      ∀ d, { v with updates := pre ++ (kv.1, d) :: post }.bytes = a ++ (d ++ c) := by
  obtain ⟨pre, post, a, c, hsplit, hlen, hoff, hbytes⟩ := h.split_update hj
  refine ⟨pre, post, a ++ int64Bytes kv.1, c, hsplit, hlen, deltaOffset_eq kv.1 hoff, fun d => ?_⟩
  rw [hbytes d, updateBytes, List.append_assoc, List.append_assoc]

theorem Sim.length_delta (h : Sim us cap k v b it) {j : Nat} {kv : Key × List UInt8}
    (hj : b.updates[j]? = some kv) : kv.2.length = us := by
  rw [h.updates] at hj
  exact h.deltas kv (List.mem_of_getElem? hj)

theorem Sim.loadDelta (h : Sim us cap k v b it) {j : Nat} {kv : Key × List UInt8}
    (hj : b.updates[j]? = some kv) : load v.bytes (deltaOffset us k j) us = some kv.2 := by
  obtain ⟨pre, post, a, c, hsplit, -, hoff, hbytes⟩ := h.split_delta hj
  have hv : v.bytes = a ++ (kv.2 ++ c) :=
    (congrArg (fun l => { v with updates := l }.bytes) hsplit).trans (hbytes kv.2)
  rw [hv]
  exact load_at hoff (h.length_delta hj).symm

/-- `NextUpdate` は iterator の指す update を返し、無ければ `NULL` を返す。 -/
theorem Sim.nextUpdate (h : Sim us cap k v b it) :
    ∃ v', FlatBuffer.nextUpdate v.bytes
        = some ((b.updates[b.updateIter]?).map fun kv => (kv.1, deltaOffset us k b.updateIter),
            v'.bytes) ∧
      UpdateLocal v v' ∧ Sim us cap k v' (specStep us k b .nextUpdate) it := by
  have hiter := h.field (f := .updateIterOffset) (by decide)
  have hend := h.field (f := .updateEndOffset) (by decide)
  have hle : v.header .updateEndOffset ≤ v.header .updateIterOffset ↔
      b.updates.length ≤ b.updateIter := by
    rw [hiter, hend]
    exact (ofNat_le_ofNat (h.updateOffset_lt le_rfl) (h.updateOffset_lt h.iter)).trans
      updateOffset_le_iff
  cases hget : b.updates[b.updateIter]? with
  | none =>
    have hnone : b.nextUpdate = none := by
      rw [UpdateBuffer.nextUpdate, hget]
      rfl
    refine ⟨v, ?_, UpdateLocal.refl v, ?_⟩
    · unfold FlatBuffer.nextUpdate
      simp only [View.getField, bind, Option.bind_some]
      rw [if_pos (hle.mpr (List.getElem?_eq_none_iff.mp hget))]
      rfl
    · rw [specStep, hnone]
      exact h
  | some kv =>
    have hlt : b.updateIter < b.updates.length := (List.getElem?_eq_some_iff.mp hget).1
    have hsome : b.nextUpdate = some (kv, { b with updateIter := b.updateIter + 1 }) := by
      rw [UpdateBuffer.nextUpdate, hget]
      rfl
    have hoff : (v.header .updateIterOffset).toInt = updateOffset us k b.updateIter := by
      rw [hiter]
      exact Int32.toInt_ofNat_of_lt (h.updateOffset_lt h.iter)
    have hadv : advance (v.header .updateIterOffset) (v.header .updateSize)
        = Int32.ofNat (updateOffset us k (b.updateIter + 1)) := by
      rw [hiter, h.field (f := .updateSize) (by decide), updateOffset_succ]
      exact advance_ofNat _ _
    refine ⟨v.set .updateIterOffset (Int32.ofNat (updateOffset us k (b.updateIter + 1))), ?_,
      UpdateLocal.set v (by decide) _, ?_⟩
    · unfold FlatBuffer.nextUpdate
      simp only [View.getField, bind, Option.bind_some]
      rw [if_neg fun hge => absurd (hle.mp hge) (by omega), hoff, h.loadKey hget, hadv]
      simp only [Option.bind_some, View.setField]
      rfl
    · rw [specStep, hsome]
      exact h.setUpdateIter hlt

/-! ## `GetUpdate` と delta への書き込み -/

/-- `GetUpdate` の loop は、残りの update を前から見て最初の一致を返す。 -/
theorem Sim.getUpdateLoop (h : Sim us cap k v b it) (key : Key) (n j : Nat)
    (hn : n + j = b.updates.length) :
    FlatBuffer.getUpdateLoop v.bytes key n (updateOffset us k j)
      = some (((b.updates.drop j).findIdx? fun kv => kv.1 == key).map
          fun i => deltaOffset us k (i + j)) := by
  induction n generalizing j with
  | zero =>
    have hnil : b.updates.drop j = [] := List.drop_eq_nil_of_le (by omega)
    rw [hnil]
    rfl
  | succ n ih =>
    have hlt : j < b.updates.length := by omega
    have hget := List.getElem?_eq_getElem hlt
    have hcons : b.updates.drop j = b.updates[j] :: b.updates.drop (j + 1) :=
      List.drop_eq_getElem_cons hlt
    have hsize : (v.header .updateSize).toInt = us := by
      rw [h.field (f := .updateSize) (by decide)]
      exact Int32.toInt_ofNat_of_lt h.size
    rw [FlatBuffer.getUpdateLoop, h.loadKey hget, hcons, List.findIdx?_cons]
    simp only [bind, Option.bind_some, View.getField]
    by_cases hkey : b.updates[j].1 = key
    · rw [if_pos hkey, beq_iff_eq.mpr hkey, if_pos rfl, Option.map_some, Nat.zero_add]
      rfl
    · have hnext : (updateOffset us k j : Int) + (8 + us) = updateOffset us k (j + 1) := by
        rw [updateOffset_succ]
        rfl
      rw [if_neg hkey, beq_eq_false_iff_ne.mpr hkey, if_neg (by decide), hsize, hnext,
        ih (j + 1) (by omega), Option.map_map]
      congr 2
      funext i
      show deltaOffset us k (i + (j + 1)) = deltaOffset us k (i + 1 + j)
      rw [show i + (j + 1) = i + 1 + j by omega]

theorem Sim.getUpdate (h : Sim us cap k v b it) (key : Key) :
    FlatBuffer.getUpdate v.bytes key
      = some ((b.updates.findIdx? fun kv => kv.1 == key).map (deltaOffset us k)) := by
  have hst : (v.header .updateStOffset).toInt = updateOffset us k 0 := by
    rw [h.field (f := .updateStOffset) (by decide)]
    exact Int32.toInt_ofNat_of_lt (h.updateOffset_lt (Nat.zero_le _))
  have hnum : (v.header .numUpdatesOccupied).toInt.toNat = b.updates.length := by
    have hlen := h.length_updates
    have hcap := h.cap_lt
    rw [h.field (f := .numUpdatesOccupied) (by decide)]
    show (Int32.ofNat b.updates.length).toInt.toNat = _
    rw [Int32.toInt_ofNat_of_lt (by omega), Int.toNat_natCast]
  unfold FlatBuffer.getUpdate
  simp only [View.getField, bind, Option.bind_some]
  rw [hst, hnum, h.getUpdateLoop key _ 0 rfl]
  rfl

theorem slotIndex_deltaOffset (us k j : Nat) : slotIndex us k (deltaOffset us k j) = j := by
  unfold slotIndex deltaOffset updateOffset
  rw [Int.toNat_natCast, show 44 + 20 * k + j * (8 + us) + 8 - (44 + 20 * k + 8) = j * (8 + us) by omega]
  exact Nat.mul_div_cancel _ (by omega)

/-- delta のポインタを通した書き込みは、その delta だけを変える。 -/
theorem Sim.writeDelta (h : Sim us cap k v b it) {j : Nat} (hj : j < b.updates.length)
    {delta : List UInt8} (hd : delta.length = us) :
    ∃ v', store v.bytes (deltaOffset us k j) delta = some v'.bytes ∧ UpdateLocal v v' ∧
      Sim us cap k v' (specStep us k b (.writeDelta (deltaOffset us k j) delta)) it := by
  obtain ⟨kv, hget⟩ : ∃ kv, b.updates[j]? = some kv := ⟨_, List.getElem?_eq_getElem hj⟩
  obtain ⟨pre, post, a, c, hsplit, hlen, hoff, hbytes⟩ := h.split_delta hget
  have hv : v.bytes = a ++ (kv.2 ++ c) :=
    (congrArg (fun l => { v with updates := l }.bytes) hsplit).trans (hbytes kv.2)
  have hspec : b.updates.modify j (fun x => (x.1, delta)) = pre ++ (kv.1, delta) :: post := by
    rw [h.updates, hsplit, ← hlen, List.modify_eq_take_drop, List.take_left, List.drop_left]
    rfl
  have hsame : (b.updates.modify j fun x => (x.1, delta)).length = b.updates.length :=
    List.length_modify _ _ _
  refine ⟨{ v with updates := pre ++ (kv.1, delta) :: post }, ?_, ⟨rfl, rfl⟩, ?_⟩
  · rw [hv, hbytes delta]
    exact store_at hoff (hd.trans (h.length_delta hget).symm)
  · rw [specStep, slotIndex_deltaOffset]
    refine { h with updates := hspec, deltas := ?_, slack := ?_, header := ?_, iter := ?_ }
    · intro x hx
      rcases List.mem_append.mp hx with hx | hx
      · exact h.deltas x (hsplit ▸ List.mem_append_left _ hx)
      · rcases List.mem_cons.mp hx with rfl | hx
        · exact hd
        · exact h.deltas x (hsplit ▸ List.mem_append_right _ (List.mem_cons_of_mem _ hx))
    · show (b.updates.modify j _).length * _ + _ = _
      rw [hsame]
      exact h.slack
    · intro f hf
      rw [h.header f hf]
      cases f with
      | numUpdatesOccupied => exact congrArg Int32.ofNat hsame.symm
      | updateEndOffset => exact congrArg (fun n => Int32.ofNat (updateOffset us k n)) hsame.symm
      | _ => rfl
    · show b.updateIter ≤ (b.updates.modify j _).length
      rw [hsame]
      exact h.iter

/-! ## node range の呼び出し -/

theorem Sim.toInt_nodeRangeSt (h : Sim us cap k v b it) :
    (v.header .nodeRangeStOffset).toInt = ((headerBytes v.header).length : Int) := by
  rw [h.field (f := .nodeRangeStOffset) (by decide), length_headerBytes]
  rfl

theorem Sim.toNat_nodeRangeCapacity (h : Sim us cap k v b it) :
    (v.header .nodeRangeCapacity).toInt.toNat = v.slots.length := by
  have hlt := h.slotOffset_lt le_rfl
  rw [h.field (f := .nodeRangeCapacity) (by decide), h.slotCount]
  show (Int32.ofNat k).toInt.toNat = k
  rw [Int32.toInt_ofNat_of_lt (by omega), Int.toNat_natCast]

theorem Sim.findNode_eq (h : Sim us cap k v b it) (id : Int32) :
    findNode v.bytes id = findSlot v.bytes id v.slots.length (headerBytes v.header).length := by
  unfold findNode
  simp only [View.getField, bind, Option.bind_some]
  rw [h.toInt_nodeRangeSt, h.toNat_nodeRangeCapacity]

/-- slot の列だけを変えた見え方。 -/
theorem Sim.withSlots (h : Sim us cap k v b it) {slots : List RangeSlot}
    (hlen : slots.length = v.slots.length) :
    Sim us cap k { v with slots := slots } { b with slots := slots.map RangeSlot.toSlot } it := by
  refine { h with slots := rfl, slotCount := hlen.trans h.slotCount, header := fun f hf => ?_ }
  rw [h.header f hf]
  cases f <;> rfl

theorem NodeLocal.withSlots (v : View) {slots : List RangeSlot} (hlen : slots.length = v.slots.length) :
    NodeLocal v { v with slots := slots } := ⟨fun _ _ => rfl, hlen, rfl, rfl⟩

theorem length_replace {pre post : List RangeSlot} {s : RangeSlot} (s' : RangeSlot)
    (h : v.slots = pre ++ s :: post) : (pre ++ s' :: post).length = v.slots.length := by
  rw [h, List.length_append, List.length_append, List.length_cons, List.length_cons]

/-- slot 一つの range を書く。 -/
theorem View.store_range {pre post : List RangeSlot} {s : RangeSlot} (h : v.slots = pre ++ s :: post)
    (st end_ : Int64) :
    ((storeInt64 v.bytes (((headerBytes v.header).length + 20 * pre.length : Nat) + 4) st).bind
        fun m => storeInt64 m (((headerBytes v.header).length + 20 * pre.length : Nat) + 4 + 8) end_)
      = some { v with slots := pre ++ { s with st := st, end_ := end_ } :: post }.bytes := by
  have hoff := slot_offset v.header pre
  rw [length_headerBytes, View.bytes_slot h, storeInt64_slot_st s st hoff, Option.bind_some,
    storeInt64_slot_end _ end_ hoff]
  exact congrArg some (View.bytes_slot (v := { v with slots := _ }) rfl).symm

theorem View.store_id {pre post : List RangeSlot} {s : RangeSlot} (h : v.slots = pre ++ s :: post)
    (id : Int32) :
    storeInt32 v.bytes ((headerBytes v.header).length + 20 * pre.length : Nat) id
      = some { v with slots := pre ++ { s with nodeId := id } :: post }.bytes := by
  rw [length_headerBytes, View.bytes_slot h, storeInt32_slot s id (slot_offset v.header pre)]
  exact congrArg some (View.bytes_slot (v := { v with slots := _ }) rfl).symm

/-- 探した id の slot があるか、どの slot もその id でない。 -/
theorem Sim.findNode_cases (h : Sim us cap k v b it) (id : Int32) :
    ((∀ s ∈ v.slots, s.nodeId ≠ id) ∧ findNode v.bytes id = some none) ∨
    ∃ pre s post, v.slots = pre ++ s :: post ∧ s.nodeId = id ∧ (∀ x ∈ pre, x.nodeId ≠ id) ∧
      findNode v.bytes id
        = some (some (((headerBytes v.header).length + 20 * pre.length : Nat) : Int)) := by
  rw [h.findNode_eq id]
  exact findSlot_cases id v.slots (headerBytes v.header) _

theorem nodeId_beq_false {x : RangeSlot} {id : Int32} (h : x.nodeId ≠ id) :
    (x.toSlot.nodeId == id.toInt) = false :=
  beq_eq_false_iff_ne.mpr fun heq => h (Int32.toInt.inj heq)

theorem nodeId_beq_true {x : RangeSlot} {id : Int32} (h : x.nodeId = id) :
    (x.toSlot.nodeId == id.toInt) = true :=
  beq_iff_eq.mpr (congrArg Int32.toInt h)

/-- 列のモデルで最初の一致を書き換えることは、byte 列の slot を書き換えることに当たる。 -/
theorem modifyFirst_slots {pre post : List RangeSlot} {s : RangeSlot} (s' : RangeSlot) (id : Int32)
    {f : Slot → Slot} (hs : s.nodeId = id) (hpre : ∀ x ∈ pre, x.nodeId ≠ id)
    (hf : f s.toSlot = s'.toSlot) :
    modifyFirst (fun x => x.nodeId == id.toInt) f ((pre ++ s :: post).map RangeSlot.toSlot)
      = some ((pre ++ s' :: post).map RangeSlot.toSlot) := by
  have hpre' : ∀ x ∈ pre.map RangeSlot.toSlot, (x.nodeId == id.toInt) = false := by
    intro x hx
    obtain ⟨y, hy, rfl⟩ := List.mem_map.mp hx
    exact nodeId_beq_false (hpre y hy)
  rw [List.map_append, List.map_cons, UpdateBuffer.modifyFirst_append hpre' (nodeId_beq_true hs), hf,
    List.map_append, List.map_cons]

theorem modifyFirst_slots_none {slots : List RangeSlot} (id : Int32) {f : Slot → Slot}
    (h : ∀ x ∈ slots, x.nodeId ≠ id) :
    modifyFirst (fun x => x.nodeId == id.toInt) f (slots.map RangeSlot.toSlot) = none := by
  refine UpdateBuffer.modifyFirst_none fun x hx => ?_
  obtain ⟨y, hy, rfl⟩ := List.mem_map.mp hx
  exact nodeId_beq_false (h y hy)

/-- `UpdateNodeRange` は、列のモデルと同じ slot に書き、同じ値を返す。 -/
theorem Sim.updateNodeRange (h : Sim us cap k v b it) (id : Int32) (st end_ : Int64) :
    ∃ v', FlatBuffer.updateNodeRange v.bytes id st end_
        = some (if b.returnsZero (.update id.toInt st.toInt end_.toInt) then 0 else -1, v'.bytes) ∧
      NodeLocal v v' ∧ Sim us cap k v' (specStep us k b (.updateNodeRange id st end_)) it := by
  unfold FlatBuffer.updateNodeRange
  rcases h.findNode_cases id with ⟨hnone, hfind⟩ | ⟨pre, s, post, hsplit, hs, hpre, hfind⟩
  · rcases h.findNode_cases (-1) with ⟨hfull, hfind'⟩ | ⟨pre, s, post, hsplit, hs, hpre, hfind'⟩
    · -- どちらの loop でも見つからず、何も書かない
      have hspec : b.updateNodeRange id.toInt st.toInt end_.toInt = none := by
        unfold UpdateBuffer.updateNodeRange
        rw [h.slots, modifyFirst_slots_none id hnone]
        exact congrArg (Option.map _) (modifyFirst_slots_none (-1) hfull)
      refine ⟨v, ?_, NodeLocal.refl v, ?_⟩
      · rw [hfind]
        simp only [bind, Option.bind_some]
        rw [hfind', UpdateBuffer.returnsZero, hspec]
        rfl
      · rw [specStep, UpdateBuffer.applyOp, hspec]
        exact h
    · have hspec : b.updateNodeRange id.toInt st.toInt end_.toInt = some { b with
          slots := (pre ++ { nodeId := id, st := st, end_ := end_ } :: post).map RangeSlot.toSlot } := by
        unfold UpdateBuffer.updateNodeRange
        rw [h.slots, modifyFirst_slots_none id hnone]
        show Option.map _ _ = _
        rw [hsplit]
        exact congrArg (Option.map _)
          (modifyFirst_slots { nodeId := id, st := st, end_ := end_ } (-1) hs hpre rfl)
      have hlen := length_replace { nodeId := id, st := st, end_ := end_ } hsplit
      refine ⟨_, ?_, NodeLocal.withSlots v hlen, ?_⟩
      · rw [hfind]
        simp only [bind, Option.bind_some]
        rw [hfind']
        simp only [Option.bind_some]
        rw [View.store_id hsplit]
        simp only [Option.bind_some]
        have hstore := View.store_range (v := { v with slots := pre ++ { s with nodeId := id } :: post })
          rfl st end_
        rw [← Option.bind_assoc, hstore, UpdateBuffer.returnsZero, hspec]
        rfl
      · rw [specStep, UpdateBuffer.applyOp, hspec]
        exact h.withSlots hlen
  · have hspec : b.updateNodeRange id.toInt st.toInt end_.toInt = some { b with
        slots := (pre ++ { s with st := st, end_ := end_ } :: post).map RangeSlot.toSlot } := by
      unfold UpdateBuffer.updateNodeRange
      rw [h.slots, hsplit, modifyFirst_slots { s with st := st, end_ := end_ } id hs hpre rfl]
    have hlen := length_replace { s with st := st, end_ := end_ } hsplit
    refine ⟨_, ?_, NodeLocal.withSlots v hlen, ?_⟩
    · rw [hfind]
      simp only [bind, Option.bind_some]
      rw [← Option.bind_assoc, View.store_range hsplit st end_, UpdateBuffer.returnsZero, hspec]
      rfl
    · rw [specStep, UpdateBuffer.applyOp, hspec]
      exact h.withSlots hlen

theorem Sim.deleteNodeRange (h : Sim us cap k v b it) (id : Int32) :
    ∃ v', FlatBuffer.deleteNodeRange v.bytes id
        = some (if b.returnsZero (.delete id.toInt) then 0 else -1, v'.bytes) ∧
      NodeLocal v v' ∧ Sim us cap k v' (specStep us k b (.deleteNodeRange id)) it := by
  have hloop : FlatBuffer.deleteNodeRange v.bytes id
      = deleteLoop v.bytes id v.slots.length (headerBytes v.header).length := by
    unfold FlatBuffer.deleteNodeRange
    simp only [View.getField, bind, Option.bind_some]
    rw [h.toInt_nodeRangeSt, h.toNat_nodeRangeCapacity]
  rw [hloop]
  rcases deleteLoop_cases id v.slots (headerBytes v.header) (v.updates.flatMap updateBytes ++ v.slack)
    with ⟨hnone, heq⟩ | ⟨slots', hlen, hsome, heq⟩
  · have hspec : b.deleteNodeRange id.toInt = none := by
      rw [UpdateBuffer.deleteNodeRange, h.slots, hnone]
      rfl
    refine ⟨v, ?_, NodeLocal.refl v, ?_⟩
    · rw [UpdateBuffer.returnsZero, hspec]
      exact heq
    · rw [specStep, UpdateBuffer.applyOp, hspec]
      exact h
  · have hspec : b.deleteNodeRange id.toInt
        = some { b with slots := slots'.map RangeSlot.toSlot } := by
      rw [UpdateBuffer.deleteNodeRange, h.slots, hsome]
      rfl
    refine ⟨{ v with slots := slots' }, ?_, NodeLocal.withSlots v hlen, ?_⟩
    · rw [UpdateBuffer.returnsZero, hspec]
      exact heq
    · rw [specStep, UpdateBuffer.applyOp, hspec]
      exact h.withSlots hlen

/-- slot の range を列のモデルの range にする。 -/
def toRange (r : Int64 × Int64) : UpdateRange := { st := r.1.toInt, end_ := r.2.toInt }

theorem Sim.getNodeRange (h : Sim us cap k v b it) (id : Int32) :
    ∃ r, FlatBuffer.getNodeRange v.bytes id = some r ∧ b.getNodeRange id.toInt = r.map toRange := by
  unfold FlatBuffer.getNodeRange
  rcases h.findNode_cases id with ⟨hnone, hfind⟩ | ⟨pre, s, post, hsplit, rfl, hpre, hfind⟩
  · refine ⟨none, ?_, UpdateBuffer.getNodeRange_eq_none_iff.mpr fun x hx => ?_⟩
    · rw [hfind]
      rfl
    · rw [h.slots] at hx
      obtain ⟨y, hy, rfl⟩ := List.mem_map.mp hx
      exact fun heq => hnone y hy (Int32.toInt.inj heq)
  · refine ⟨some (s.st, s.end_), ?_, ?_⟩
    · have hoff := slot_offset v.header pre
      rw [hfind, length_headerBytes]
      simp only [bind, Option.bind_some]
      rw [View.bytes_slot hsplit, loadInt64_slot_st s hoff, Option.bind_some,
        loadInt64_slot_end s hoff]
      rfl
    · have hslots : b.slots = pre.map RangeSlot.toSlot ++ s.toSlot :: post.map RangeSlot.toSlot := by
        rw [h.slots, hsplit, List.map_append, List.map_cons]
      refine UpdateBuffer.getNodeRange_append_cons hslots fun x hx => ?_
      obtain ⟨y, hy, rfl⟩ := List.mem_map.mp hx
      exact fun heq => hpre y hy (Int32.toInt.inj heq)

/-! ## node range の iterator -/

theorem Sim.startNodeRangeIteration (h : Sim us cap k v b it) :
    ∃ v', FlatBuffer.startNodeRangeIteration v.bytes = some v'.bytes ∧ NodeLocal v v' ∧
      Sim us cap k v' (specStep us k b .startNodeRangeIteration) true := by
  refine ⟨v.set .nodeRangeIterOffset (Int32.ofNat (44 + 20 * 0)), ?_, NodeLocal.set v _,
    h.setNodeRangeIter (Nat.zero_le _)⟩
  unfold FlatBuffer.startNodeRangeIteration
  simp only [View.getField, bind, Option.bind_some]
  rw [h.field (f := .nodeRangeStOffset) (by decide), View.setField]
  rfl

/-- `i` 番目の slot のところで切る。 -/
theorem Sim.split_slot (h : Sim us cap k v b it) {i : Nat} (hi : i < k) :
    ∃ pre s post, v.slots = pre ++ s :: post ∧ pre.length = i ∧ b.slots[i]? = some s.toSlot := by
  have hlt : i < v.slots.length := by
    rw [h.slotCount]
    exact hi
  refine ⟨v.slots.take i, v.slots[i], v.slots.drop (i + 1), ?_, ?_, ?_⟩
  · rw [List.getElem_cons_drop, List.take_append_drop]
  · rw [List.length_take]
    omega
  · rw [h.slots, List.getElem?_map, List.getElem?_eq_getElem hlt]
    rfl

/-- 列のモデルの `NextNodeRange` が見るのは、iterator の指す slot である。 -/
theorem nextNodeRange_at {s : Slot} (hget : b.slots[b.nodeRangeIter]? = some s) :
    b.nextNodeRange = if s.nodeId < 0 then none
      else some ((s.nodeId, s.range), { b with nodeRangeIter := b.nodeRangeIter + 1 }) := by
  have hlt : b.nodeRangeIter < b.slots.length := (List.getElem?_eq_some_iff.mp hget).1
  unfold UpdateBuffer.nextNodeRange
  rw [if_neg (by omega)]
  dsimp only
  rw [UpdateBuffer.skipFree_eq hlt, hget]

/-- 領域の中では、`NextNodeRange` の while loop は一度も回らない。 -/
theorem skipFree_eq {id : Int32} (hlt : ¬v.header .updateStOffset ≤ v.header .nodeRangeIterOffset)
    (hload : loadInt32 v.bytes (v.header .nodeRangeIterOffset).toInt = some id) (fuel : Nat) :
    skipFree (fuel + 1) v.bytes = some v.bytes := by
  unfold skipFree
  simp only [View.getField, bind, Option.bind_some]
  rw [hload]
  simp only [Option.bind_some]
  rw [if_neg fun hc => hlt hc.2]
  rfl

/-- `NextNodeRange` は、列のモデルと同じ range を返す。 -/
theorem Sim.nextNodeRange (h : Sim us cap k v b true) :
    ∃ r v', FlatBuffer.nextNodeRange v.bytes = some (r, v'.bytes) ∧
      b.nextNodeRange.map Prod.fst = r.map (fun x => (x.1.toInt, toRange x.2)) ∧
      NodeLocal v v' ∧ Sim us cap k v' (specStep us k b .nextNodeRange) true := by
  have hiter : v.header .nodeRangeIterOffset = Int32.ofNat (44 + 20 * b.nodeRangeIter) :=
    h.header .nodeRangeIterOffset fun _ => rfl
  have hst : v.header .updateStOffset = Int32.ofNat (44 + 20 * k) := by
    rw [h.field (f := .updateStOffset) (by decide), headerOf, updateOffset, Nat.zero_mul]
    rfl
  have hcount : b.slots.length = k := by rw [h.slots, List.length_map, h.slotCount]
  have hle : v.header .updateStOffset ≤ v.header .nodeRangeIterOffset ↔ k ≤ b.nodeRangeIter := by
    rw [hiter, hst, ofNat_le_ofNat (h.slotOffset_lt le_rfl) (h.slotOffset_lt h.rangeIter)]
    omega
  unfold FlatBuffer.nextNodeRange
  simp only [View.getField, bind, Option.bind_some]
  by_cases hend : k ≤ b.nodeRangeIter
  · have hspec : b.nextNodeRange = none := if_pos (hcount ▸ hend)
    refine ⟨none, v, ?_, ?_, NodeLocal.refl v, ?_⟩
    · rw [if_pos (hle.mpr hend)]
      rfl
    · rw [hspec]
      rfl
    · rw [specStep, hspec]
      exact h
  · -- iterator は領域の中の slot を指している
    obtain ⟨pre, s, post, hsplit, hlen, hget⟩ := h.split_slot (not_le.mp hend)
    have hoff : (v.header .nodeRangeIterOffset).toInt
        = (headerBytes v.header ++ pre.flatMap RangeSlot.bytes).length := by
      rw [hiter, Int32.toInt_ofNat_of_lt (h.slotOffset_lt h.rangeIter), ← hlen, slot_offset]
    have hload : loadInt32 v.bytes (v.header .nodeRangeIterOffset).toInt = some s.nodeId := by
      rw [View.bytes_slot hsplit]
      exact loadInt32_slot s hoff
    have hnext := nextNodeRange_at hget
    rw [if_neg fun hc => hend (hle.mp hc), skipFree_eq (fun hc => hend (hle.mp hc)) hload]
    simp only [Option.bind_some, View.getField]
    rw [hload]
    simp only [Option.bind_some]
    by_cases hneg : s.nodeId < 0
    · have hspec : b.nextNodeRange = none := hnext.trans (if_pos (toInt_neg_iff.mp hneg))
      refine ⟨none, v, ?_, ?_, NodeLocal.refl v, ?_⟩
      · rw [if_pos hneg]
        rfl
      · rw [hspec]
        rfl
      · rw [specStep, hspec]
        exact h
    · have hneg' : ¬s.toSlot.nodeId < 0 := fun hc => hneg (toInt_neg_iff.mpr hc)
      have hspec := hnext.trans (if_neg hneg')
      have hadv : ofSize (toSize (v.header .nodeRangeIterOffset) + 20)
          = Int32.ofNat (44 + 20 * (b.nodeRangeIter + 1)) := by
        rw [ofSize_add, ofSize_toSize, hiter, Nat.mul_succ, ← Nat.add_assoc, ofNat_add _ 20]
        rfl
      refine ⟨some (s.nodeId, s.st, s.end_),
        v.set .nodeRangeIterOffset (Int32.ofNat (44 + 20 * (b.nodeRangeIter + 1))), ?_, ?_,
        NodeLocal.set v _, ?_⟩
      · rw [if_neg hneg, hadv, View.setField, View.bytes_slot hsplit, loadInt64_slot_st s hoff,
          Option.bind_some, loadInt64_slot_end s hoff]
        rfl
      · rw [hspec]
        rfl
      · rw [specStep, hspec]
        exact h.setNodeRangeIter (by omega)

/-! ## 生成 -/

theorem allocateBufferMemory_eq {n : Nat} (hn : n < 2 ^ 31) (fresh : Nat → UInt8) :
    allocateBufferMemory (Int32.ofNat n) fresh = some ((List.range n).map fresh) := by
  have hint : (Int32.ofNat n).toInt = n := Int32.toInt_ofNat_of_lt hn
  unfold allocateBufferMemory
  rw [if_neg, hint, Int.toNat_natCast]
  rw [toInt_neg_iff, hint]
  omega

/-- header を書いた後の見え方。 -/
def View.init (v : View) (us cap k : Nat) : View :=
  ((((((v.set .buffSize (Int32.ofNat (layoutSize us cap k))).set .updateSize (Int32.ofNat us)).set
    .updateCapacity (Int32.ofNat cap)).set .nodeRangeCapacity (Int32.ofNat k)).set
    .numUpdatesOccupied 0).set .nodeRangeStOffset (Int32.ofNat 44)).set .numNodes 0

/-- offset も書き終えた見え方。 -/
def View.fresh (v : View) (us cap k : Nat) : View :=
  (({ v.init us cap k with slots := List.replicate k freeSlot }.set .updateStOffset
    (Int32.ofNat (44 + 20 * k))).set .updateEndOffset (Int32.ofNat (44 + 20 * k))).set
    .updateIterOffset (Int32.ofNat (44 + 20 * k))

theorem View.fresh_header (v : View) (us cap k : Nat) {f : Field} (hf : f ≠ .nodeRangeIterOffset) :
    (v.fresh us cap k).header f
      = headerOf us cap k (UpdateBuffer.createUpdateBuffer cap k) f := by
  have hoff : 44 + 20 * k = updateOffset us k 0 := by rw [updateOffset, Nat.zero_mul, Nat.add_zero]
  unfold View.fresh View.init
  rw [hoff]
  cases f with
  | nodeRangeIterOffset => exact absurd rfl hf
  | _ => rfl

/-- `CreateUpdateBuffer` の直後の byte 列は、空の buffer を表す。 -/
theorem createUpdateBuffer_sim (hfit : layoutSize us cap k < 2 ^ 31) (hus : us < 2 ^ 31)
    (fresh : Nat → UInt8) :
    ∃ v, createUpdateBuffer (Int32.ofNat us) (Int32.ofNat cap) (Int32.ofNat k) fresh = some v.bytes ∧
      Sim us cap k v (UpdateBuffer.createUpdateBuffer cap k) false := by
  have hm : ((List.range (layoutSize us cap k)).map fresh).length = layoutSize us cap k := by
    rw [List.length_map, List.length_range]
  obtain ⟨v, hv, hslots, hupd, hslack⟩ := exists_view hm
  have hk : k < 2 ^ 31 := by
    unfold layoutSize at hfit
    omega
  have hnat : (Int32.ofNat k).toInt.toNat = k := by
    rw [Int32.toInt_ofNat_of_lt hk, Int.toNat_natCast]
  refine ⟨v.fresh us cap k, ?_, ?_⟩
  · have hhead : initHeader v.bytes (Int32.ofNat (layoutSize us cap k)) (Int32.ofNat us)
        (Int32.ofNat cap) (Int32.ofNat k) = some (v.init us cap k).bytes := by
      unfold initHeader
      simp only [View.setField, bind, Option.bind_some]
      rfl
    have hst : ((v.init us cap k).header .nodeRangeStOffset).toInt
        = ((headerBytes (v.init us cap k).header).length : Int) := by
      rw [length_headerBytes]
      rfl
    have hcap : (v.init us cap k).header .nodeRangeCapacity = Int32.ofNat k := rfl
    have hranges := initNodeRanges_bytes (v.init us cap k).slots
      (headerBytes (v.init us cap k).header) (v.updates.flatMap updateBytes ++ v.slack)
    rw [show (v.init us cap k).slots.length = k from hslots] at hranges
    have hbody : initBody (v.init us cap k).bytes = some (v.fresh us cap k).bytes := by
      unfold initBody
      simp only [View.getField, bind, Option.bind_some]
      rw [hst, hcap, hnat, updateStOffset_ofNat]
      refine (congrArg (Option.bind · _) hranges).trans ?_
      show Option.bind (setField { v.init us cap k with slots := List.replicate k freeSlot }.bytes _ _) _ = _
      simp only [View.setField, Option.bind_some]
      rfl
    unfold createUpdateBuffer
    simp only [bind]
    rw [getBuffSize_ofNat, allocateBufferMemory_eq hfit, Option.bind_some, ← hv, hhead,
      Option.bind_some, hbody]
  · constructor
    case fit => exact hfit
    case size => exact hus
    case slots =>
      show List.replicate k Slot.free = (List.replicate k freeSlot).map RangeSlot.toSlot
      rw [List.map_replicate]
      rfl
    case slotCount => exact List.length_replicate
    case updates => exact hupd.symm
    case capacity => rfl
    case deltas =>
      show ∀ kv ∈ v.updates, _
      rw [hupd]
      rintro _ ⟨⟩
    case slack =>
      show 0 * (8 + us) + v.slack.length = _
      rw [Nat.zero_mul, Nat.zero_add, hslack]
    case header => exact fun f hf => v.fresh_header us cap k fun heq => Bool.false_ne_true (hf heq)
    case iter => exact Nat.zero_le _
    case rangeIter => exact Nat.zero_le _

end Sim

end QuiltDB.FlatBuffer
