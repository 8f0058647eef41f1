import Mathlib

/-!
# byte 列への読み書き

一つながりの byte 列を、先頭からの位置で読み書きする。範囲の外を触る読み書きは `none` になる
ので、`none` にならずに終わった計算は範囲の中だけを触っている。

整数は little endian の 2 の補数で置く。
-/

namespace Bytes

/-- `off` から `n` byte を読む。 -/
def load (m : List UInt8) (off : Int) (n : Nat) : Option (List UInt8) :=
  if 0 ≤ off ∧ off + n ≤ m.length then some ((m.drop off.toNat).take n) else none

/-- `off` から `bs` を書く。 -/
def store (m : List UInt8) (off : Int) (bs : List UInt8) : Option (List UInt8) :=
  if 0 ≤ off ∧ off + bs.length ≤ m.length then
    some (m.take off.toNat ++ (bs ++ m.drop (off.toNat + bs.length)))
  else none

/-! ## 位置と切れ目 -/

theorem load_at {a b c : List UInt8} {off : Int} {n : Nat} (hoff : off = a.length)
    (hn : n = b.length) : load (a ++ (b ++ c)) off n = some b := by
  subst hoff hn
  unfold load
  rw [if_pos (by simp only [List.length_append]; omega), Int.toNat_natCast, List.drop_left,
    List.take_left]

theorem store_at {a b c bs : List UInt8} {off : Int} (hoff : off = a.length)
    (hlen : bs.length = b.length) : store (a ++ (b ++ c)) off bs = some (a ++ (bs ++ c)) := by
  subst hoff
  unfold store
  rw [if_pos (by simp only [List.length_append]; omega), Int.toNat_natCast, List.take_left, hlen,
    ← List.drop_drop, List.drop_left, List.drop_left]

/-- 読める所の前の方も読める。 -/
theorem load_of_le {m bs : List UInt8} {off : Int} {k n : Nat} (hk : k ≤ n)
    (h : load m off n = some bs) : load m off k = some (bs.take k) := by
  unfold load at h ⊢
  split at h
  · next hb =>
    cases h
    rw [if_pos (by omega), List.take_take, Nat.min_eq_left hk]
  · cases h

/-! ## 整数 -/

/-- 下の桁から `n` byte。 -/
def toLE : Nat → Nat → List UInt8
  | 0, _ => []
  | n + 1, v => UInt8.ofNat v :: toLE n (v / 256)

def ofLE : List UInt8 → Nat
  | [] => 0
  | b :: bs => b.toNat + 256 * ofLE bs

@[simp] theorem length_toLE (n v : Nat) : (toLE n v).length = n := by
  induction n generalizing v with
  | zero => rfl
  | succ n ih => rw [toLE, List.length_cons, ih]

/-- 書いた数は、桁に収まる分だけ読み戻せる。 -/
theorem ofLE_toLE (n v : Nat) : ofLE (toLE n v) = v % 256 ^ n := by
  induction n generalizing v with
  | zero => rw [pow_zero, Nat.mod_one]; rfl
  | succ n ih =>
    have hmod : v % 256 ^ (n + 1) = v % 256 + 256 * (v / 256 % 256 ^ n) := by
      rw [pow_succ', Nat.mod_mul]
    rw [toLE, ofLE, ih, UInt8.toNat_ofNat', hmod]

/-- どの byte 列も、読んだ数を書き戻したものである。 -/
theorem toLE_ofLE (bs : List UInt8) : toLE bs.length (ofLE bs) = bs := by
  induction bs with
  | nil => rfl
  | cons b bs ih =>
    have hlt : b.toNat < 256 := b.toNat_lt
    have hdiv : (b.toNat + 256 * ofLE bs) / 256 = ofLE bs := by omega
    have hmod : UInt8.ofNat (b.toNat + 256 * ofLE bs) = b := by
      apply UInt8.toNat.inj
      rw [UInt8.toNat_ofNat']
      omega
    rw [List.length_cons, ofLE, toLE, hdiv, ih, hmod]

/-- `int32_t` を置いた byte 列。 -/
def int32Bytes (v : Int32) : List UInt8 := toLE 4 v.toBitVec.toNat

/-- `int64_t` を置いた byte 列。 -/
def int64Bytes (v : Int64) : List UInt8 := toLE 8 v.toBitVec.toNat

@[simp] theorem length_int32Bytes (v : Int32) : (int32Bytes v).length = 4 := length_toLE _ _

@[simp] theorem length_int64Bytes (v : Int64) : (int64Bytes v).length = 8 := length_toLE _ _

def loadInt32 (m : List UInt8) (off : Int) : Option Int32 :=
  (load m off 4).map fun bs => Int32.ofBitVec (BitVec.ofNat 32 (ofLE bs))

def loadInt64 (m : List UInt8) (off : Int) : Option Int64 :=
  (load m off 8).map fun bs => Int64.ofBitVec (BitVec.ofNat 64 (ofLE bs))

def storeInt32 (m : List UInt8) (off : Int) (v : Int32) : Option (List UInt8) :=
  store m off (int32Bytes v)

def storeInt64 (m : List UInt8) (off : Int) (v : Int64) : Option (List UInt8) :=
  store m off (int64Bytes v)

theorem ofBitVec_int32Bytes (v : Int32) :
    Int32.ofBitVec (BitVec.ofNat 32 (ofLE (int32Bytes v))) = v := by
  have hlt : v.toBitVec.toNat < 256 ^ 4 := v.toBitVec.isLt
  rw [int32Bytes, ofLE_toLE, Nat.mod_eq_of_lt hlt, BitVec.ofNat_toNat, BitVec.setWidth_eq]
  rfl

theorem ofBitVec_int64Bytes (v : Int64) :
    Int64.ofBitVec (BitVec.ofNat 64 (ofLE (int64Bytes v))) = v := by
  have hlt : v.toBitVec.toNat < 256 ^ 8 := v.toBitVec.isLt
  rw [int64Bytes, ofLE_toLE, Nat.mod_eq_of_lt hlt, BitVec.ofNat_toNat, BitVec.setWidth_eq]
  rfl

theorem exists_int32Bytes {bs : List UInt8} (h : bs.length = 4) : ∃ v, bs = int32Bytes v := by
  refine ⟨Int32.ofBitVec (BitVec.ofNat 32 (ofLE bs)), ?_⟩
  have hlt : ofLE bs < 2 ^ 32 := by
    rw [← toLE_ofLE bs, ofLE_toLE, h]
    exact Nat.mod_lt _ (by decide)
  have hto : (Int32.ofBitVec (BitVec.ofNat 32 (ofLE bs))).toBitVec.toNat = ofLE bs :=
    Nat.mod_eq_of_lt hlt
  rw [int32Bytes, hto, ← h, toLE_ofLE]

theorem exists_int64Bytes {bs : List UInt8} (h : bs.length = 8) : ∃ v, bs = int64Bytes v := by
  refine ⟨Int64.ofBitVec (BitVec.ofNat 64 (ofLE bs)), ?_⟩
  have hlt : ofLE bs < 2 ^ 64 := by
    rw [← toLE_ofLE bs, ofLE_toLE, h]
    exact Nat.mod_lt _ (by decide)
  have hto : (Int64.ofBitVec (BitVec.ofNat 64 (ofLE bs))).toBitVec.toNat = ofLE bs :=
    Nat.mod_eq_of_lt hlt
  rw [int64Bytes, hto, ← h, toLE_ofLE]

theorem loadInt32_at {a c : List UInt8} {off : Int} (v : Int32) (hoff : off = a.length) :
    loadInt32 (a ++ (int32Bytes v ++ c)) off = some v := by
  rw [loadInt32, load_at hoff (length_int32Bytes v).symm, Option.map_some, ofBitVec_int32Bytes]

theorem loadInt64_at {a c : List UInt8} {off : Int} (v : Int64) (hoff : off = a.length) :
    loadInt64 (a ++ (int64Bytes v ++ c)) off = some v := by
  rw [loadInt64, load_at hoff (length_int64Bytes v).symm, Option.map_some, ofBitVec_int64Bytes]

theorem storeInt32_at {a b c : List UInt8} {off : Int} (v : Int32) (hoff : off = a.length)
    (hb : b.length = 4) :
    storeInt32 (a ++ (b ++ c)) off v = some (a ++ (int32Bytes v ++ c)) :=
  store_at hoff ((length_int32Bytes v).trans hb.symm)

theorem storeInt64_at {a b c : List UInt8} {off : Int} (v : Int64) (hoff : off = a.length)
    (hb : b.length = 8) :
    storeInt64 (a ++ (b ++ c)) off v = some (a ++ (int64Bytes v ++ c)) :=
  store_at hoff ((length_int64Bytes v).trans hb.symm)

/-! ## 同じ幅の並び -/

variable {α : Type} {enc : α → List UInt8} {w : Nat}

theorem length_flatMap_width {xs : List α} (h : ∀ x ∈ xs, (enc x).length = w) :
    (xs.flatMap enc).length = xs.length * w := by
  induction xs with
  | nil => exact (Nat.zero_mul w).symm
  | cons x xs ih =>
    rw [List.flatMap_cons, List.length_append, h x List.mem_cons_self,
      ih fun y hy => h y (List.mem_cons_of_mem _ hy), List.length_cons, Nat.succ_mul, Nat.add_comm]

/-- 幅 `w` の切れ端がどれも何かを置いたものなら、全体も何かを並べたものである。 -/
theorem exists_flatMap (henc : ∀ bs : List UInt8, bs.length = w → ∃ x, bs = enc x) (n : Nat)
    {m : List UInt8} (hm : m.length = n * w) : ∃ xs : List α, xs.length = n ∧ m = xs.flatMap enc := by
  induction n generalizing m with
  | zero =>
    rw [Nat.zero_mul, List.length_eq_zero_iff] at hm
    exact ⟨[], rfl, hm⟩
  | succ n ih =>
    rw [Nat.succ_mul] at hm
    obtain ⟨x, hx⟩ := henc (m.take w) (by rw [List.length_take]; omega)
    obtain ⟨xs, hlen, hxs⟩ := ih (m := m.drop w) (by rw [List.length_drop]; omega)
    refine ⟨x :: xs, congrArg (· + 1) hlen, ?_⟩
    rw [List.flatMap_cons, ← hx, ← hxs, List.take_append_drop]

/-! ## 負でない `int32_t` -/

theorem ofNat_add (a b : Nat) : Int32.ofNat (a + b) = Int32.ofNat a + Int32.ofNat b := by
  apply Int32.toBitVec.inj
  rw [Int32.toBitVec_add]
  exact BitVec.ofNat_add ..

theorem ofNat_le_ofNat {a b : Nat} (ha : a < 2 ^ 31) (hb : b < 2 ^ 31) :
    Int32.ofNat a ≤ Int32.ofNat b ↔ a ≤ b := by
  rw [Int32.le_iff_toInt_le, Int32.toInt_ofNat_of_lt ha, Int32.toInt_ofNat_of_lt hb]
  exact Int.ofNat_le

theorem ofNat_inj {a b : Nat} (ha : a < 2 ^ 31) (hb : b < 2 ^ 31) :
    Int32.ofNat a = Int32.ofNat b ↔ a = b := by
  rw [← Int32.toInt_inj, Int32.toInt_ofNat_of_lt ha, Int32.toInt_ofNat_of_lt hb]
  exact Int.ofNat_inj

end Bytes
