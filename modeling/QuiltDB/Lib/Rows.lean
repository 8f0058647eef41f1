import Mathlib

/-!
# 一列に並べた行

行ごとの列を一つの列に続けて置き、切れ目の位置を別に持つ形の補題。

`row l lo hi` が `lo` から `hi` までの行で、切れ目が増えていけば、行を順に繋いだものが元の列に
なる。`filterMap` は行ごとに掛けても全体に掛けても同じである。
-/

namespace Rows

variable {α β : Type}

/-- 途中まで減らない列は、そこまで単調である。 -/
theorem le_of_steps {c : Nat → Nat} {n : Nat} (h : ∀ i < n, c i ≤ c (i + 1)) {i j : Nat} (hij : i ≤ j)
    (hj : j ≤ n) : c i ≤ c j := by
  induction j, hij using Nat.le_induction with
  | base => exact Nat.le_refl _
  | succ j _ ih => exact (ih (by omega)).trans (h j (by omega))

/-- `lo` 番目から `hi` 番目の手前まで。 -/
def row (l : List α) (lo hi : Nat) : List α := (l.take hi).drop lo

theorem take_eq_append_row (l : List α) {lo hi : Nat} (h : lo ≤ hi) :
    l.take hi = l.take lo ++ row l lo hi := by
  have htake : (l.take hi).take lo = l.take lo := by rw [List.take_take, Nat.min_eq_left h]
  rw [row, ← htake, List.take_append_drop]

theorem length_row (l : List α) {lo hi : Nat} (h : hi ≤ l.length) : (row l lo hi).length = hi - lo := by
  rw [row, List.length_drop, List.length_take, Nat.min_eq_left h]

theorem row_zero (l : List α) (hi : Nat) : row l 0 hi = l.take hi := rfl

theorem row_self (l : List α) (lo : Nat) : row l lo lo = [] :=
  List.drop_eq_nil_of_le (List.length_take_le _ _)

/-- 続いた二つの行。 -/
theorem row_append (l : List α) {a b c : Nat} (hab : a ≤ b) (hbc : b ≤ c) (hb : b ≤ l.length) :
    row l a c = row l a b ++ row l b c := by
  have hlen : a ≤ (l.take b).length := by rw [List.length_take, Nat.min_eq_left hb]; exact hab
  rw [row, take_eq_append_row l hbc, List.drop_append_of_le_length hlen]
  rfl

/-- 同じ行を順に繋いだものは同じである。 -/
theorem row_congr (l m : List α) {a b : Nat → Nat} {n : Nat} (ha : ∀ i < n, a i ≤ a (i + 1))
    (hb : ∀ i < n, b i ≤ b (i + 1)) (hla : ∀ i < n, a i ≤ l.length) (hlb : ∀ i < n, b i ≤ m.length)
    (h : ∀ i < n, row l (a i) (a (i + 1)) = row m (b i) (b (i + 1))) :
    row l (a 0) (a n) = row m (b 0) (b n) := by
  induction n with
  | zero => rw [row_self, row_self]
  | succ n ih =>
    rw [row_append l (le_of_steps ha (Nat.zero_le n) (by omega)) (ha n (by omega))
        (hla n (by omega)),
      row_append m (le_of_steps hb (Nat.zero_le n) (by omega)) (hb n (by omega)) (hlb n (by omega)),
      h n (by omega),
      ih (fun i hi => ha i (by omega)) (fun i hi => hb i (by omega)) (fun i hi => hla i (by omega))
        (fun i hi => hlb i (by omega)) (fun i hi => h i (by omega))]

/-- 切り出した列の行は、元の列のずらした行である。 -/
theorem row_row (l : List α) {a b lo hi : Nat} (h : a + hi ≤ b) :
    row (row l a b) lo hi = row l (a + lo) (a + hi) := by
  unfold row
  rw [List.take_drop, List.take_take, List.drop_drop, Nat.min_eq_left h]

/-- 頭からの切れ端の行。 -/
theorem row_take (l : List α) {n lo hi : Nat} (h : hi ≤ n) : row (l.take n) lo hi = row l lo hi := by
  rw [row, row, List.take_take, Nat.min_eq_left h]

theorem mem_take_of_mem_row {l : List α} {lo hi n : Nat} (h : hi ≤ n) {x : α} (hx : x ∈ row l lo hi) :
    x ∈ l.take n :=
  List.take_subset_take_left l h (List.mem_of_mem_drop hx)

/-- `filterMap` した列の、`lo` までの分の後ろからの行は、行を `filterMap` したものである。 -/
theorem row_filterMap (f : α → Option β) (l : List α) {lo hi n : Nat} (h : lo ≤ hi) (hn : hi ≤ n) :
    row ((l.take n).filterMap f) ((l.take lo).filterMap f).length ((l.take hi).filterMap f).length
      = (row l lo hi).filterMap f := by
  have hsplit : (l.take n).filterMap f = (l.take hi).filterMap f ++ (row l hi n).filterMap f := by
    rw [take_eq_append_row l hn, List.filterMap_append]
  rw [row, hsplit, List.take_left, take_eq_append_row l h, List.filterMap_append, List.drop_left]

/-- 行ごとに同じ結果になる二つの `filterMap` は、どの行の終わりまででも同じ結果になる。 -/
theorem filterMap_take_congr {f g : α → Option β} (l : List α) (off : Nat → Nat) {n : Nat}
    (hzero : off 0 = 0) (hmono : ∀ i < n, off i ≤ off (i + 1))
    (h : ∀ i < n, (row l (off i) (off (i + 1))).filterMap f = (row l (off i) (off (i + 1))).filterMap g)
    {i : Nat} (hi : i ≤ n) : (l.take (off i)).filterMap f = (l.take (off i)).filterMap g := by
  induction i with
  | zero => rw [hzero, List.take_zero]; rfl
  | succ i ih =>
    rw [take_eq_append_row l (hmono i hi), List.filterMap_append, List.filterMap_append,
      ih (by omega), h i hi]

/-! ## 一つずつ書く -/

theorem zipWith_set {γ : Type} (f : α → β → γ) (l : List α) (m : List β) (i : Nat) (x : α) (y : β) :
    List.zipWith f (l.set i x) (m.set i y) = (List.zipWith f l m).set i (f x y) := by
  induction l generalizing m i with
  | nil => rfl
  | cons a l ih =>
    cases m with
    | nil => cases i <;> rfl
    | cons b m =>
      cases i with
      | zero => rfl
      | succ i => exact congrArg _ (ih m i)

theorem take_set_self (l : List α) {i : Nat} (h : i < l.length) (x : α) :
    (l.set i x).take (i + 1) = l.take i ++ [x] := by
  rw [List.take_set, List.take_add_one, List.getElem?_eq_getElem h, Option.toList_some]
  have hlen : (l.take i).length = i := by rw [List.length_take, Nat.min_eq_left h.le]
  rw [List.set_append_right _ _ hlen.le, hlen, Nat.sub_self]
  rfl

end Rows
