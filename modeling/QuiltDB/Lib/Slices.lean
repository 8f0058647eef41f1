import QuiltDB.Lib.Segments
import QuiltDB.Lib.Totals

/-!
# 列の切れ端の和

key と値の対の列から、半開区間 `(a, b)` の番号のものだけを取り出した時の、key ごとの和。

区間が続いていれば和も続き、列の後ろに何が加わっても変わらない。
-/

namespace Slices

open Segments Totals

variable {K V : Type} [DecidableEq K] [AddCommMonoid V] {l l' : List (K × V)} {a b c : Int}

/-- 番号が `s.1` 以上 `s.2` 未満の対の和。 -/
def slice (l : List (K × V)) (s : Int × Int) : K → V :=
  total ((l.take s.2.toNat).drop s.1.toNat)

/-- 区間が無ければ 0 である。 -/
def piece (l : List (K × V)) (s : Option (Int × Int)) : K → V := s.elim 0 (slice l)

@[simp] theorem piece_none : piece l none = 0 := rfl

@[simp] theorem piece_some (s : Int × Int) : piece l (some s) = slice l s := rfl

theorem sum_slice_toList (s : Option (Int × Int)) :
    (s.toList.map (slice l)).sum = piece l s := by
  cases s with
  | none => rfl
  | some x => rw [Option.toList_some, List.map_singleton, List.sum_singleton, piece_some]

/-- 空の区間。 -/
theorem slice_self (l : List (K × V)) (a : Int) : slice l (a, a) = 0 := by
  have hnil : (l.take a.toNat).drop a.toNat = [] :=
    List.drop_eq_nil_of_le (List.length_take_le _ _)
  rw [slice, hnil, total_nil]

/-- 初めからの区間は、列の先頭である。 -/
theorem slice_zero (l : List (K × V)) (b : Int) : slice l (0, b) = total (l.take b.toNat) := rfl

/-- 続いた二つの区間。 -/
theorem slice_add (l : List (K × V)) (hab : a ≤ b) (hbc : b ≤ c) :
    slice l (a, b) + slice l (b, c) = slice l (a, c) := by
  have hab' : a.toNat ≤ b.toNat := Int.toNat_le_toNat hab
  have hbc' : b.toNat ≤ c.toNat := Int.toNat_le_toNat hbc
  have hlist : (l.take b.toNat).drop a.toNat ++ (l.take c.toNat).drop b.toNat
      = (l.take c.toNat).drop a.toNat := by
    rw [List.drop_take, List.drop_take, List.drop_take,
      show c.toNat - a.toNat = (b.toNat - a.toNat) + (c.toNat - b.toNat) by omega, List.take_add,
      List.drop_drop, show a.toNat + (b.toNat - a.toNat) = b.toNat by omega]
  rw [slice, slice, ← total_append, hlist]
  rfl

/-- 列の後ろに加わっても、収まっている区間の和は変わらない。 -/
theorem slice_append (l' : List (K × V)) {s : Int × Int} (h : s.2 ≤ l.length) :
    slice (l ++ l') s = slice l s := by
  rw [slice, slice, List.take_append_of_le_length (by omega)]

theorem piece_append (l' : List (K × V)) {s : Option (Int × Int)}
    (h : ∀ x, s = some x → x.2 ≤ l.length) : piece (l ++ l') s = piece l s := by
  cases s with
  | none => rfl
  | some x => exact slice_append l' (h x rfl)

/-- 列の終わりまでの区間は、一つ加わるとその分だけ増える。 -/
theorem slice_concat (x : K × V) (h : a ≤ l.length) :
    slice (l ++ [x]) (a, l.length + 1) = slice l (a, l.length) + Pi.single x.1 x.2 := by
  have hlast : slice (l ++ [x]) ((l.length : Int), l.length + 1) = Pi.single x.1 x.2 := by
    have hn : ((l.length : Int) + 1).toNat = (l ++ [x]).length := by
      rw [List.length_append, List.length_singleton]
      omega
    rw [slice, hn, List.take_length, Int.toNat_natCast, List.drop_left, total_cons, total_nil,
      add_zero]
  rw [← slice_add (l ++ [x]) h (by omega), slice_append [x] le_rfl, hlast]

/-- 隙間なく続く区間の列。 -/
theorem sum_slice_of_chain (l : List (K × V)) {xs : List (Int × Int)}
    (h : Chain (· = ·) a xs b) : (xs.map (slice l)).sum = slice l (a, b) := by
  induction xs generalizing a with
  | nil =>
    rw [show b = a from Eq.symm h, slice_self]
    rfl
  | cons s xs ih =>
    obtain ⟨h1, h2, h3⟩ := h
    rw [List.map_cons, List.sum_cons, ih h3, show s = (a, s.2) from Prod.ext h1.symm rfl]
    exact slice_add l (h1 ▸ h2.le) h3.eq_le.le

/-! ## 重ならない切れ端 -/

omit [DecidableEq K] [AddCommMonoid V] in
/-- 重ならない区間の切れ端を並べると、元の列から順に選び出した列になる。 -/
theorem flatMap_sublist_of_chain (l : List (K × V)) {xs : List (Int × Int)}
    (h : Chain (· ≤ ·) a xs b) :
    (xs.flatMap fun s => (l.take s.2.toNat).drop s.1.toNat).Sublist (l.drop a.toNat) := by
  induction xs generalizing a with
  | nil => exact List.nil_sublist _
  | cons s xs ih =>
    obtain ⟨h1, h2, h3⟩ := h
    have hle : s.1.toNat ≤ s.2.toNat := Int.toNat_le_toNat h2.le
    -- 切れ端の後には、その終わりから先の列が続く
    have hsplit : (l.take s.2.toNat).drop s.1.toNat ++ l.drop s.2.toNat = l.drop s.1.toNat := by
      rw [List.drop_take, show s.2.toNat = s.1.toNat + (s.2.toNat - s.1.toNat) by omega,
        ← List.drop_drop, Nat.add_sub_cancel_left, List.take_append_drop]
    rw [List.flatMap_cons]
    refine ((ih h3).append_left _).trans ?_
    rw [hsplit]
    exact List.drop_sublist_drop_left l (Int.toNat_le_toNat h1)

theorem total_flatMap_slices (l : List (K × V)) (xs : List (Int × Int)) :
    total (xs.flatMap fun s => (l.take s.2.toNat).drop s.1.toNat) = (xs.map (slice l)).sum := by
  induction xs with
  | nil => rfl
  | cons s xs ih => rw [List.flatMap_cons, total_append, ih, List.map_cons, List.sum_cons, slice]

end Slices
