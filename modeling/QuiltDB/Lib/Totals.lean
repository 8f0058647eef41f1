import Mathlib

/-!
# key ごとの和

key と値の対の列を、key ごとに値を足した関数として見る。列の中の順や、同じ key の値を
何度に分けて持つかは、この関数には現れない。
-/

namespace Totals

variable {K V : Type} [DecidableEq K]

/-- key `k` の値を、現れた順に並べたもの。 -/
def valuesAt (us : List (K × V)) (k : K) : List V := (us.filter fun kv => kv.1 = k).map Prod.snd

theorem valuesAt_cons_self (k : K) (v : V) (us : List (K × V)) :
    valuesAt ((k, v) :: us) k = v :: valuesAt us k := by
  simp [valuesAt]

theorem valuesAt_cons_of_ne {kv : K × V} {k : K} (h : k ≠ kv.1) (us : List (K × V)) :
    valuesAt (kv :: us) k = valuesAt us k := by
  simp [valuesAt, Ne.symm h]

section monoid

variable [AddCommMonoid V]

/-- key ごとに値を足した関数。 -/
def total (us : List (K × V)) : K → V := (us.map fun kv => Pi.single kv.1 kv.2).sum

@[simp] theorem total_nil : total ([] : List (K × V)) = 0 := rfl

@[simp] theorem total_cons (kv : K × V) (us : List (K × V)) :
    total (kv :: us) = Pi.single kv.1 kv.2 + total us := by
  rw [total, List.map_cons, List.sum_cons]
  rfl

@[simp] theorem total_append (us vs : List (K × V)) : total (us ++ vs) = total us + total vs := by
  rw [total, List.map_append, List.sum_append]
  rfl

theorem total_perm {us vs : List (K × V)} (h : us.Perm vs) : total us = total vs :=
  (h.map _).sum_eq

theorem total_of_not_mem {us : List (K × V)} {k : K} (h : k ∉ us.map Prod.fst) : total us k = 0 := by
  induction us with
  | nil => rfl
  | cons kv us ih =>
    rw [List.map_cons, List.mem_cons, not_or] at h
    rw [total_cons, Pi.add_apply, Pi.single_eq_of_ne h.1, ih h.2, add_zero]

/-- key が重ならなければ、和は対の値そのものである。 -/
theorem total_of_mem {us : List (K × V)} (hnd : (us.map Prod.fst).Nodup) {kv : K × V}
    (h : kv ∈ us) : total us kv.1 = kv.2 := by
  induction us with
  | nil => cases h
  | cons x us ih =>
    rw [List.map_cons, List.nodup_cons] at hnd
    rcases List.mem_cons.mp h with rfl | h
    · rw [total_cons, Pi.add_apply, Pi.single_eq_same, total_of_not_mem hnd.1, add_zero]
    · have hne : kv.1 ≠ x.1 := fun heq => hnd.1 (heq ▸ List.mem_map_of_mem h)
      rw [total_cons, Pi.add_apply, Pi.single_eq_of_ne hne, zero_add, ih hnd.2 h]

/-- 一つずつ足していくと、和が足される。 -/
theorem foldl_add (us : List (K × V)) (f : K → V) :
    us.foldl (fun f kv => f + Pi.single kv.1 kv.2) f = f + total us := by
  induction us generalizing f with
  | nil => rw [total_nil, add_zero, List.foldl_nil]
  | cons kv us ih => rw [List.foldl_cons, ih, total_cons, add_assoc]

theorem total_apply (us : List (K × V)) (k : K) : total us k = (valuesAt us k).sum := by
  induction us with
  | nil => rfl
  | cons kv us ih =>
    rw [total_cons, Pi.add_apply, ih]
    by_cases hk : k = kv.1
    · subst hk
      rw [Pi.single_eq_same, valuesAt_cons_self, List.sum_cons]
    · rw [Pi.single_eq_of_ne hk, zero_add, valuesAt_cons_of_ne hk]

end monoid

/-- 一つずつ引いていくと、和が引かれる。 -/
theorem foldl_sub [AddCommGroup V] (us : List (K × V)) (k : K) (x : V) :
    (valuesAt us k).foldl (fun x y => x - y) x = x - total us k := by
  rw [total_apply]
  induction valuesAt us k generalizing x with
  | nil => rw [List.foldl_nil, List.sum_nil, sub_zero]
  | cons v vs ih => rw [List.foldl_cons, ih, List.sum_cons, sub_sub]

end Totals
