import QuiltDB.Lib.Totals
import QuiltDB.Properties.Buffer

/-!
# table・store・buffer の中身

値を足し算の群の元として見た時に、table の storage、propagator の store、buffer の update が
それぞれ key ごとに何を持つかを述べる。どの操作も key ごとの和の足し引きになる。
-/

namespace QuiltDB

open Totals

section monoid

variable {V : Type} [AddCommMonoid V]

/-! ## table と store -/

theorem incRaw_add (storage : Storage V) (key : Key) (delta : V) :
    incRaw (· + ·) storage key delta = storage + Pi.single key delta := by
  funext k
  by_cases hk : k = key
  · subst hk
    rw [incRaw, Function.update_self, Pi.add_apply, Pi.single_eq_same]
  · rw [incRaw, Function.update_of_ne hk, Pi.add_apply, Pi.single_eq_of_ne hk, add_zero]

/-- buffer の update を順に足すと、その和が足される。 -/
theorem foldl_incRaw (us : List (Key × V)) (storage : Storage V) :
    us.foldl (fun s kv => incRaw (· + ·) s kv.1 kv.2) storage = storage + total us := by
  simp only [incRaw_add]
  exact foldl_add us storage

/-- store の中身。無い key は 0 である。 -/
def content (m : AList fun _ : Key => V) : Key → V := fun k => (m.lookup k).getD 0

@[simp] theorem content_empty : content (∅ : AList fun _ : Key => V) = 0 := rfl

theorem content_addUpdate (m : AList fun _ : Key => V) (key : Key) (delta : V) :
    content (Propagator.addUpdate (· + ·) m key delta) = content m + Pi.single key delta := by
  funext k
  by_cases hk : k = key
  · subst hk
    rw [content, Propagator.addUpdate, AList.lookup_insert, Pi.add_apply, Pi.single_eq_same]
    rfl
  · rw [content, Propagator.addUpdate, AList.lookup_insert_ne hk, Pi.add_apply,
      Pi.single_eq_of_ne hk, add_zero]
    rfl

theorem content_foldl_addUpdate (us : List (Key × V)) (m : AList fun _ : Key => V) :
    content (us.foldl (fun m kv => Propagator.addUpdate (· + ·) m kv.1 kv.2) m)
      = content m + total us := by
  induction us generalizing m with
  | nil => rw [List.foldl_nil, total_nil, add_zero]
  | cons kv us ih => rw [List.foldl_cons, ih, content_addUpdate, total_cons, add_assoc]

omit [AddCommMonoid V] in
theorem mem_keys_pairs {m : AList fun _ : Key => V} {k : Key} :
    k ∈ (pairs m).map Prod.fst ↔ k ∈ m := by
  rw [AList.mem_keys, pairs, List.map_map]
  rfl

/-- store を列で見ても中身は同じである。 -/
theorem total_pairs (m : AList fun _ : Key => V) : total (pairs m) = content m := by
  funext k
  cases h : m.lookup k with
  | none =>
    have hk : k ∉ (pairs m).map Prod.fst := fun hk =>
      AList.lookup_eq_none.mp h (mem_keys_pairs.mp hk)
    rw [total_of_not_mem hk, content, h]
    rfl
  | some v =>
    have hkv : (k, v) ∈ pairs m := mem_pairs.mpr h
    rw [content, h]
    exact total_of_mem (nodup_pairs m) hkv

end monoid

/-! ## 引き算 -/

namespace UpdateBuffer

variable {V : Type} {b b' : UpdateBuffer V} {key : Key} {f : V → V}

theorem modifyUpdate_keys (h : b.modifyUpdate key f = some b') :
    b'.updates.map Prod.fst = b.updates.map Prod.fst := by
  obtain ⟨us, hus, rfl⟩ := Option.map_eq_some_iff.mp h
  obtain ⟨pre, kv, post, hl, -, -, rfl⟩ := modifyFirst_cases hus
  rw [hl]
  simp

theorem modifyUpdate_isSome (h : key ∈ b.updates.map Prod.fst) :
    ∃ b', b.modifyUpdate key f = some b' := by
  cases hm : b.modifyUpdate key f with
  | some b' => exact ⟨b', rfl⟩
  | none =>
    obtain ⟨kv, hkv, rfl⟩ := List.mem_map.mp h
    have hp := modifyFirst_eq_none (Option.map_eq_none_iff.mp hm) kv hkv
    exact absurd hp (by simp)

theorem getUpdate_modifyUpdate (h : b.modifyUpdate key f = some b') (k : Key) :
    b'.getUpdate k = if k = key then (b.getUpdate k).map f else b.getUpdate k := by
  obtain ⟨us, hus, rfl⟩ := Option.map_eq_some_iff.mp h
  obtain ⟨pre, kv, post, hl, hkv, hpre, rfl⟩ := modifyFirst_cases hus
  rw [beq_iff_eq] at hkv
  subst hkv
  rw [getUpdate, getUpdate, hl, List.find?_append, List.find?_append, List.find?_cons,
    List.find?_cons]
  by_cases hk : k = kv.1
  · subst hk
    have hnone : pre.find? (fun x => x.1 == kv.1) = none :=
      List.find?_eq_none.mpr fun x hx => Bool.eq_false_iff.mp (hpre x hx)
    rw [hnone]
    simp
  · have hne : (kv.1 == k) = false := beq_eq_false_iff_ne.mpr (Ne.symm hk)
    rw [if_neg hk, hne]

/-- 一つの key から引くと、和からもその分が引かれる。 -/
theorem total_modifyUpdate [AddCommGroup V] {delta : V}
    (h : b.modifyUpdate key (fun x => x - delta) = some b') :
    total b'.updates = total b.updates - Pi.single key delta := by
  obtain ⟨us, hus, rfl⟩ := Option.map_eq_some_iff.mp h
  obtain ⟨pre, kv, post, hl, hkv, -, rfl⟩ := modifyFirst_cases hus
  rw [beq_iff_eq] at hkv
  subst hkv
  rw [hl, total_append, total_append, total_cons, total_cons, Pi.single_sub]
  abel

end UpdateBuffer

namespace Receiver

variable {V : Type} {vsub : V → V → V} {b b' : UpdateBuffer V} {us : List (Key × V)}

variable (vsub) in
/-- 引く key が全て受け取った buffer にあれば、引く loop は最後まで進む。 -/
theorem subtractUpdates_ok (h : ∀ kv ∈ us, kv.1 ∈ b.updates.map Prod.fst) :
    ∃ b', subtractUpdates vsub b us = .ok b' := by
  induction us generalizing b with
  | nil => exact ⟨b, rfl⟩
  | cons kv us ih =>
    obtain ⟨b₁, h1⟩ := UpdateBuffer.modifyUpdate_isSome (f := fun x => vsub x kv.2)
      (h kv List.mem_cons_self)
    obtain ⟨b', h2⟩ := ih (b := b₁) fun x hx => by
      rw [UpdateBuffer.modifyUpdate_keys h1]
      exact h x (List.mem_cons_of_mem _ hx)
    exact ⟨b', by rw [subtractUpdates, h1]; exact h2⟩

/-- 引いた後の buffer は、key はそのままで、値から key ごとの delta が順に引かれている。 -/
theorem subtractUpdates_spec (h : subtractUpdates vsub b us = .ok b') :
    b'.updates.map Prod.fst = b.updates.map Prod.fst ∧
      ∀ k, b'.getUpdate k = (b.getUpdate k).map fun x => (valuesAt us k).foldl vsub x := by
  induction us generalizing b with
  | nil =>
    cases h
    refine ⟨rfl, fun k => ?_⟩
    simp [valuesAt]
  | cons kv us ih =>
    rw [subtractUpdates] at h
    split at h
    · cases h
    · next b₁ h1 =>
      obtain ⟨h2, h3⟩ := ih h
      refine ⟨h2.trans (UpdateBuffer.modifyUpdate_keys h1), fun k => ?_⟩
      rw [h3, UpdateBuffer.getUpdate_modifyUpdate h1]
      by_cases hk : k = kv.1
      · subst hk
        rw [if_pos rfl, Option.map_map, valuesAt_cons_self]
        rfl
      · rw [if_neg hk, valuesAt_cons_of_ne hk]

/-- 引いた後の和。 -/
theorem total_subtractUpdates [AddCommGroup V]
    (h : subtractUpdates (fun x y => x - y) b us = .ok b') :
    total b'.updates = total b.updates - total us := by
  induction us generalizing b with
  | nil =>
    cases h
    rw [total_nil, sub_zero]
  | cons kv us ih =>
    rw [subtractUpdates] at h
    split at h
    · cases h
    · next b₁ h1 => rw [ih h, UpdateBuffer.total_modifyUpdate h1, total_cons, sub_sub]

end Receiver

end QuiltDB
