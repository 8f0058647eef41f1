import Mathlib

/-!
# 区間の列

半開区間 `[x, y)` を `(x, y)` で表し、順に並んだ区間の列について述べる。

`Chain R a xs b` は、`a` から始めて `b` まで、空でない区間が並び、隣り合う端どうしが `R` で
結ばれていることをいう。`R` が `=` なら隙間も重なりも無く、`≤` なら重なりだけが無い。
-/

namespace Segments

variable {α : Type} [LinearOrder α]

/-- `a` から `b` までの区間の列。 -/
def Chain (R : α → α → Prop) : α → List (α × α) → α → Prop
  | a, [], b => R a b
  | a, s :: rest, b => R a s.1 ∧ s.1 < s.2 ∧ Chain R s.2 rest b

variable {R : α → α → Prop} {a b c x y : α} {xs ys : List (α × α)}

@[simp] theorem chain_nil : Chain R a [] b ↔ R a b := Iff.rfl

@[simp] theorem chain_cons {s : α × α} :
    Chain R a (s :: xs) b ↔ R a s.1 ∧ s.1 < s.2 ∧ Chain R s.2 xs b := Iff.rfl

theorem Chain.of_rel [IsPreorder α R] (h : R a b) (hc : Chain R b xs c) : Chain R a xs c := by
  cases xs with
  | nil => exact trans_of R h hc
  | cons s xs => exact ⟨trans_of R h hc.1, hc.2⟩

theorem Chain.rel_end [IsPreorder α R] (hc : Chain R a xs b) (h : R b c) : Chain R a xs c := by
  induction xs generalizing a with
  | nil => exact trans_of R hc h
  | cons s xs ih => exact ⟨hc.1, hc.2.1, ih hc.2.2⟩

theorem Chain.append [IsPreorder α R] (h : Chain R a xs b) (h' : Chain R b ys c) :
    Chain R a (xs ++ ys) c := by
  induction xs generalizing a with
  | nil => exact h'.of_rel h
  | cons s xs ih => exact ⟨h.1, h.2.1, ih h.2.2⟩

/-- 列の末尾に区間を一つ足す。 -/
theorem Chain.concat [IsPreorder α R] (h : Chain R a xs b) (hx : R b x) (hxy : x < y) :
    Chain R a (xs ++ [(x, y)]) y :=
  h.append ⟨hx, hxy, refl_of R y⟩

/-- 列を途中で切る。 -/
theorem Chain.split [IsPreorder α R] (h : Chain R a (xs ++ ys) c) :
    ∃ b, Chain R a xs b ∧ Chain R b ys c := by
  induction xs generalizing a with
  | nil => exact ⟨a, refl_of R a, h⟩
  | cons s xs ih =>
    obtain ⟨h1, h2, h3⟩ := h
    obtain ⟨b, hb, hc⟩ := ih h3
    exact ⟨b, ⟨h1, h2, hb⟩, hc⟩

theorem Chain.mono {Q : α → α → Prop} (hRQ : ∀ a b, R a b → Q a b) (h : Chain R a xs b) :
    Chain Q a xs b := by
  induction xs generalizing a with
  | nil => exact hRQ _ _ h
  | cons s xs ih => exact ⟨hRQ _ _ h.1, h.2.1, ih h.2.2⟩

/-! ## 大小 -/

theorem Chain.le (h : Chain (· ≤ ·) a xs b) : a ≤ b := by
  induction xs generalizing a with
  | nil => exact h
  | cons s xs ih => exact h.1.trans (h.2.1.le.trans (ih h.2.2))

/-- 列の区間はどれも全体の中にある。 -/
theorem Chain.mem_bounds (h : Chain (· ≤ ·) a xs b) {s : α × α} (hs : s ∈ xs) :
    a ≤ s.1 ∧ s.1 < s.2 ∧ s.2 ≤ b := by
  induction xs generalizing a with
  | nil => cases hs
  | cons s' xs ih =>
    obtain ⟨h1, h2, h3⟩ := h
    rcases List.mem_cons.mp hs with rfl | hs
    · exact ⟨h1, h2, h3.le⟩
    · obtain ⟨h4, h5, h6⟩ := ih h3 hs
      exact ⟨h1.trans (h2.le.trans h4), h5, h6⟩

/-! ## 切れ目 -/

/-- 隙間の無い列の、区間の端になる点。 -/
def cuts (a : α) (xs : List (α × α)) : List α := a :: xs.map Prod.snd

omit [LinearOrder α] in
theorem mem_cuts_append_left (h : x ∈ cuts a xs) : x ∈ cuts a (xs ++ ys) := by
  simp only [cuts, List.map_append, List.mem_cons, List.mem_append] at h ⊢
  tauto

/-- 列の終わりも切れ目である。 -/
theorem Chain.end_mem_cuts (h : Chain (· = ·) a xs b) : b ∈ cuts a xs := by
  induction xs generalizing a with
  | nil => exact h ▸ List.mem_cons_self
  | cons s xs ih =>
    have hb := ih h.2.2
    simp only [cuts, List.map_cons, List.mem_cons] at hb ⊢
    exact Or.inr hb

/-- 切れ目では列を二つに切れる。 -/
theorem Chain.split_at_cut (h : Chain (· = ·) a xs b) (hx : x ∈ cuts a xs) :
    ∃ pre post, xs = pre ++ post ∧ Chain (· = ·) a pre x ∧ Chain (· = ·) x post b := by
  induction xs generalizing a with
  | nil =>
    have hxa : x = a := by simpa [cuts] using hx
    exact ⟨[], [], rfl, hxa.symm, hxa ▸ h⟩
  | cons s xs ih =>
    by_cases hxa : x = a
    · exact ⟨[], s :: xs, rfl, hxa.symm, hxa ▸ h⟩
    · have hx' : x ∈ cuts s.2 xs := by simpa [cuts, hxa] using hx
      obtain ⟨pre, post, rfl, h1, h2⟩ := ih h.2.2 hx'
      exact ⟨s :: pre, post, rfl, ⟨h.1, h.2.1, h1⟩, h2⟩

theorem Chain.eq_le (h : Chain (· = ·) a xs b) : Chain (· ≤ ·) a xs b :=
  h.mono fun _ _ h => le_of_eq h

/-- 切れ目は列の始まりと終わりの間にある。 -/
theorem Chain.cut_le (h : Chain (· = ·) a xs b) (hx : x ∈ cuts a xs) : x ≤ b := by
  rcases List.mem_cons.mp hx with rfl | hx
  · exact h.eq_le.le
  · obtain ⟨s, hs, rfl⟩ := List.mem_map.mp hx
    exact (h.eq_le.mem_bounds hs).2.2

/-- 隙間の無い列の終わりは、端のうち最も大きいものである。 -/
theorem Chain.foldl_max (h : Chain (· = ·) a xs b) : (xs.map Prod.snd).foldl max a = b := by
  induction xs generalizing a with
  | nil => exact h
  | cons s xs ih =>
    obtain ⟨h1, h2, h3⟩ := h
    rw [List.map_cons, List.foldl_cons, max_eq_right (h1 ▸ h2.le)]
    exact ih h3

/-- 始まりと全ての区間の終わりを抑えれば、列の終わりも抑えられる。 -/
theorem Chain.end_le (h : Chain (· = ·) a xs b) (ha : a ≤ y) (hxs : ∀ s ∈ xs, s.2 ≤ y) : b ≤ y := by
  rcases List.mem_cons.mp h.end_mem_cuts with rfl | hb
  · exact ha
  · obtain ⟨s, hs, rfl⟩ := List.mem_map.mp hb
    exact hxs s hs

/-- 二つの切れ目の間は、連続したいくつかの区間の和である。 -/
theorem Chain.between_cuts (h : Chain (· = ·) a xs b) (hx : x ∈ cuts a xs) (hy : y ∈ cuts a xs)
    (hxy : x < y) : ∃ zs, zs ≠ [] ∧ zs <:+: xs ∧ Chain (· = ·) x zs y := by
  obtain ⟨pre, post, rfl, h1, h2⟩ := h.split_at_cut hx
  have hy' : y ∈ cuts x post := by
    simp only [cuts, List.map_append, List.mem_cons, List.mem_append] at hy ⊢
    rcases hy with rfl | hy | hy
    · exact absurd h1.eq_le.le (not_le.mpr hxy)
    · obtain ⟨s, hs, rfl⟩ := List.mem_map.mp hy
      exact absurd (h1.eq_le.mem_bounds hs).2.2 (not_le.mpr hxy)
    · exact Or.inr hy
  obtain ⟨zs, post', rfl, h3, -⟩ := h2.split_at_cut hy'
  refine ⟨zs, ?_, ⟨pre, post', by simp⟩, h3⟩
  rintro rfl
  exact hxy.ne h3

end Segments
