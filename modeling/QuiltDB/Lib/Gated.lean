import QuiltDB.Lib.Lts

/-!
# 共有の制御を通る部品

同じ形の部品をいくつか並べ、一歩ごとに共有の制御が許した部品だけが動く system。部品どうしは、制御の
ほかには何も共有しない。

* `gatedStep` — 制御が許した部品の一歩
* `Reachable.comp` — 全体の run は、どの部品でも部品だけの run である
-/

namespace Lts

variable {ι σ κ lab ε : Type} [DecidableEq ι]

/-- 部品の状態と、共有の制御。 -/
structure Gated (ι σ κ : Type) where
  ctl : κ
  comp : ι → σ

/-- 制御が許した部品の一歩。`gate` は次の制御を返し、許さなければ `none` を返す。 -/
def gatedStep (next : ι → StepFn σ lab ε) (gate : κ → ι → lab → Option κ) :
    StepFn (Gated ι σ κ) (ι × lab) ε :=
  fun s l =>
    match gate s.ctl l.1 l.2 with
    | none => none
    | some k => (next l.1 (s.comp l.1) l.2).map
        (Except.map fun t => { ctl := k, comp := Function.update s.comp l.1 t })

variable {next : ι → StepFn σ lab ε} {gate : κ → ι → lab → Option κ} {s s' : Gated ι σ κ} {i : ι}
  {l : lab}

/-- 一歩の中身。 -/
theorem gatedStep_ok (h : gatedStep next gate s (i, l) = some (.ok s')) :
    ∃ t, gate s.ctl i l = some s'.ctl ∧ next i (s.comp i) l = some (.ok t) ∧
      s'.comp = Function.update s.comp i t := by
  unfold gatedStep at h
  cases hg : gate s.ctl i l with
  | none => simp [hg] at h
  | some k =>
    simp only [hg] at h
    obtain ⟨res, hres, hmap⟩ := Option.map_eq_some_iff.mp h
    cases res with
    | error e => cases hmap
    | ok t =>
      cases hmap
      exact ⟨t, rfl, hres, rfl⟩

/-- 部品が動けなければ、全体もその部品では動けない。 -/
theorem gatedStep_none (h : next i (s.comp i) l = none) : gatedStep next gate s (i, l) = none := by
  unfold gatedStep
  split
  · rfl
  · exact Option.map_eq_none_iff.mpr h

/-- 制御が許す一歩で全体が動けなければ、その部品も動けない。 -/
theorem comp_none {k : κ} (hg : gate s.ctl i l = some k) (h : gatedStep next gate s (i, l) = none) :
    next i (s.comp i) l = none := by
  unfold gatedStep at h
  simp only [hg] at h
  exact Option.map_eq_none_iff.mp h

/-- 全体の run は、どの部品でも部品だけの run である。 -/
theorem Reachable.comp (h : Reachable (gatedStep next gate) s s') (i : ι) :
    Reachable (next i) (s.comp i) (s'.comp i) := by
  refine Reachable.invariant (I := fun s' => Reachable (next i) (s.comp i) (s'.comp i)) .init ?_ h
  rintro s₁ ⟨i', l⟩ s₂ - hs hi
  obtain ⟨t, -, ht, hcomp⟩ := gatedStep_ok hs
  rw [hcomp]
  by_cases heq : i = i'
  · subst heq
    rw [Function.update_self]
    exact hi.step ht
  · rw [Function.update_of_ne heq]
    exact hi

end Lts
