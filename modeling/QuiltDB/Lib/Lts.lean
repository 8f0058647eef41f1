import Mathlib

/-!
# ラベル付き遷移系

一歩が「動けない（`none`）」「異常終了する（`error`）」「進む（`ok`）」のどれかになる
遷移系の、到達可能性と不変量の規則。

`ReachableUnder P` は、どの一歩も条件 `P` を満たす run で着ける状態である。
条件の無い到達可能性 `Reachable` はその特別な場合になる。
-/

namespace Lts

variable {σ lab ε : Type}

/-- 一歩の意味。 -/
abbrev StepFn (σ lab ε : Type) := σ → lab → Option (Except ε σ)

/-- どの一歩も `P` を満たす run で着ける状態。 -/
inductive ReachableUnder (next : StepFn σ lab ε) (P : σ → lab → Prop) (s₀ : σ) : σ → Prop
  | init : ReachableUnder next P s₀ s₀
  | step {s s' : σ} {l : lab} : ReachableUnder next P s₀ s → P s l →
      next s l = some (.ok s') → ReachableUnder next P s₀ s'

/-- 着ける状態。 -/
def Reachable (next : StepFn σ lab ε) (s₀ : σ) : σ → Prop :=
  ReachableUnder next (fun _ _ => True) s₀

variable {next : StepFn σ lab ε} {P Q : σ → lab → Prop} {s₀ : σ}

theorem Reachable.init : Reachable next s₀ s₀ := ReachableUnder.init

theorem Reachable.step {s s' : σ} {l : lab} (h : Reachable next s₀ s)
    (hs : next s l = some (.ok s')) : Reachable next s₀ s' := ReachableUnder.step h trivial hs

/-- 条件を弱めても着ける。 -/
theorem ReachableUnder.mono (hPQ : ∀ s l, P s l → Q s l) {s : σ}
    (h : ReachableUnder next P s₀ s) : ReachableUnder next Q s₀ s := by
  induction h with
  | init => exact .init
  | step _ hp hs ih => exact .step ih (hPQ _ _ hp) hs

theorem ReachableUnder.reachable {s : σ} (h : ReachableUnder next P s₀ s) :
    Reachable next s₀ s := h.mono fun _ _ _ => trivial

/-- 着いた状態からさらに進んだ先も着ける。 -/
theorem ReachableUnder.trans {s s' : σ} (h : ReachableUnder next P s₀ s)
    (h' : ReachableUnder next P s s') : ReachableUnder next P s₀ s' := by
  induction h' with
  | init => exact h
  | step _ hp hs ih => exact .step ih hp hs

/--
不変量の規則。

一歩の証明では、手前の状態が着けること、その一歩が条件を満たすことも使ってよい。
-/
theorem ReachableUnder.invariant {I : σ → Prop} (h0 : I s₀)
    (hstep : ∀ s l s', ReachableUnder next P s₀ s → P s l → next s l = some (.ok s') →
      I s → I s') {s : σ} (h : ReachableUnder next P s₀ s) : I s := by
  induction h with
  | init => exact h0
  | step hr hp hs ih => exact hstep _ _ _ hr hp hs ih

/-- 条件の無い run についての不変量の規則。 -/
theorem Reachable.invariant {I : σ → Prop} (h0 : I s₀)
    (hstep : ∀ s l s', Reachable next s₀ s → next s l = some (.ok s') → I s → I s') {s : σ}
    (h : Reachable next s₀ s) : I s :=
  ReachableUnder.invariant h0 (fun _ _ _ hr _ hs hi => hstep _ _ _ hr hs hi) h

/-- 条件の無い run で、さらに進んだ先も着ける。 -/
theorem Reachable.trans {s s' : σ} (h : Reachable next s₀ s) (h' : Reachable next s s') :
    Reachable next s₀ s' := ReachableUnder.trans h h'

/-- 伸びるだけの履歴 `f` の中の `x` には、それを付け加えた一歩がある。 -/
theorem Reachable.origin {α : Type} {f : σ → List α} (h0 : f s₀ = [])
    (hgrow : ∀ s l s', Reachable next s₀ s → next s l = some (.ok s') → f s <+: f s') {s : σ}
    (h : Reachable next s₀ s) {pre post : List α} {x : α} (hx : f s = pre ++ x :: post) :
    ∃ s₁ l s₂ ev₁ ev₂, Reachable next s₀ s₁ ∧ next s₁ l = some (.ok s₂) ∧ Reachable next s₂ s ∧
      f s₁ ++ ev₁ = pre ∧ f s₂ = pre ++ x :: ev₂ := by
  induction h generalizing post with
  | init =>
    rw [h0] at hx
    simp at hx
  | @step s s' l hr _ hs ih =>
    obtain ⟨ev, hev⟩ := hgrow _ _ _ hr hs
    rw [← hev] at hx
    rcases List.append_eq_append_iff.mp hx with ⟨a, rfl, -⟩ | ⟨c, hc, hpost⟩
    · exact ⟨s, l, s', a, post, hr, hs, .init, rfl, by rw [← hev, hx]⟩
    · cases c with
      | nil =>
        rw [List.append_nil] at hc
        exact ⟨s, l, s', [], post, hr, hs, .init, by rw [hc, List.append_nil], by rw [← hev, hx]⟩
      | cons y c =>
        obtain ⟨rfl, -⟩ := List.cons.inj hpost
        obtain ⟨s₁, l₁, s₂, ev₁, ev₂, h1, h2, h3, h4, h5⟩ := ih hc
        exact ⟨s₁, l₁, s₂, ev₁, ev₂, h1, h2, h3.step hs, h4, h5⟩

/-! ## 実行 -/

/-- 各歩が条件を満たすことを確かめながら順に実行する。動けないか異常終了したら `none`。 -/
def runUnder (next : StepFn σ lab ε) (p : σ → lab → Bool) : σ → List lab → Option σ
  | s, [] => some s
  | s, l :: ls =>
    if p s l then
      match next s l with
      | some (.ok s') => runUnder next p s' ls
      | _ => none
    else none

/-- ラベルの列を順に実行する。 -/
def run (next : StepFn σ lab ε) : σ → List lab → Option σ := runUnder next fun _ _ => true

/-- 最後の一歩を切り出す。 -/
theorem run_concat {ls : List lab} {l : lab} {s s' : σ} (h : run next s (ls ++ [l]) = some s') :
    ∃ s₁, run next s ls = some s₁ ∧ next s₁ l = some (.ok s') := by
  induction ls generalizing s with
  | nil =>
    refine ⟨s, rfl, ?_⟩
    simp only [run, List.nil_append, runUnder, if_true] at h
    split at h
    · next s₁ hs => rw [hs, Option.some.inj h]
    · cases h
  | cons k ls ih =>
    simp only [run, List.cons_append, runUnder, if_true] at h
    split at h
    · next s₁ hs =>
      obtain ⟨s₂, h1, h2⟩ := ih h
      refine ⟨s₂, ?_, h2⟩
      simp only [run, runUnder, if_true, hs]
      exact h1
    · cases h

/-- 最初の一歩を切り出す。 -/
theorem run_cons {ls : List lab} {l : lab} {s s' : σ} (h : run next s (l :: ls) = some s') :
    ∃ s₁, next s l = some (.ok s₁) ∧ run next s₁ ls = some s' := by
  simp only [run, runUnder, if_true] at h
  split at h
  · next s₁ hs => exact ⟨s₁, hs, h⟩
  · cases h

theorem run_cons_of_step {ls : List lab} {l : lab} {s s₁ : σ} (h : next s l = some (.ok s₁)) :
    run next s (l :: ls) = run next s₁ ls := by
  simp only [run, runUnder, if_true, h]

theorem ReachableUnder.of_run {p : σ → lab → Bool} (hp : ∀ s l, p s l = true → P s l)
    {ls : List lab} {s s' : σ} (h : ReachableUnder next P s₀ s)
    (hr : runUnder next p s ls = some s') : ReachableUnder next P s₀ s' := by
  induction ls generalizing s with
  | nil =>
    rw [runUnder, Option.some.injEq] at hr
    exact hr ▸ h
  | cons l ls ih =>
    rw [runUnder] at hr
    split at hr
    · next hps =>
      split at hr
      · next s₁ hs => exact ih (.step h (hp _ _ hps) hs) hr
      · cases hr
    · cases hr

theorem Reachable.of_run {ls : List lab} {s : σ} (hr : run next s₀ ls = some s) :
    Reachable next s₀ s := ReachableUnder.of_run (fun _ _ _ => trivial) .init hr

section decidable

variable {R : σ → Prop} [DecidablePred R]

/-- 実行した先で確かめられる性質。 -/
theorem exists_run {s : σ} {ls : List lab}
    (h : (run next s ls).any (fun s' => decide (R s')) = true) :
    ∃ s', run next s ls = some s' ∧ R s' := by
  obtain ⟨s', hs, hr⟩ := (Option.any_eq_true _ _).mp h
  exact ⟨s', hs, of_decide_eq_true hr⟩

/-- 実行した先で確かめられる性質は、条件を満たす run で着ける状態で成り立つ。 -/
theorem ReachableUnder.exists_of_run {p : σ → lab → Bool} (ls : List lab)
    (h : (runUnder next p s₀ ls).any (fun s => decide (R s)) = true) :
    ∃ s, ReachableUnder next (fun s l => p s l = true) s₀ s ∧ R s := by
  obtain ⟨s, hs, hr⟩ := (Option.any_eq_true _ _).mp h
  exact ⟨s, .of_run (fun _ _ hp => hp) .init hs, of_decide_eq_true hr⟩

theorem Reachable.exists_of_run (ls : List lab)
    (h : (run next s₀ ls).any (fun s => decide (R s)) = true) :
    ∃ s, Reachable next s₀ s ∧ R s := by
  obtain ⟨s, hs, hr⟩ := exists_run h
  exact ⟨s, .of_run hs, hr⟩

end decidable

/-! ## 一歩ずつの記録 -/

/-- run を、通った一歩の列とともに見る。 -/
inductive Trace (next : StepFn σ lab ε) (s₀ : σ) : List (σ × lab × σ) → σ → Prop
  | nil : Trace next s₀ [] s₀
  | snoc {steps : List (σ × lab × σ)} {s s' : σ} {l : lab} : Trace next s₀ steps s →
      next s l = some (.ok s') → Trace next s₀ (steps ++ [(s, l, s')]) s'

/-- 記録された一歩は、実際の一歩である。 -/
theorem Trace.step_of_mem {steps : List (σ × lab × σ)} {s a b : σ} {l : lab}
    (h : Trace next s₀ steps s) (hm : (a, l, b) ∈ steps) : next a l = some (.ok b) := by
  induction h with
  | nil => cases hm
  | snoc _ hs ih =>
    rcases List.mem_append.mp hm with hm | hm
    · exact ih hm
    · cases List.mem_singleton.mp hm
      exact hs

/-- 着ける状態には、記録のある run で着ける。 -/
theorem Reachable.trace {s : σ} (h : Reachable next s₀ s) : ∃ steps, Trace next s₀ steps s := by
  induction h with
  | init => exact ⟨[], .nil⟩
  | step _ _ hs ih =>
    obtain ⟨steps, ht⟩ := ih
    exact ⟨_, ht.snoc hs⟩

end Lts
