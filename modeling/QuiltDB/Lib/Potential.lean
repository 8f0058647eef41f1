import QuiltDB.Lib.Lts

/-!
# 一歩ずつの会計

状態に自然数の potential を与え、run の歩数を potential と持ち込まれた分で抑える規則。

* `Pays` — 一歩が、数える分と残る potential を、手前の potential と持ち込む分で賄う
* `Pays.trace` — run 全体でも賄われる
* `exists_blocked` — potential の減る一歩だけを選んでいけば、いつか動けなくなる
-/

namespace Lts

variable {σ lab ε : Type} {next : StepFn σ lab ε}

/--
条件 `R` を満たす状態からの一歩の会計。

`gain` は数える分、`cost` は外から持ち込む分である。
-/
def Pays (next : StepFn σ lab ε) (R : σ → Prop) (pot : σ → Nat) (gain cost : σ → lab → Nat) : Prop :=
  ∀ s l s', R s → next s l = some (.ok s') → R s' ∧ pot s' + gain s l ≤ pot s + cost s l

variable {R : σ → Prop} {pot : σ → Nat} {gain cost : σ → lab → Nat} {s s' : σ}

/-- run で数えた分の和と残った potential は、初めの potential と持ち込んだ分の和で抑えられる。 -/
theorem Pays.trace (h : Pays next R pot gain cost) (hs : R s) {steps : List (σ × lab × σ)}
    (ht : Trace next s steps s') :
    R s' ∧ pot s' + (steps.map fun e => gain e.1 e.2.1).sum
      ≤ pot s + (steps.map fun e => cost e.1 e.2.1).sum := by
  induction ht with
  | nil => exact ⟨hs, le_rfl⟩
  | snoc _ hstep ih =>
    obtain ⟨hr, hle⟩ := ih
    obtain ⟨hr', hle'⟩ := h _ _ _ hr hstep
    refine ⟨hr', ?_⟩
    simp only [List.map_append, List.map_cons, List.map_nil, List.sum_append, List.sum_singleton]
    omega

/--
条件 `P` を満たす一歩で potential が減るなら、そのような一歩でもう動けない状態に着ける。

途中で、異常終了する一歩のある状態に出会うこともある。
-/
theorem exists_blocked {P : σ → lab → Prop} (pot : σ → Nat) (hstep : ∀ s l s', R s → P s l →
      next s l = some (.ok s') → R s' ∧ pot s' < pot s) (s : σ) (hs : R s) :
    ∃ s', ReachableUnder next P s s' ∧ R s' ∧
      ((∃ l e, next s' l = some (.error e)) ∨ ∀ l, P s' l → next s' l = none) := by
  induction hn : pot s using Nat.strong_induction_on generalizing s with
  | _ n ih =>
    by_cases hmove : ∃ l s₁, P s l ∧ next s l = some (.ok s₁)
    · obtain ⟨l, s₁, hp, hl⟩ := hmove
      obtain ⟨hr, hlt⟩ := hstep s l s₁ hs hp hl
      obtain ⟨s', hreach, hrest⟩ := ih _ (hn ▸ hlt) s₁ hr rfl
      exact ⟨s', ReachableUnder.trans (.step .init hp hl) hreach, hrest⟩
    · refine ⟨s, .init, hs, ?_⟩
      by_cases hfault : ∃ l e, next s l = some (.error e)
      · exact .inl hfault
      · refine .inr fun l hp => ?_
        cases hl : next s l with
        | none => rfl
        | some res =>
          cases res with
          | error e => exact absurd ⟨l, e, hl⟩ hfault
          | ok s₁ => exact absurd ⟨l, s₁, hp, hl⟩ hmove

/-! ## 場所ごとの potential の和 -/

section sums

variable {ι : Type}

/-- 一か所だけ違う二つの和。 -/
theorem sum_map_of_eq_off [DecidableEq ι] {is : List ι} (hnd : is.Nodup) {i : ι} (hi : i ∈ is)
    {f g : ι → Nat} (h : ∀ k, k ≠ i → g k = f k) :
    (is.map g).sum + f i = (is.map f).sum + g i := by
  have hp := List.perm_cons_erase hi
  have hoff : (is.erase i).map g = (is.erase i).map f := by
    refine List.map_congr_left fun k hk => h k ?_
    exact (hnd.mem_erase_iff.mp hk).1
  rw [(hp.map g).sum_eq, (hp.map f).sum_eq, List.map_cons, List.map_cons, List.sum_cons,
    List.sum_cons, hoff]
  omega

/-- 条件を満たす場所だけに同じ量を足した和。 -/
theorem sum_map_add_if {p : ι → Prop} [DecidablePred p] (is : List ι) (f : ι → Nat) (w : Nat) :
    (is.map fun k => f k + if p k then w else 0).sum
      = (is.map f).sum + (is.filter p).length * w := by
  induction is with
  | nil => simp
  | cons k is ih =>
    by_cases hk : p k
    · simp [hk, ih, Nat.succ_mul]
      omega
    · simp [hk, ih]
      omega

/-- 条件を満たすものを一つずつ数えた和。 -/
theorem sum_map_ite_one (p : ι → Bool) (is : List ι) :
    (is.map fun k => if p k then 1 else 0).sum = is.countP p := by
  induction is with
  | nil => rfl
  | cons k is ih => rw [List.map_cons, List.sum_cons, ih, List.countP_cons, Nat.add_comm]

end sums

end Lts
