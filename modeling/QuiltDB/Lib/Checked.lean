import Mathlib.Data.Option.Basic

/-!
# 範囲を確かめる計算と、その対応

byte 列の上の計算は、結果を返すほかに二通りの止まり方をする。範囲の外を触るか、`CHECK` に落ちるかである。
`Refines` は、そのような計算が、範囲の外を知らない計算と同じ止まり方をし、対応する結果を返すことを言う。

* `Refines.bind` — 続けて行う計算
* `Refines.access_bind` — 範囲の中に収まっている読み書きに続く計算
* `Refines.fail` — 同じ `CHECK` に落ちる計算
-/

namespace Checked

/-- 範囲の外を触れば `error none`、`CHECK` に落ちれば `error (some e)` になる計算。 -/
abbrev Comp (ε α : Type) := Except (Option ε) α

variable {ε α β γ δ : Type}

/-- 範囲を確かめた読み書き。 -/
def access : Option α → Comp ε α
  | none => .error none
  | some a => .ok a

/-- `CHECK` に落ちる。 -/
def fail (e : ε) : Comp ε α := .error (some e)

/-- 同じ `CHECK` に落ちるか、対応する結果を返す。範囲の外を触ることは無い。 -/
inductive Refines (R : α → β → Prop) : Comp ε α → Except ε β → Prop
  | ok {a : α} {b : β} (h : R a b) : Refines R (.ok a) (.ok b)
  | fail (e : ε) : Refines R (fail e) (.error e)

variable {R : α → β → Prop} {Q : γ → δ → Prop} {x : Comp ε α} {y : Except ε β}

namespace Refines

theorem exists_ok {b : β} (h : Refines R x (.ok b)) : ∃ a, x = .ok a ∧ R a b := by
  cases h with
  | ok hr => exact ⟨_, rfl, hr⟩

/-- 続けて行う計算。`z` は、`y` が止まれば同じ所で止まる計算である。 -/
theorem bind {f : α → Comp ε γ} {z : Except ε δ} (h : Refines R x y)
    (herr : ∀ e, y = .error e → z = .error e)
    (hok : ∀ a b, y = .ok b → R a b → Refines Q (f a) z) : Refines Q (x >>= f) z := by
  cases h with
  | ok hr => exact hok _ _ rfl hr
  | fail e =>
    rw [herr e rfl]
    exact .fail e

/-- 失敗すると `CHECK` に落ちる計算に続けて行う計算。 -/
theorem bind_elim {o : Option β} {e : ε} {f : α → Comp ε γ} {z : Except ε δ}
    (h : Refines R x (o.elim (.error e) .ok)) (hnone : o = none → z = .error e)
    (hsome : ∀ a b, o = some b → R a b → Refines Q (f a) z) : Refines Q (x >>= f) z := by
  cases o with
  | none =>
    rw [Option.elim_none] at h
    exact h.bind (fun e' he => (Except.error.inj he) ▸ hnone rfl) fun _ _ hb => by cases hb
  | some b =>
    rw [Option.elim_some] at h
    refine h.bind (fun e' he => by cases he) fun a b' hb hr => ?_
    cases hb
    exact hsome a b rfl hr

/-- どちらの側でも続けて行う計算。 -/
theorem bind_bind {f : α → Comp ε γ} {g : β → Except ε δ} (h : Refines R x y)
    (hf : ∀ a b, R a b → Refines Q (f a) (g b)) : Refines Q (x >>= f) (y >>= g) := by
  refine h.bind (fun e he => by rw [he]; rfl) fun a b hb hr => ?_
  rw [hb]
  exact hf a b hr

theorem map {f : α → γ} {g : β → δ} (h : Refines R x y) (hf : ∀ a b, R a b → Q (f a) (g b)) :
    Refines Q (f <$> x) (g <$> y) := by
  cases h with
  | ok hr => exact .ok (hf _ _ hr)
  | fail e => exact .fail e

/-- 止まらないと分かっている計算。 -/
theorem ok_bind {w : Comp ε γ} {a : γ} {f : γ → Comp ε α} (hw : w = .ok a)
    (h : Refines R (f a) y) : Refines R (w >>= f) y := by
  rw [hw]
  exact h

/-- 範囲の中に収まっている読み書き。 -/
theorem access_bind {o : Option γ} {a : γ} {f : γ → Comp ε α} (ho : o = some a)
    (h : Refines R (f a) y) : Refines R (access o >>= f) y :=
  ok_bind (by rw [ho]; rfl) h

end Refines

end Checked
