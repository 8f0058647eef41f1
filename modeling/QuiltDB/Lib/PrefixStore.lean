import QuiltDB.Lib.Slices

/-!
# log の先頭を配る複製

node それぞれが自分の足し算を log に公開し、他の node はその log の先頭を順に受け取る、という複製の仕様。

* `add` は自分の表に足す。公開はまだしない。
* `publish` は、足したものを一つ、自分の log の末尾に公開する。
* `discard` は、公開せずに捨てる。
* `deliver` は、辺 `u → j` に沿って `u` の持っている所までを `j` に届ける。

どの node の表も、自分の足し算の和と、他の node の log の先頭の和を足したものである（`State.value`）。
-/

namespace PrefixStore

open Totals Slices

variable {Node K V : Type}

/-- 複製の状態。 -/
structure State (Node K V : Type) where
  /-- 自分の足し算。 -/
  own : Node → List (K × V)
  /-- 足したが、まだ公開していないもの。 -/
  pending : Node → List (K × V)
  log : Node → List (K × V)
  /-- `j` に届いた `o` の log の長さ。 -/
  seen : Node → Node → ℕ

namespace State

variable [DecidableEq Node]

/-- `u` の持っている `o` の log の長さ。自分の log は全て持っている。 -/
def frontier (A : State Node K V) (u o : Node) : ℕ :=
  if u = o then (A.log o).length else A.seen u o

variable [DecidableEq K] [AddCommMonoid V]

/-- node `j` の表。 -/
def value (nodes : Finset Node) (A : State Node K V) (j : Node) : K → V :=
  total (A.own j) + ∑ o ∈ nodes.erase j, total ((A.log o).take (A.seen j o))

end State

variable [DecidableEq Node] {down : Node → Option Node} {name : K → K} {A B D : State Node K V}

/-- 一歩。`name` は、公開する時に使う key を決める。 -/
inductive Step (down : Node → Option Node) (name : K → K) (A : State Node K V) :
    State Node K V → Prop
  | add (j : Node) (k : K) (x : V) (keep : Bool) : Step down name A
      { A with
        own := Function.update A.own j (A.own j ++ [(k, x)])
        pending := Function.update A.pending j
          (A.pending j ++ if keep then [(name k, x)] else []) }
  | publish {j l₁ l₂ e} : A.pending j = l₁ ++ e :: l₂ → Step down name A
      { A with
        pending := Function.update A.pending j (l₁ ++ l₂)
        log := Function.update A.log j (A.log j ++ [e]) }
  | discard {j l₁ l₂ e} : A.pending j = l₁ ++ e :: l₂ → Step down name A
      { A with pending := Function.update A.pending j (l₁ ++ l₂) }
  | deliver {u j m} : down u = some j →
      (∀ o, m o = A.seen j o ∨ (A.seen j o < m o ∧ m o ≤ A.frontier u o)) → Step down name A
      { A with seen := Function.update A.seen j m }

/-- 何も無い状態。 -/
def init : State Node K V where
  own := fun _ => []
  pending := fun _ => []
  log := fun _ => []
  seen := fun _ _ => 0

/-! ## 不変量 -/

/-- 公開された所までしか届いていない。 -/
def Bounded (A : State Node K V) : Prop := ∀ j o, A.seen j o ≤ (A.log o).length

omit [DecidableEq Node] in
theorem bounded_init : Bounded (init : State Node K V) := fun _ _ => Nat.zero_le _

theorem Bounded.frontier_le (h : Bounded A) (u o : Node) : A.frontier u o ≤ (A.log o).length := by
  unfold State.frontier
  split
  · exact le_rfl
  · exact h u o

theorem Bounded.step (h : Bounded A) (hs : Step down name A B) : Bounded B := by
  cases hs with
  | add | discard => exact h
  | @publish j l₁ l₂ e _ =>
    intro i o
    by_cases ho : o = j
    · subst ho
      dsimp only
      rw [Function.update_self, List.length_append]
      exact (h i o).trans (Nat.le_add_right _ _)
    · dsimp only
      rw [Function.update_of_ne ho]
      exact h i o
  | @deliver u j m _ hm =>
    intro i o
    by_cases hi : i = j
    · subst hi
      dsimp only
      rw [Function.update_self]
      rcases hm o with heq | ⟨-, hle⟩
      · exact heq ▸ h i o
      · exact hle.trans (h.frontier_le u o)
    · dsimp only
      rw [Function.update_of_ne hi]
      exact h i o

/-! ## 進むこと -/

/-- `A` から `B` へ、どの列も伸びるだけで、届いた所も戻らない。 -/
structure Advances (A B : State Node K V) : Prop where
  own : ∀ j, A.own j <+: B.own j
  log : ∀ o, A.log o <+: B.log o
  seen : ∀ j o, A.seen j o ≤ B.seen j o

omit [DecidableEq Node] in
theorem Advances.refl (A : State Node K V) : Advances A A :=
  ⟨fun _ => List.prefix_rfl, fun _ => List.prefix_rfl, fun _ _ => le_rfl⟩

omit [DecidableEq Node] in
theorem Advances.trans (h : Advances A B) (h' : Advances B D) : Advances A D :=
  ⟨fun j => (h.own j).trans (h'.own j), fun o => (h.log o).trans (h'.log o),
    fun j o => (h.seen j o).trans (h'.seen j o)⟩

theorem prefix_update {f : Node → List (K × V)} {j : Node} {l : List (K × V)} (i : Node) :
    f i <+: Function.update f j (f j ++ l) i := by
  by_cases hi : i = j
  · subst hi
    rw [Function.update_self]
    exact List.prefix_append _ _
  · rw [Function.update_of_ne hi]

theorem Step.advances (h : Step down name A B) : Advances A B := by
  cases h with
  | add => exact ⟨prefix_update, fun _ => List.prefix_rfl, fun _ _ => le_rfl⟩
  | publish => exact ⟨fun _ => List.prefix_rfl, prefix_update, fun _ _ => le_rfl⟩
  | discard => exact ⟨fun _ => List.prefix_rfl, fun _ => List.prefix_rfl, fun _ _ => le_rfl⟩
  | @deliver u j m _ hm =>
    refine ⟨fun _ => List.prefix_rfl, fun _ => List.prefix_rfl, fun i o => ?_⟩
    by_cases hi : i = j
    · subst hi
      dsimp only
      rw [Function.update_self]
      rcases hm o with heq | ⟨hlt, -⟩
      · exact heq.ge
      · exact hlt.le
    · dsimp only
      rw [Function.update_of_ne hi]

variable [DecidableEq K] [AddCommMonoid V]

/-- 列の先頭は、列が伸びても変わらず、長く取った分だけ増える。 -/
theorem total_take_of_prefix {l l' : List (K × V)} {a b : ℕ} (hp : l <+: l') (ha : a ≤ l.length)
    (hab : a ≤ b) : total (l'.take b) = total (l.take a) + slice l' (a, b) := by
  obtain ⟨ext, rfl⟩ := hp
  have hzero : total ((l ++ ext).take a) = total (l.take a) := by
    rw [List.take_append_of_le_length ha]
  have hadd := slice_add (l ++ ext) (a := 0) (b := a) (c := b) (Int.natCast_nonneg a)
    (Int.ofNat_le.mpr hab)
  rw [slice_zero, slice_zero, Int.toNat_natCast, Int.toNat_natCast, hzero] at hadd
  exact hadd.symm

/--
**表は進むだけである。** 表の変化は、自分の新しい足し算の和と、他の node の log の続きの和である。
-/
theorem Advances.value_eq {nodes : Finset Node} (h : Advances A B) (hb : Bounded A) (j : Node) :
    B.value nodes j = A.value nodes j + (total ((B.own j).drop (A.own j).length)
      + ∑ o ∈ nodes.erase j, slice (B.log o) (A.seen j o, B.seen j o)) := by
  obtain ⟨new, hnew⟩ := h.own j
  have hlogs : ∑ o ∈ nodes.erase j, total ((B.log o).take (B.seen j o))
      = ∑ o ∈ nodes.erase j, total ((A.log o).take (A.seen j o))
        + ∑ o ∈ nodes.erase j, slice (B.log o) (A.seen j o, B.seen j o) := by
    rw [← Finset.sum_add_distrib]
    exact Finset.sum_congr rfl fun o _ => total_take_of_prefix (h.log o) (hb j o) (h.seen j o)
  rw [State.value, State.value, hlogs, ← hnew, List.drop_left, total_append]
  exact add_add_add_comm _ _ _ _

end PrefixStore
