import QuiltDB.Apps.RSpMat

/-!
# 列の範囲の取り出し

`RSpMat::VSlice` は行列を一度だけなめて、列の範囲に入る成分を詰めて書く。書く位置は、作りかけの
offset の配列から取る。

* `vSlice_spec` — 結果の offset は、元の行の終わりまでに残った成分の数である
* `slices_partition` — 列を続いた block に分けると、どの成分もちょうど一つの block に現れる
* `slice_compose_iff` — 取り出したものからもう一度取り出すと元から直接取り出したものになるのは、
  列番号のずれが結果を変えない時に限る
-/

namespace QuiltDB

open Rows

namespace RSpMat

variable {V : Type}

/-- `offset` が 0 から減らずに並び、配列の中を指す。 -/
structure Readable (A : RSpMat V) : Prop where
  rows : 0 < A.rows
  zero : A.offset[0]? = some 0
  length : A.rows < A.offset.length
  mono : ∀ i < A.rows, A.offset.getD i 0 ≤ A.offset.getD (i + 1) 0
  last : A.offset.getD A.rows 0 ≤ A.nnz
  entries : A.nnz ≤ A.entries.length

/-- 行が一つ以上あり、列番号が全体の番号である正しい行列。 -/
structure WellFormed (A : RSpMat V) : Prop extends Readable A where
  full : A.offset.getD A.rows 0 = A.nnz
  inside : ∀ e ∈ A.entries.take A.nnz, A.col.contains e.1 = true

/-- 列の範囲 `col` に入る成分と、その新しい列番号。 -/
def keep (bits : Nat) (col : Seg) (e : Nat × Option V) : Option (Nat × Option V) :=
  if col.contains e.1 then some ((e.1 - col.start) % 2 ^ bits, e.2) else none

/-- 列番号を範囲の始まりから数え直し、添字の型に入れる。 -/
def relabel (bits : Nat) (col : Seg) (e : Nat × Option V) : Nat × Option V :=
  ((e.1 - col.start) % 2 ^ bits, e.2)

/-! ## 書いた所まで -/

/-- `res` の先頭に `out` が書いてある。配列は `Init` の確保した大きさのままである。 -/
structure Written (A res : RSpMat V) (out : List (Nat × Option V)) : Prop where
  entries : res.entries.take out.length = out
  hasValue : res.hasValue = A.hasValue
  size : res.entries.length = A.nnz + 5

/-- `offset` と大きさは変わらない。 -/
structure SameFrame (res res' : RSpMat V) : Prop where
  row : res'.row = res.row
  col : res'.col = res.col
  nnz : res'.nnz = res.nnz
  offset : res'.offset = res.offset

section

variable {A res : RSpMat V} {bits : Nat} {col : Seg}

theorem length_entriesOf_le {index : List Nat} {value : Option (List V)} {i : Nat}
    (h : i < (entriesOf index value).length) :
    i < index.length ∧ ∀ vs, value = some vs → i < vs.length := by
  cases value with
  | none =>
    rw [entriesOf, List.length_map] at h
    exact ⟨h, by rintro _ ⟨⟩⟩
  | some vs =>
    rw [entriesOf, List.length_zipWith] at h
    refine ⟨by omega, ?_⟩
    rintro vs' ⟨⟩
    omega

theorem getElem?_entriesOf {index : List Nat} {value : Option (List V)} {j : Nat} {e : Nat × Option V}
    (h : (entriesOf index value)[j]? = some e) :
    index[j]? = some e.1 ∧ (value = none → e.2 = none) ∧
      ∀ vs, value = some vs → ∃ x, vs[j]? = some x ∧ e.2 = some x := by
  cases value with
  | none =>
    rw [entriesOf, List.getElem?_map] at h
    obtain ⟨c, hc, rfl⟩ := Option.map_eq_some_iff.1 h
    exact ⟨hc, fun _ => rfl, by rintro _ ⟨⟩⟩
  | some vs =>
    obtain ⟨c, x, hc, hx, rfl⟩ := List.getElem?_zipWith_eq_some.1 h
    refine ⟨hc, by rintro ⟨⟩, ?_⟩
    rintro vs' ⟨⟩
    exact ⟨x, hx, rfl⟩

/-- 次の所に一つ書く。 -/
theorem Written.snoc {res' : RSpMat V} {out : List (Nat × Option V)} (hw : Written A res out)
    (hroom : out.length < A.nnz + 5) {y : Nat × Option V}
    (hset : res'.entries = res.entries.set out.length y) (hvalue : res'.hasValue = res.hasValue) :
    Written A res' (out ++ [y]) := by
  refine ⟨?_, by rw [hvalue, hw.hasValue], by rw [hset, List.length_set, hw.size]⟩
  rw [hset, List.length_append, List.length_singleton,
    take_set_self _ (by rw [hw.size]; exact hroom), hw.entries]

theorem putEntry_spec (bits : Nat) (col : Seg) {out : List (Nat × Option V)}
    (hw : Written A res out) (hroom : out.length < A.nnz + 5) {j : Nat} {e : Nat × Option V}
    (he : A.entries[j]? = some e) :
    ∃ res', putEntry bits A col res j out.length e.1 = some res' ∧ SameFrame res res' ∧
      Written A res' (out ++ [((e.1 - col.start) % 2 ^ bits, e.2)]) := by
  obtain ⟨hidx, hval⟩ := length_entriesOf_le
    (show out.length < res.entries.length by rw [hw.size]; exact hroom)
  obtain ⟨-, hnone, hsome⟩ := getElem?_entriesOf he
  have hhas := hw.hasValue
  unfold putEntry setAt
  rw [if_pos hidx]
  cases hA : A.value with
  | none =>
    have hres : res.value = none := by simpa [hasValue, hA] using hhas
    refine ⟨_, rfl, ⟨rfl, rfl, rfl, rfl⟩, hw.snoc hroom ?_ rfl⟩
    rw [entries, entries, hnone hA, hres, entriesOf, entriesOf, List.map_set]
  | some vs =>
    obtain ⟨x, hx, hex⟩ := hsome vs hA
    obtain ⟨ws, hres⟩ : ∃ ws, res.value = some ws :=
      Option.isSome_iff_exists.1 (by simpa [hasValue, hA] using hhas)
    simp only [hx, hres, if_pos (hval ws hres), Option.bind_eq_bind, Option.bind_some]
    refine ⟨_, rfl, ⟨rfl, rfl, rfl, rfl⟩, hw.snoc hroom ?_ (by simp [hasValue, hres])⟩
    rw [entries, entries, hex, hres, entriesOf, entriesOf, zipWith_set]

/-! ## 一行と全体 -/

/-- 内側の loop。`j` から `left` 個の成分を見て、範囲に入るものを続きに書く。 -/
theorem sliceRow_spec (bits : Nat) (col : Seg) (hA : A.nnz ≤ A.entries.length) (left : Nat) {j : Nat}
    {res : RSpMat V} (hj : j + left ≤ A.nnz)
    (hw : Written A res ((A.entries.take j).filterMap (keep bits col))) :
    ∃ res', sliceRow bits A col left j ((A.entries.take j).filterMap (keep bits col)).length res
        = some (((A.entries.take (j + left)).filterMap (keep bits col)).length, res') ∧
      SameFrame res res' ∧
      Written A res' ((A.entries.take (j + left)).filterMap (keep bits col)) := by
  induction left generalizing j res with
  | zero => exact ⟨res, rfl, ⟨rfl, rfl, rfl, rfl⟩, hw⟩
  | succ left ih =>
    have hlt : j < A.entries.length := by omega
    obtain ⟨e, he⟩ : ∃ e, A.entries[j]? = some e := ⟨_, List.getElem?_eq_getElem hlt⟩
    have htake : (A.entries.take (j + 1)).filterMap (keep bits col)
        = (A.entries.take j).filterMap (keep bits col) ++ [e].filterMap (keep bits col) := by
      rw [List.take_add_one, he, List.filterMap_append]
      rfl
    have hroom : ((A.entries.take j).filterMap (keep bits col)).length < A.nnz + 5 := by
      have hfilter := List.length_filterMap_le (keep bits col) (A.entries.take j)
      have hshort := List.length_take_le j A.entries
      omega
    rw [show j + (left + 1) = j + 1 + left by omega]
    unfold sliceRow
    rw [(getElem?_entriesOf he).1, Option.bind_eq_bind, Option.bind_some]
    by_cases hin : col.contains e.1 = true
    · obtain ⟨res₁, hput, hframe₁, hw₁⟩ := putEntry_spec bits col hw hroom he
      have hkeep : [e].filterMap (keep bits col) = [((e.1 - col.start) % 2 ^ bits, e.2)] := by
        simp [keep, hin]
      rw [hkeep] at htake
      rw [← htake] at hw₁
      obtain ⟨res₂, hrun, hframe₂, hw₂⟩ := ih (by omega) hw₁
      rw [htake, List.length_append, List.length_singleton] at hrun
      rw [if_pos hin, hput, Option.bind_eq_bind, Option.bind_some, hrun]
      exact ⟨res₂, rfl, ⟨hframe₂.row.trans hframe₁.row, hframe₂.col.trans hframe₁.col,
        hframe₂.nnz.trans hframe₁.nnz, hframe₂.offset.trans hframe₁.offset⟩, hw₂⟩
    · have hkeep : [e].filterMap (keep bits col) = [] := by simp [keep, hin]
      rw [hkeep, List.append_nil] at htake
      rw [← htake] at hw ⊢
      rw [if_neg hin]
      exact ih (by omega) hw

/-- 外側の loop の途中。`i` 行目までの offset が書いてある。 -/
structure SlicedTo (bits : Nat) (A : RSpMat V) (seg : Seg) (i : Nat) (res : RSpMat V) : Prop where
  row : res.row = A.row
  col : res.col = seg
  nnz : res.nnz = A.nnz
  size : res.offset.length = A.rows + 5
  offset : ∀ k ≤ i, res.offset[k]?
    = some ((A.entries.take (A.offset.getD k 0)).filterMap (keep bits seg)).length
  written : Written A res ((A.entries.take (A.offset.getD i 0)).filterMap (keep bits seg))

theorem Readable.offset_le (hA : A.Readable) {i j : Nat} (hij : i ≤ j) (hj : j ≤ A.rows) :
    A.offset.getD i 0 ≤ A.offset.getD j 0 :=
  le_of_steps hA.mono hij hj

theorem Readable.offset_le_nnz (hA : A.Readable) {i : Nat} (hi : i ≤ A.rows) :
    A.offset.getD i 0 ≤ A.nnz :=
  (hA.offset_le hi (Nat.le_refl _)).trans hA.last

theorem Readable.getElem?_offset (hA : A.Readable) {i : Nat} (hi : i ≤ A.rows) :
    A.offset[i]? = some (A.offset.getD i 0) := by
  have hlen := hA.length
  rw [List.getD_eq_getElem?_getD, List.getElem?_eq_getElem (by omega)]
  rfl

/-- 外側の loop。 -/
theorem sliceRows_spec (hA : A.Readable) (left : Nat) {i : Nat} {res : RSpMat V}
    (hi : i + left = A.rows) (hp : SlicedTo bits A col i res) :
    ∃ res', sliceRows bits A col left i res = some res' ∧ SlicedTo bits A col A.rows res' := by
  induction left generalizing i res with
  | zero =>
    obtain rfl : i = A.rows := hi
    exact ⟨res, rfl, hp⟩
  | succ left ih =>
    have hstep := hA.mono i (by omega)
    have hroom := hA.offset_le_nnz (show i + 1 ≤ A.rows by omega)
    obtain ⟨res₁, hrow, hframe, hw⟩ := sliceRow_spec bits col hA.entries
      (A.offset.getD (i + 1) 0 - A.offset.getD i 0)
      (show A.offset.getD i 0 + _ ≤ _ by omega) hp.written
    rw [Nat.add_sub_cancel' hstep] at hrow hw
    unfold sliceRows
    simp only [hp.offset i (Nat.le_refl _), hA.getElem?_offset (show i ≤ A.rows by omega),
      hA.getElem?_offset (show i + 1 ≤ A.rows by omega), hrow, Option.bind_eq_bind,
      Option.bind_some, hframe.offset, setAt, hp.size, if_pos (show i + 1 < A.rows + 5 by omega)]
    refine ih (by omega) ⟨hframe.row.trans hp.row, hframe.col.trans hp.col, hframe.nnz.trans hp.nnz,
      by rw [List.length_set, hp.size], ?_, ⟨hw.entries, hw.hasValue, hw.size⟩⟩
    intro k hk
    -- 新しい offset は最後に書いたもので、前のものは変わらない
    by_cases hlast : k = i + 1
    · subst hlast
      exact List.getElem?_set_self (by rw [hp.size]; omega)
    · rw [List.getElem?_set_ne (by omega)]
      exact hp.offset k (by omega)

theorem slicedTo_init (hA : A.Readable) (u : Uninit V) :
    SlicedTo bits A col 0 (init A.row col A.nnz A.hasValue u) := by
  have hfirst : A.offset.getD 0 0 = 0 := by rw [List.getD_eq_getElem?_getD, hA.zero]; rfl
  refine ⟨rfl, rfl, rfl, ?_, ?_, ?_⟩
  · simp [init, rows]
  · intro k hk
    obtain rfl : k = 0 := by omega
    rw [hfirst, init, List.getElem?_append_left (by rw [List.length_replicate]; exact hA.rows),
      List.getElem?_replicate, if_pos (show 0 < A.row.size from hA.rows)]
    rfl
  · rw [hfirst]
    refine ⟨rfl, ?_, ?_⟩
    · cases h : A.hasValue <;> simp [init, hasValue]
    · cases h : A.hasValue <;> simp [init, entries, entriesOf]

/-- **`VSlice` は `CHECK` にも配列の外にも当たらず、範囲に入る成分を詰めて並べる。** -/
theorem vSlice_spec (bits : Nat) (hA : A.Readable) (hcol : A.col.supsetEq col = true) (u : Uninit V) :
    ∃ R, vSlice bits A col u = some R ∧ SlicedTo bits A col A.rows R := by
  unfold vSlice
  rw [if_pos hcol]
  exact sliceRows_spec hA A.rows (Nat.zero_add _) (slicedTo_init hA u)

/-! ## 結果の行 -/

variable {R : RSpMat V}

theorem SlicedTo.rows_eq (hR : SlicedTo bits A col A.rows R) : R.rows = A.rows := by
  rw [rows, hR.row, rows]

theorem SlicedTo.getD_offset (hR : SlicedTo bits A col A.rows R) {i : Nat} (hi : i ≤ A.rows) :
    R.offset.getD i 0 = ((A.entries.take (A.offset.getD i 0)).filterMap (keep bits col)).length := by
  rw [List.getD_eq_getElem?_getD, hR.offset i hi]
  rfl

/-- 取り出したものの `i` 行目までは、元の `i` 行目までの残りである。 -/
theorem SlicedTo.take_entries (hA : A.Readable) (hR : SlicedTo bits A col A.rows R) {i : Nat}
    (hi : i ≤ A.rows) :
    R.entries.take (R.offset.getD i 0)
      = (A.entries.take (A.offset.getD i 0)).filterMap (keep bits col) := by
  rw [hR.getD_offset hi]
  have hsplit := congrArg (List.filterMap (keep bits col))
    (take_eq_append_row A.entries (hA.offset_le hi (Nat.le_refl _)))
  rw [List.filterMap_append] at hsplit
  have hall := hR.written.entries
  rw [hsplit, List.length_append] at hall
  have hcut := congrArg
    (List.take ((A.entries.take (A.offset.getD i 0)).filterMap (keep bits col)).length) hall
  rwa [List.take_take, Nat.min_eq_left (Nat.le_add_right _ _), List.take_left] at hcut

/-- 取り出したものの行は、元の行の残りである。 -/
theorem SlicedTo.rowEntries (hA : A.Readable) (hR : SlicedTo bits A col A.rows R) {i : Nat}
    (hi : i < A.rows) : R.rowEntries i = (A.rowEntries i).filterMap (keep bits col) := by
  have hcut := hR.take_entries hA hi
  rw [RSpMat.rowEntries, ← row_take R.entries (Nat.le_refl (R.offset.getD (i + 1) 0)), hcut,
    hR.getD_offset hi.le, hR.getD_offset hi, row_filterMap _ _ (hA.mono i hi) (Nat.le_refl _)]
  rfl

/-- 取り出したものの offset も、0 から減らずに並んで配列の中を指す。 -/
theorem SlicedTo.readable (hA : A.Readable) (hR : SlicedTo bits A col A.rows R) : R.Readable := by
  have hrows := hR.rows_eq
  refine ⟨by rw [hrows]; exact hA.rows, ?_, by rw [hrows, hR.size]; omega, ?_, ?_, ?_⟩
  · rw [hR.offset 0 (Nat.zero_le _), List.getD_eq_getElem?_getD, hA.zero]
    rfl
  · intro i hi
    rw [hrows] at hi
    rw [hR.getD_offset hi.le, hR.getD_offset hi, take_eq_append_row A.entries (hA.mono i hi),
      List.filterMap_append, List.length_append]
    exact Nat.le_add_right _ _
  · have hfilter := List.length_filterMap_le (keep bits col) (A.entries.take (A.offset.getD A.rows 0))
    have hshort := List.length_take_le (A.offset.getD A.rows 0) A.entries
    have hlast := hA.last
    rw [hrows, hR.getD_offset (Nat.le_refl _), hR.nnz]
    omega
  · rw [hR.nnz, hR.written.size]
    omega

/-! ## 続いた block -/

/-- `lo` から `hi` までを隙間無く並んだ block に分ける。空の block があってもよい。 -/
def Consecutive : Nat → Nat → List Seg → Prop
  | lo, hi, [] => lo = hi
  | lo, hi, b :: bs => b.start = lo ∧ b.start ≤ b.end_ ∧ Consecutive b.end_ hi bs

variable {lo hi : Nat} {blocks : List Seg}

theorem Consecutive.le (h : Consecutive lo hi blocks) : lo ≤ hi := by
  induction blocks generalizing lo with
  | nil => exact h.le
  | cons b bs ih =>
    obtain ⟨hstart, hle, hrest⟩ := h
    have hend := ih hrest
    omega

theorem Consecutive.within (h : Consecutive lo hi blocks) {b : Seg} (hb : b ∈ blocks) :
    lo ≤ b.start ∧ b.end_ ≤ hi := by
  induction blocks generalizing lo with
  | nil => cases hb
  | cons a bs ih =>
    obtain ⟨hstart, hle, hrest⟩ := h
    have hend := Consecutive.le hrest
    rcases List.mem_cons.1 hb with rfl | hmem
    · exact ⟨hstart.ge, hend⟩
    · have hin := ih hrest hmem
      omega

theorem contains_iff {b : Seg} {c : Nat} : b.contains c = true ↔ b.start ≤ c ∧ c < b.end_ := by
  simp [Seg.contains]

/-- どの列もちょうど一つの block に入る。 -/
theorem Consecutive.countP (h : Consecutive lo hi blocks) (c : Nat) :
    blocks.countP (·.contains c) = if lo ≤ c ∧ c < hi then 1 else 0 := by
  induction blocks generalizing lo with
  | nil =>
    obtain rfl : lo = hi := h
    rw [if_neg (by omega)]
    rfl
  | cons b bs ih =>
    obtain ⟨rfl, hle, hrest⟩ := h
    have hend := Consecutive.le hrest
    rw [List.countP_cons, ih hrest]
    by_cases hin : b.contains c = true
    · have hc := contains_iff.1 hin
      rw [if_pos hin, if_neg (by omega), if_pos (by omega)]
    · have hc := mt contains_iff.2 hin
      rw [if_neg hin, Nat.add_zero]
      exact if_congr (by omega) rfl rfl

/-- block ごとに選んだ成分を集めると、全体から選んだものになる。 -/
theorem Consecutive.perm (h : Consecutive lo hi blocks) (l : List (Nat × Option V)) :
    (blocks.flatMap fun b => l.filter (b.contains ·.1)).Perm
      (l.filter fun e => decide (lo ≤ e.1 ∧ e.1 < hi)) := by
  induction blocks generalizing lo with
  | nil =>
    obtain rfl : lo = hi := h
    rw [List.filter_eq_nil_iff.2 (by intro e _; simp)]
    exact .nil
  | cons b bs ih =>
    obtain ⟨rfl, hle, hrest⟩ := h
    have hend := Consecutive.le hrest
    rw [List.flatMap_cons]
    have hsplit := List.filter_append_perm (b.contains ·.1)
      (l.filter fun e => decide (b.start ≤ e.1 ∧ e.1 < hi))
    rw [List.filter_filter, List.filter_filter] at hsplit
    refine .trans (.append (.of_eq ?_) ((ih hrest).trans (.of_eq ?_))) hsplit
    · refine List.filter_congr fun e _ => ?_
      simp only [Seg.contains, Bool.decide_and]
      grind
    · refine List.filter_congr fun e _ => ?_
      simp only [Seg.contains, Bool.decide_and]
      grind

/-- 選ぶことは、範囲に入る成分を残して番号を付け直すことである。 -/
theorem filterMap_keep (b : Seg) (l : List (Nat × Option V)) :
    l.filterMap (keep bits b) = (l.filter (b.contains ·.1)).map (relabel bits b) := by
  induction l with
  | nil => rfl
  | cons e l ih =>
    rw [List.filterMap_cons, List.filter_cons, keep, ih]
    by_cases hin : b.contains e.1 = true
    · rw [if_pos hin, if_pos hin]
      rfl
    · rw [if_neg hin, if_neg hin]

/-- 幅が足りる範囲では、新しい列番号は元の番号と範囲の始まりの差である。 -/
theorem relabel_of_contains {b : Seg} (hfit : b.end_ - b.start ≤ 2 ^ bits) {e : Nat × Option V}
    (hin : b.contains e.1 = true) : relabel bits b e = (e.1 - b.start, e.2) := by
  have hc := contains_iff.1 hin
  rw [relabel, Nat.mod_eq_of_lt (by omega)]

end

/--
**列を block に分けて取り出しても、成分は失われず、重ならない。**

どの block でも `VSlice` は最後まで進み、結果の offset は 0 から減らずに並んで確保した配列の中を指す。
行ごとの成分は、元の行の block に入る成分を順に並べ、列番号から block の始まりを引いたものである。
-/
theorem slices_partition (bits : Nat) (A : RSpMat V) (hA : A.WellFormed) (blocks : List Seg)
    (hblocks : Consecutive A.col.start A.col.end_ blocks)
    (hfit : ∀ b ∈ blocks, b.end_ - b.start ≤ 2 ^ bits) :
    (∀ b ∈ blocks, ∀ u, ∃ R, vSlice bits A b u = some R ∧ R.row = A.row ∧ R.col = b ∧ R.Readable ∧
      ∀ i < A.rows, R.rowEntries i
        = ((A.rowEntries i).filter (b.contains ·.1)).map fun e => (e.1 - b.start, e.2)) ∧
    (∀ i < A.rows, ∀ e ∈ A.rowEntries i, blocks.countP (·.contains e.1) = 1) ∧
    (∀ i < A.rows, (blocks.flatMap fun b => (A.rowEntries i).filter (b.contains ·.1)).Perm
      (A.rowEntries i)) := by
  have hread := hA.toReadable
  have hcol : ∀ i < A.rows, ∀ e ∈ A.rowEntries i, A.col.start ≤ e.1 ∧ e.1 < A.col.end_ :=
    fun i hi e he => contains_iff.1 (hA.inside e (mem_take_of_mem_row (hread.offset_le_nnz hi) he))
  refine ⟨fun b hb u => ?_, fun i hi e he => ?_, fun i hi => ?_⟩
  · have hin := hblocks.within hb
    have hsup : A.col.supsetEq b = true := by simp [Seg.supsetEq, hin.1, hin.2]
    obtain ⟨R, hrun, hR⟩ := vSlice_spec bits hread hsup u
    refine ⟨R, hrun, hR.row, hR.col, hR.readable hread, fun i hi => ?_⟩
    rw [hR.rowEntries hread hi, filterMap_keep]
    exact List.map_congr_left fun e he => relabel_of_contains (hfit b hb) (List.mem_filter.1 he).2
  · rw [hblocks.countP, if_pos (hcol i hi e he)]
  · refine (hblocks.perm (A.rowEntries i)).trans (.of_eq ?_)
    exact List.filter_eq_self.2 fun e he => decide_eq_true (hcol i hi e he)

/-- 二行三列の行列。 -/
def twoRows : RSpMat Nat where
  row := ⟨0, 2⟩
  col := ⟨0, 3⟩
  nnz := 3
  offset := [0, 2, 3]
  index := [0, 2, 1]
  value := some [5, 6, 7]

theorem twoRows_wellFormed : twoRows.WellFormed where
  rows := by decide
  zero := by decide
  length := by decide
  mono := by decide
  last := by decide
  entries := by decide
  full := by decide
  inside := by decide

theorem slices_partition_two_blocks :
    twoRows.WellFormed ∧ Consecutive twoRows.col.start twoRows.col.end_ [⟨0, 2⟩, ⟨2, 3⟩] ∧
    ∀ i < twoRows.rows, ∀ e ∈ twoRows.rowEntries i,
      List.countP (fun b : Seg => b.contains e.1) [⟨0, 2⟩, ⟨2, 3⟩] = 1 :=
  have hblocks : Consecutive twoRows.col.start twoRows.col.end_ [⟨0, 2⟩, ⟨2, 3⟩] :=
    ⟨rfl, by decide, rfl, by decide, rfl⟩
  ⟨twoRows_wellFormed, hblocks,
    (slices_partition 8 twoRows twoRows_wellFormed [⟨0, 2⟩, ⟨2, 3⟩] hblocks (by decide)).2.1⟩

/-! ## 二度取り出す -/

/-- 使っている所が同じ行列。 -/
structure SameUsed (R S : RSpMat V) : Prop where
  row : R.row = S.row
  col : R.col = S.col
  nnz : R.nnz = S.nnz
  hasValue : R.hasValue = S.hasValue
  offset : ∀ i ≤ R.rows, R.offset[i]? = S.offset[i]?
  entries : R.entries.take (R.offset.getD R.rows 0) = S.entries.take (S.offset.getD S.rows 0)

/--
`c₁` で取り出したものは `nnz()` が最後の offset に等しく、それから `c₂` で取り出したものは元から
`c₂` で取り出したものと同じである。
-/
def Composes (bits₁ bits₂ : Nat) (A : RSpMat V) (c₁ c₂ : Seg) (u₁ u₂ u₃ : Uninit V) : Prop :=
  ∃ R, vSlice bits₁ A c₁ u₁ = some R ∧ R.offset.getD R.rows 0 = R.nnz ∧
    ∃ S T, vSlice bits₂ R c₂ u₂ = some S ∧ vSlice bits₂ A c₂ u₃ = some T ∧ SameUsed S T

/--
成分が全て `c₁` に入り、どの行でも、`c₁` の始まりの分だけ列番号をずらしてから `c₂` に入るものを残しても、
ずらさずに残しても、`c₂` の始まりから数えれば同じ列になる。
-/
structure ShiftInvariant (bits₁ bits₂ : Nat) (A : RSpMat V) (c₁ c₂ : Seg) : Prop where
  covered : ∀ e ∈ A.entries.take A.nnz, c₁.contains e.1 = true
  rows : ∀ i < A.rows,
    (((A.rowEntries i).map (relabel bits₁ c₁)).filter (c₂.contains ·.1)).map (relabel bits₂ c₂)
      = ((A.rowEntries i).filter (c₂.contains ·.1)).map (relabel bits₂ c₂)

section

variable {A R : RSpMat V} {bits₁ bits₂ : Nat} {c₁ c₂ : Seg}

/-- 全て残るのは、全ての成分が範囲に入る時に限る。 -/
theorem SlicedTo.full_iff (hA : A.WellFormed) (hR : SlicedTo bits₁ A c₁ A.rows R) :
    R.offset.getD R.rows 0 = R.nnz ↔ ∀ e ∈ A.entries.take A.nnz, c₁.contains e.1 = true := by
  have hlen : (A.entries.take A.nnz).length = A.nnz := by
    rw [List.length_take, Nat.min_eq_left hA.entries]
  rw [hR.rows_eq, hR.getD_offset (Nat.le_refl _), hA.full, hR.nnz, List.length_filterMap_eq_countP]
  conv_lhs => rhs; rw [← hlen]
  rw [List.countP_eq_length]
  refine forall₂_congr fun e _ => ?_
  unfold keep
  split
  next hin => simp [hin]
  next hin => simp [hin]

/-- 全ての成分が `c₁` に入れば、`c₁` の選択は番号の付け直しだけである。 -/
theorem filterMap_keep_of_forall {l : List (Nat × Option V)}
    (h : ∀ e ∈ l, c₁.contains e.1 = true) :
    l.filterMap (keep bits₁ c₁) = l.map (relabel bits₁ c₁) := by
  rw [filterMap_keep, List.filter_eq_self.2 h]

/-- 範囲が添字の型に収まれば、付け直した番号から元の列が分かる。 -/
theorem map_relabel_inj {b : Seg} (hfit : b.end_ - b.start ≤ 2 ^ bits) {l m : List (Nat × Option V)}
    (hl : ∀ e ∈ l, b.contains e.1 = true) (hm : ∀ e ∈ m, b.contains e.1 = true)
    (h : l.map (relabel bits b) = m.map (relabel bits b)) : l = m := by
  have hback : ∀ l : List (Nat × Option V), (∀ e ∈ l, b.contains e.1 = true) →
      (l.map (relabel bits b)).map (fun e => (e.1 + b.start, e.2)) = l := by
    intro l hl
    rw [List.map_map]
    refine (List.map_congr_left fun e he => ?_).trans (List.map_id l)
    have hc := contains_iff.1 (hl e he)
    rw [Function.comp_apply, relabel_of_contains hfit (hl e he), Nat.sub_add_cancel hc.1]
    rfl
  rw [← hback l hl, h, hback m hm]

/-- どちらの範囲も添字の型に収まれば、条件は元の列番号の列についてのものになる。 -/
theorem shiftInvariant_iff (h₁ : c₁.end_ - c₁.start ≤ 2 ^ bits₁)
    (h₂ : c₂.end_ - c₂.start ≤ 2 ^ bits₂) (hA : A.WellFormed) :
    ShiftInvariant bits₁ bits₂ A c₁ c₂ ↔
      (∀ e ∈ A.entries.take A.nnz, c₁.contains e.1 = true) ∧
      ∀ i < A.rows, ((A.rowEntries i).map fun e => (e.1 - c₁.start, e.2)).filter (c₂.contains ·.1)
        = (A.rowEntries i).filter (c₂.contains ·.1) := by
  have hmap : (∀ e ∈ A.entries.take A.nnz, c₁.contains e.1 = true) → ∀ i < A.rows,
      (A.rowEntries i).map (relabel bits₁ c₁)
        = (A.rowEntries i).map fun e => (e.1 - c₁.start, e.2) := by
    intro hcov i hi
    refine List.map_congr_left fun e he => relabel_of_contains h₁ (hcov e ?_)
    exact mem_take_of_mem_row (hA.toReadable.offset_le_nnz hi) he
  constructor
  · intro h
    refine ⟨h.covered, fun i hi => ?_⟩
    have hrow := h.rows i hi
    rw [hmap h.covered i hi] at hrow
    exact map_relabel_inj h₂ (fun e he => (List.mem_filter.1 he).2)
      (fun e he => (List.mem_filter.1 he).2) hrow
  · rintro ⟨hcov, hrows⟩
    refine ⟨hcov, fun i hi => ?_⟩
    rw [hmap hcov i hi, hrows i hi]

theorem SameUsed.rowEntries {S T : RSpMat V} (h : SameUsed S T) (hS : S.Readable) {i : Nat}
    (hi : i < S.rows) : S.rowEntries i = T.rowEntries i := by
  have hrows : T.rows = S.rows := by rw [rows, rows, h.row]
  have hoff : ∀ k ≤ S.rows, S.offset.getD k 0 = T.offset.getD k 0 := fun k hk => by
    rw [List.getD_eq_getElem?_getD, List.getD_eq_getElem?_getD, h.offset k hk]
  have hlast := hS.offset_le hi (Nat.le_refl _)
  calc S.rowEntries i
      = Rows.row (S.entries.take (S.offset.getD S.rows 0)) (S.offset.getD i 0)
          (S.offset.getD (i + 1) 0) :=
        (row_take _ hlast).symm
    _ = Rows.row (T.entries.take (T.offset.getD T.rows 0)) (T.offset.getD i 0)
          (T.offset.getD (i + 1) 0) := by
        rw [h.entries, hoff i hi.le, hoff (i + 1) hi]
    _ = T.rowEntries i :=
        row_take _ (by rw [hrows, ← hoff (i + 1) hi, ← hoff S.rows (Nat.le_refl _)]; exact hlast)

variable {S T : RSpMat V}

/-- 二度取り出したものの `i` 行目まで。 -/
theorem SlicedTo.take_twice (hA : A.WellFormed) (hR : SlicedTo bits₁ A c₁ A.rows R)
    (hcov : ∀ e ∈ A.entries.take A.nnz, c₁.contains e.1 = true) {i : Nat} (hi : i ≤ A.rows) :
    (R.entries.take (R.offset.getD i 0)).filterMap (keep bits₂ c₂)
      = ((A.entries.take (A.offset.getD i 0)).map (relabel bits₁ c₁)).filterMap (keep bits₂ c₂) := by
  have hin : ∀ e ∈ A.entries.take (A.offset.getD i 0), c₁.contains e.1 = true := fun e he =>
    hcov e (List.take_subset_take_left _ (hA.offset_le_nnz hi) he)
  rw [hR.take_entries hA.toReadable hi, filterMap_keep_of_forall hin]

theorem SlicedTo.sameUsed (hA : A.WellFormed) (hR : SlicedTo bits₁ A c₁ A.rows R)
    (hS : SlicedTo bits₂ R c₂ R.rows S) (hT : SlicedTo bits₂ A c₂ A.rows T)
    (hinv : ShiftInvariant bits₁ bits₂ A c₁ c₂) : SameUsed S T := by
  have hread := hA.toReadable
  have hfirst : A.offset.getD 0 0 = 0 := by rw [List.getD_eq_getElem?_getD, hread.zero]; rfl
  have hrows : ∀ i < A.rows, (A.rowEntries i).filterMap (keep bits₂ c₂ ∘ relabel bits₁ c₁)
      = (A.rowEntries i).filterMap (keep bits₂ c₂) := by
    intro i hi
    rw [← List.filterMap_map, filterMap_keep, filterMap_keep, hinv.rows i hi]
  -- 行ごとに同じなので、どの行の終わりまででも同じである
  have htake : ∀ i ≤ A.rows, (R.entries.take (R.offset.getD i 0)).filterMap (keep bits₂ c₂)
      = (A.entries.take (A.offset.getD i 0)).filterMap (keep bits₂ c₂) := by
    intro i hi
    rw [hR.take_twice hA hinv.covered hi, List.filterMap_map]
    exact filterMap_take_congr A.entries (fun i => A.offset.getD i 0) hfirst hread.mono hrows hi
  have hrowsR := hR.rows_eq
  have hrowsS : S.rows = A.rows := hS.rows_eq.trans hrowsR
  refine ⟨?_, by rw [hS.col, hT.col], by rw [hS.nnz, hT.nnz, hR.nnz], ?_, ?_, ?_⟩
  · rw [hS.row, hT.row, hR.row]
  · rw [hS.written.hasValue, hT.written.hasValue, hR.written.hasValue]
  · intro i hi
    rw [hrowsS] at hi
    rw [hS.offset i (by rw [hrowsR]; exact hi), hT.offset i hi, htake i hi]
  · rw [hrowsS, hS.take_entries (hR.readable hread) hrowsR.ge, htake _ (Nat.le_refl _), hT.rows_eq,
      hT.take_entries hread (Nat.le_refl _)]

theorem SlicedTo.shiftInvariant (hA : A.WellFormed) (hR : SlicedTo bits₁ A c₁ A.rows R)
    (hS : SlicedTo bits₂ R c₂ R.rows S) (hT : SlicedTo bits₂ A c₂ A.rows T)
    (hfull : R.offset.getD R.rows 0 = R.nnz) (hsame : SameUsed S T) :
    ShiftInvariant bits₁ bits₂ A c₁ c₂ := by
  have hread := hA.toReadable
  have hreadR := hR.readable hread
  have hcov := (hR.full_iff hA).1 hfull
  have hrowsR := hR.rows_eq
  refine ⟨hcov, fun i hi => ?_⟩
  have hin : ∀ e ∈ A.rowEntries i, c₁.contains e.1 = true := fun e he =>
    hcov e (mem_take_of_mem_row (hread.offset_le_nnz hi) he)
  have hrow := hsame.rowEntries (hS.readable hreadR)
    (show i < S.rows by rw [hS.rows_eq, hrowsR]; exact hi)
  rw [hS.rowEntries hreadR (by rw [hrowsR]; exact hi), hT.rowEntries hread hi,
    hR.rowEntries hread hi, filterMap_keep_of_forall hin, filterMap_keep, filterMap_keep] at hrow
  exact hrow

end

theorem composes_iff {bits₁ bits₂ : Nat} {A : RSpMat V} {c₁ c₂ : Seg} (hA : A.WellFormed)
    (h₁ : A.col.supsetEq c₁ = true) (h₂ : c₁.supsetEq c₂ = true) (u₁ u₂ u₃ : Uninit V) :
    Composes bits₁ bits₂ A c₁ c₂ u₁ u₂ u₃ ↔ ShiftInvariant bits₁ bits₂ A c₁ c₂ := by
  have hread := hA.toReadable
  have h₃ : A.col.supsetEq c₂ = true := by
    simp only [Seg.supsetEq, Bool.and_eq_true, decide_eq_true_eq] at h₁ h₂ ⊢
    omega
  obtain ⟨R, hrunR, hR⟩ := vSlice_spec bits₁ hread h₁ u₁
  obtain ⟨S, hrunS, hS⟩ := vSlice_spec bits₂ (hR.readable hread) (by rw [hR.col]; exact h₂) u₂
  obtain ⟨T, hrunT, hT⟩ := vSlice_spec bits₂ hread h₃ u₃
  constructor
  · rintro ⟨R', hR', hfull, S', T', hS', hT', hsame⟩
    obtain rfl : R = R' := Option.some.inj (hrunR.symm.trans hR')
    obtain rfl : S = S' := Option.some.inj (hrunS.symm.trans hS')
    obtain rfl : T = T' := Option.some.inj (hrunT.symm.trans hT')
    exact hR.shiftInvariant hA hS hT hfull hsame
  · intro hinv
    exact ⟨R, hrunR, (hR.full_iff hA).2 hinv.covered, S, T, hrunS, hrunT, hR.sameUsed hA hS hT hinv⟩

/-- 0 から始まる範囲では、列番号はずれない。 -/
theorem shiftInvariant_of_start_zero {bits₁ bits₂ : Nat} {A : RSpMat V} {c₁ c₂ : Seg}
    (hA : A.WellFormed) (hstart : c₁.start = 0) (hfit : c₁.end_ ≤ 2 ^ bits₁)
    (hcov : ∀ e ∈ A.entries.take A.nnz, c₁.contains e.1 = true) :
    ShiftInvariant bits₁ bits₂ A c₁ c₂ := by
  refine ⟨hcov, fun i hi => ?_⟩
  have hid : (A.rowEntries i).map (relabel bits₁ c₁) = A.rowEntries i := by
    refine (List.map_congr_left fun e he => ?_).trans (List.map_id _)
    have hin := hcov e (mem_take_of_mem_row (hA.toReadable.offset_le_nnz hi) he)
    rw [relabel_of_contains (by omega) hin, hstart, Nat.sub_zero]
    rfl
  rw [hid]

/--
**取り出したものからもう一度取り出せるのは、全ての成分が最初の範囲にあり、列番号のずれが結果を
変えない時に限る。**

最初の範囲が 0 から始まれば、条件は全ての成分がその範囲にあることだけである。範囲が添字の型に収まれば、
ずれが結果を変えないとは、どの行でも、`c₂` に入る成分の列と、列番号を `c₁` の始まりだけ減らして `c₂` に
入る成分の列が等しいことである。
-/
theorem slice_compose_iff (bits₁ bits₂ : Nat) (A : RSpMat V) (hA : A.WellFormed) (c₁ c₂ : Seg)
    (h₁ : A.col.supsetEq c₁ = true) (h₂ : c₁.supsetEq c₂ = true) (u₁ u₂ u₃ : Uninit V) :
    (Composes bits₁ bits₂ A c₁ c₂ u₁ u₂ u₃ ↔ ShiftInvariant bits₁ bits₂ A c₁ c₂) ∧
    (c₁.start = 0 → c₁.end_ ≤ 2 ^ bits₁ → (Composes bits₁ bits₂ A c₁ c₂ u₁ u₂ u₃ ↔
      ∀ e ∈ A.entries.take A.nnz, c₁.contains e.1 = true)) ∧
    (c₁.end_ - c₁.start ≤ 2 ^ bits₁ → c₂.end_ - c₂.start ≤ 2 ^ bits₂ →
      (Composes bits₁ bits₂ A c₁ c₂ u₁ u₂ u₃ ↔
        (∀ e ∈ A.entries.take A.nnz, c₁.contains e.1 = true) ∧
        ∀ i < A.rows,
          ((A.rowEntries i).map fun e => (e.1 - c₁.start, e.2)).filter (c₂.contains ·.1)
            = (A.rowEntries i).filter (c₂.contains ·.1))) := by
  have hiff : Composes bits₁ bits₂ A c₁ c₂ u₁ u₂ u₃ ↔ ShiftInvariant bits₁ bits₂ A c₁ c₂ :=
    composes_iff hA h₁ h₂ u₁ u₂ u₃
  refine ⟨hiff, fun hstart hfit => ?_, fun hfit₁ hfit₂ => ?_⟩
  · exact hiff.trans ⟨fun hinv => hinv.covered, shiftInvariant_of_start_zero hA hstart hfit⟩
  · exact hiff.trans (shiftInvariant_iff hfit₁ hfit₂ hA)

/-- `new` の残した中身の一例。 -/
def leftover : Uninit Nat := { offset := fun _ => 7, index := fun _ => 7, value := fun _ => 7 }

theorem slice_compose_whole :
    twoRows.WellFormed ∧ twoRows.col.supsetEq ⟨0, 3⟩ = true ∧ Seg.supsetEq ⟨0, 3⟩ ⟨1, 3⟩ = true ∧
    Composes 32 32 twoRows ⟨0, 3⟩ ⟨1, 3⟩ leftover leftover leftover :=
  ⟨twoRows_wellFormed, by decide, by decide,
    ((slice_compose_iff 32 32 twoRows twoRows_wellFormed ⟨0, 3⟩ ⟨1, 3⟩ (by decide) (by decide)
      leftover leftover leftover).2.1 rfl (by decide)).2 (by decide)⟩

/-- 列が 1 から始まる一行の行列。 -/
def shifted : RSpMat Nat where
  row := ⟨0, 1⟩
  col := ⟨1, 3⟩
  nnz := 2
  offset := [0, 2]
  index := [1, 2]
  value := some [5, 6]

theorem shifted_wellFormed : shifted.WellFormed where
  rows := by decide
  zero := by decide
  length := by decide
  mono := by decide
  last := by decide
  entries := by decide
  full := by decide
  inside := by decide

/--
成分の一部だけを取り出すと `nnz()` は元のままで、0 から始まらない範囲で取り出すと、同じ範囲で
もう一度取り出しただけで成分が落ちる。
-/
theorem slice_compose_fails :
    (twoRows.WellFormed ∧ twoRows.col.supsetEq ⟨0, 2⟩ = true ∧ Seg.supsetEq ⟨0, 2⟩ ⟨0, 2⟩ = true ∧
      ¬ Composes 32 32 twoRows ⟨0, 2⟩ ⟨0, 2⟩ leftover leftover leftover) ∧
    (shifted.WellFormed ∧ shifted.col.supsetEq ⟨1, 3⟩ = true ∧ Seg.supsetEq ⟨1, 3⟩ ⟨1, 3⟩ = true ∧
      ¬ Composes 32 32 shifted ⟨1, 3⟩ ⟨1, 3⟩ leftover leftover leftover) := by
  refine ⟨⟨twoRows_wellFormed, by decide, by decide, fun h => ?_⟩,
    shifted_wellFormed, by decide, by decide, fun h => ?_⟩
  · have hinv := (composes_iff twoRows_wellFormed (by decide) (by decide) _ _ _).1 h
    exact absurd hinv.covered (by decide)
  · have hinv := (composes_iff shifted_wellFormed (by decide) (by decide) _ _ _).1 h
    exact absurd (hinv.rows 0 (by decide)) (by decide)

end RSpMat

end QuiltDB
