import QuiltDB.Apps.RSpMat

/-!
# 行の範囲の読み込み

`RSpMat::Load` には、行の番号・file の中の位置・成分の位置・成分の個数という四つの座標が現れる。
`.rowcnt` は行の番号をそのまま位置として読まれ、`.colidx` と `.value` は終わりの位置を個数として
読まれる。どちらも、範囲が 0 行目から始まる時だけ正しい。

* `load_rows_iff` — `Load` が頼まれた行をそのまま返すのは、その位置にある offset が頼まれた行の
  もので、頼まれた成分が file の先頭にある時に限る
-/

namespace QuiltDB

open Rows

namespace StoredMat

variable {V : Type}

/-- 正しく保存された行列。 -/
structure WellFormed (st : StoredMat V) : Prop where
  rows : st.row.start < st.row.end_ ∧ st.row.end_ < 2 ^ 64
  cols : st.col.start < st.col.end_
  rowcnt : st.rowcnt.isSome = true
  length : (st.rowcnt.getD []).length = st.row.end_ - st.row.start + 1
  zero : st.cnt 0 = 0
  mono : ∀ i < st.row.end_ - st.row.start, st.cnt i ≤ st.cnt (i + 1)
  colidx : st.colidx.isSome = true
  indices : (st.colidx.getD []).length = st.cnt (st.row.end_ - st.row.start)
  values : ∀ vs, st.value = some vs → vs.length = st.cnt (st.row.end_ - st.row.start)
  /-- file の大きさは `off_t` に収まる。 -/
  rowcntSize : (st.rowcnt.getD []).length * 8 < 2 ^ 63
  sizeofI : 0 < st.sizeofI ∧ st.cnt (st.row.end_ - st.row.start) * st.sizeofI < 2 ^ 63
  sizeofV : 0 < st.sizeofV ∧ st.cnt (st.row.end_ - st.row.start) * st.sizeofV < 2 ^ 63

/-- 頼まれた行。 -/
def target (st : StoredMat V) (row : Seg) : Seg := if row = Seg.all then st.row else row

/-- 空でなく、file の行に含まれる範囲。 -/
structure Inside (st : StoredMat V) (seg : Seg) : Prop where
  nonempty : seg.start < seg.end_
  lower : st.row.start ≤ seg.start
  upper : seg.end_ ≤ st.row.end_

/-- `A` が範囲 `seg` の行をそのまま持つ。 -/
structure Loaded (st : StoredMat V) (seg : Seg) (A : RSpMat V) : Prop where
  row : A.row = seg
  col : A.col = st.col
  zero : A.offset[0]? = some 0
  nnz : A.nnz = st.cnt (seg.end_ - st.row.start) - st.cnt (seg.start - st.row.start)
  entries : ∀ i < seg.end_ - seg.start, A.rowEntries i = st.rowEntries (seg.start + i)

/-- `Load(name, row)` はどの `CHECK` にも失敗せず、頼まれた行をそのまま返す。 -/
def LoadsRows (st : StoredMat V) (row : Seg) : Prop :=
  ∃ A, RSpMat.load st row = some A ∧ st.Loaded (st.target row) A

/-- `Load` が `.rowcnt` を読み始める位置。行の番号の byte 数は `size_t` で折り返す。 -/
def seekRow (seg : Seg) : Nat := seg.start % 2 ^ 61

/--
`Load` の読む所に、頼まれた行がある。

`seekRow` からの `.rowcnt` が、頼まれた行の offset を最初の行から数えたもので、頼まれた成分が
file の先頭から並んでいる。
-/
structure Aligned (st : StoredMat V) (seg : Seg) : Prop where
  inFile : seekRow seg + (seg.end_ - seg.start) < (st.rowcnt.getD []).length
  offsets : ∀ i ≤ seg.end_ - seg.start,
    st.cnt (seekRow seg + i) + st.cnt (seg.start - st.row.start)
      = st.cnt (seg.start - st.row.start + i)
  first : st.entries.take
      (st.cnt (seg.end_ - st.row.start) - st.cnt (seg.start - st.row.start))
    = Rows.row st.entries (st.cnt (seg.start - st.row.start)) (st.cnt (seg.end_ - st.row.start))

/-! ## file を読む -/

theorem subSize_eq {a b : Nat} (hba : b ≤ a) (ha : a < 2 ^ 64) : subSize a b = a - b := by
  unfold subSize
  rw [show a + 2 ^ 64 - b = (a - b) + 2 ^ 64 by omega, Nat.add_mod_right, Nat.mod_eq_of_lt (by omega)]

/-- 折り返さない位置からの読み込み。 -/
theorem loadBin_eq {T : Type} {sz offset : Nat} (hsz : 0 < sz) (hoff : offset * sz < 2 ^ 63)
    (data : List T) (n : Nat) :
    loadBin sz (some data) offset n
      = if offset + n ≤ data.length ∨ n = 0 then some ((data.drop offset).take n) else none := by
  have hmod : offset * sz % 2 ^ 64 = offset * sz := Nat.mod_eq_of_lt (by omega)
  unfold loadBin
  simp only [hmod, Nat.mul_div_cancel _ hsz, List.length_drop]
  rw [if_neg (by omega)]
  exact if_congr (by omega) rfl rfl

/-- `.rowcnt` の読み込み。file の終わりを越えると失敗する。 -/
theorem loadBin_rowcnt {rc : List Nat} (hsize : rc.length * 8 < 2 ^ 63) (seg : Seg) (n : Nat) :
    loadBin 8 (some rc) seg.start (n + 1)
      = if seekRow seg + n < rc.length then some ((rc.drop (seekRow seg)).take (n + 1)) else none := by
  have hbytes : seg.start * 8 % 2 ^ 64 = seekRow seg * 8 := by
    rw [seekRow, show (2 : Nat) ^ 64 = 2 ^ 61 * 8 by norm_num, Nat.mul_mod_mul_right]
  unfold loadBin
  simp only [hbytes, Nat.mul_div_cancel _ (show 0 < 8 by decide), List.length_drop]
  by_cases hin : seekRow seg + n < rc.length
  · rw [if_neg (by omega), if_pos (by omega), if_pos hin]
  · rw [if_neg hin]
    by_cases hseek : 2 ^ 63 ≤ seekRow seg * 8
    · rw [if_pos hseek]
    · rw [if_neg hseek, if_neg (by omega)]

/-! ## `Load` の結果 -/

/-- `Load` が最後まで進んだ時の行列。 -/
def image (st : StoredMat V) (seg : Seg) : RSpMat V where
  row := seg
  col := st.col
  nnz := st.cnt (seekRow seg + (seg.end_ - seg.start))
  offset := (((st.rowcnt.getD []).drop (seekRow seg)).take (seg.end_ - seg.start + 1)).map
    (subSize · (st.cnt (seekRow seg)))
  index := ((st.colidx.getD []).drop (st.cnt (seekRow seg))).take
    (st.cnt (seekRow seg + (seg.end_ - seg.start)))
  value := if binLength st.value = 0 then none else
    st.value.map fun vs =>
      (vs.drop (st.cnt (seekRow seg))).take (st.cnt (seekRow seg + (seg.end_ - seg.start)))

/-- `Load` が読む範囲が file の中にある。 -/
structure Readable (st : StoredMat V) (seg : Seg) : Prop where
  rowcnt : seekRow seg + (seg.end_ - seg.start) < (st.rowcnt.getD []).length
  entries : st.cnt (seekRow seg) + st.cnt (seekRow seg + (seg.end_ - seg.start))
      ≤ st.cnt (st.row.end_ - st.row.start) ∨
    st.cnt (seekRow seg + (seg.end_ - seg.start)) = 0

section

variable {st : StoredMat V} {row seg : Seg}

theorem WellFormed.inside_target (hst : st.WellFormed) (hrow : row = Seg.all ∨ st.Inside row) :
    st.Inside (st.target row) := by
  unfold target
  split
  next => exact ⟨hst.rows.1, Nat.le_refl _, Nat.le_refl _⟩
  next hne =>
    obtain rfl | hin := hrow
    · exact absurd rfl hne
    · exact hin

theorem Inside.rowOf_eq (hin : st.Inside (st.target row)) :
    RSpMat.rowOf st.row row = some (st.target row) := by
  unfold RSpMat.rowOf
  unfold target at hin ⊢
  split
  next => rfl
  next hne =>
    rw [if_neg hne] at hin
    rw [if_pos (by simp [Seg.subsetEq, hin.lower, hin.upper])]

theorem Inside.size_eq (hst : st.WellFormed) (hin : st.Inside seg) :
    seg.size = seg.end_ - seg.start :=
  subSize_eq hin.nonempty.le (by have := hst.rows.2; have := hin.upper; omega)

/-- offset は減らない。 -/
theorem WellFormed.cnt_le (hst : st.WellFormed) {i j : Nat} (hij : i ≤ j)
    (hj : j < (st.rowcnt.getD []).length) : st.cnt i ≤ st.cnt j := by
  rw [hst.length] at hj
  exact le_of_steps hst.mono hij (by omega)

theorem WellFormed.cnt_le_total (hst : st.WellFormed) {i : Nat}
    (hi : i < (st.rowcnt.getD []).length) : st.cnt i ≤ st.cnt (st.row.end_ - st.row.start) := by
  have hlen := hst.length
  exact hst.cnt_le (by omega) (by omega)

/-- 値の読み込みは、列番号の読み込みが通れば通る。 -/
theorem WellFormed.loadValue_eq (hst : st.WellFormed) {first last : Nat}
    (hfirst : first ≤ st.cnt (st.row.end_ - st.row.start))
    (hread : first + last ≤ st.cnt (st.row.end_ - st.row.start) ∨ last = 0) :
    RSpMat.loadValue st first last = some (if binLength st.value = 0 then none
      else st.value.map fun vs => (vs.drop first).take last) := by
  unfold RSpMat.loadValue
  split
  next => rfl
  next hne =>
    cases hvs : st.value with
    | none => rw [hvs] at hne; exact absurd rfl hne
    | some vs =>
      have hbytes : first * st.sizeofV < 2 ^ 63 :=
        (Nat.mul_le_mul_right _ hfirst).trans_lt hst.sizeofV.2
      rw [loadBin_eq hst.sizeofV.1 hbytes, if_pos (by rw [hst.values vs hvs]; exact hread)]
      rfl

/-- 列番号の読み込み。 -/
theorem WellFormed.loadIndex_eq (hst : st.WellFormed) {first last : Nat}
    (hfirst : first ≤ st.cnt (st.row.end_ - st.row.start)) :
    loadBin st.sizeofI st.colidx first last
      = if first + last ≤ st.cnt (st.row.end_ - st.row.start) ∨ last = 0 then
          some (((st.colidx.getD []).drop first).take last)
        else none := by
  obtain ⟨idx, hidx⟩ := Option.isSome_iff_exists.1 hst.colidx
  have hlen := hst.indices
  have hbytes : first * st.sizeofI < 2 ^ 63 :=
    (Nat.mul_le_mul_right _ hfirst).trans_lt hst.sizeofI.2
  rw [hidx, Option.getD_some] at hlen ⊢
  rw [loadBin_eq hst.sizeofI.1 hbytes, hlen]

/-- `.rowcnt` の読んだ部分の `i` 番目。 -/
theorem getElem?_rowcnt {rc : List Nat} {n i : Nat} (hin : seekRow seg + n < rc.length) (hi : i ≤ n) :
    ((rc.drop (seekRow seg)).take (n + 1))[i]? = some (rc.getD (seekRow seg + i) 0) := by
  rw [List.getElem?_take_of_lt (by omega), List.getElem?_drop, List.getD_eq_getElem?_getD,
    List.getElem?_eq_getElem (by omega)]
  rfl

/-- **`Load` は、読む範囲が file の中にある時にだけ最後まで進む。** -/
theorem WellFormed.load_eq_some (hst : st.WellFormed) (hin : st.Inside (st.target row))
    {A : RSpMat V} :
    RSpMat.load st row = some A ↔ st.Readable (st.target row) ∧ A = st.image (st.target row) := by
  obtain ⟨rc, hrc⟩ := Option.isSome_iff_exists.1 hst.rowcnt
  have hrows : st.rowSeg = some st.row := by simp [rowSeg, Seg.valid, hst.rows.1]
  have hcols : st.colSeg = some st.col := by simp [colSeg, Seg.valid, hst.cols]
  have htotal : subSize (binLength st.rowcnt) 1 = st.row.size := by
    have hlen := hst.length
    have hrange := hst.rows
    have hbytes := hst.rowcntSize
    rw [binLength, hlen, Seg.size, subSize_eq (by omega) (by omega), subSize_eq (by omega) (by omega)]
    omega
  have hrcD : st.rowcnt.getD [] = rc := by rw [hrc]; rfl
  have hsize := hst.rowcntSize
  rw [hrcD] at hsize
  have hcnt : ∀ j, rc.getD j 0 = st.cnt j := fun j => by rw [cnt, hrcD]
  have hrowOf := hin.rowOf_eq
  have hn := hin.size_eq hst
  generalize st.target row = seg at hin hrowOf hn ⊢
  rw [RSpMat.load, hrows, Option.bind_eq_bind, Option.bind_some, hrowOf, Option.bind_some, hcols,
    Option.bind_some]
  dsimp only
  rw [if_neg (not_not_intro htotal), hrc, hn, loadBin_rowcnt hsize]
  by_cases hfile : seekRow seg + (seg.end_ - seg.start) < rc.length
  · have hfirst : st.cnt (seekRow seg) ≤ st.cnt (st.row.end_ - st.row.start) :=
      hst.cnt_le_total (by rw [hrcD]; omega)
    simp only [Option.bind_eq_bind]
    rw [if_pos hfile, Option.bind_some, getElem?_rowcnt hfile (Nat.zero_le _), Option.bind_some,
      getElem?_rowcnt hfile (Nat.le_refl _), Option.bind_some, Nat.add_zero, hcnt, hcnt,
      hst.loadIndex_eq hfirst]
    by_cases hread : st.cnt (seekRow seg) + st.cnt (seekRow seg + (seg.end_ - seg.start))
        ≤ st.cnt (st.row.end_ - st.row.start) ∨ st.cnt (seekRow seg + (seg.end_ - seg.start)) = 0
    · rw [if_pos hread, Option.bind_some, hst.loadValue_eq hfirst hread, Option.bind_some]
      have himage : ∀ B : RSpMat V, B = st.image seg →
          (some B = some A ↔ st.Readable seg ∧ A = st.image seg) := by
        rintro B rfl
        rw [Option.some.injEq, eq_comm]
        exact ⟨fun h => ⟨⟨by rw [hrcD]; exact hfile, hread⟩, h⟩, fun h => h.2⟩
      apply himage
      rw [image, hrcD]
    · rw [if_neg hread]
      exact ⟨by rintro ⟨⟩, fun h => absurd h.1.entries hread⟩
  · rw [if_neg hfile]
    exact ⟨by rintro ⟨⟩, fun h => absurd (by rw [← hrcD]; exact h.1.rowcnt) hfile⟩

/-! ## 読んだ行列の行 -/

theorem WellFormed.length_entries (hst : st.WellFormed) :
    st.entries.length = st.cnt (st.row.end_ - st.row.start) := by
  unfold entries entriesOf
  split
  next => rw [List.length_map, hst.indices]
  next vs hvs => rw [List.length_zipWith, hst.indices, hst.values vs hvs, Nat.min_self]

theorem entriesOf_window (index : List Nat) (value : Option (List V)) (a n : Nat) :
    entriesOf ((index.drop a).take n) (value.map fun vs => (vs.drop a).take n)
      = Rows.row (entriesOf index value) a (a + n) := by
  rw [Rows.row, List.drop_take, Nat.add_sub_cancel_left]
  cases value with
  | none => simp [entriesOf]
  | some vs => simp [entriesOf, List.take_zipWith, List.drop_zipWith]

/-- 読んだ成分は、最初の offset から続く部分である。 -/
theorem WellFormed.image_entries (hst : st.WellFormed) :
    (st.image seg).entries = Rows.row st.entries (st.cnt (seekRow seg))
      (st.cnt (seekRow seg) + st.cnt (seekRow seg + (seg.end_ - seg.start))) := by
  rw [entries, ← entriesOf_window]
  unfold RSpMat.entries image
  dsimp only
  split
  next hempty =>
    cases hvs : st.value with
    | none => rfl
    | some vs =>
      -- 空の file からは何も読まないが、その時は成分も無い
      have hzero : (st.colidx.getD []).length = 0 := by
        rw [hst.indices, ← hst.values vs hvs]
        rw [hvs] at hempty
        exact hempty
      rw [List.length_eq_zero_iff.1 hzero, List.drop_nil, List.take_nil]
      rfl
  next => rfl

theorem WellFormed.image_offset (hst : st.WellFormed) (hread : st.Readable seg) {i : Nat}
    (hi : i ≤ seg.end_ - seg.start) :
    (st.image seg).offset[i]? = some (st.cnt (seekRow seg + i) - st.cnt (seekRow seg)) := by
  have hfile := hread.rowcnt
  have hle : st.cnt (seekRow seg) ≤ st.cnt (seekRow seg + i) := hst.cnt_le (by omega) (by omega)
  have htotal := hst.cnt_le_total (show seekRow seg + i < _ by omega)
  have hbound : st.cnt (seekRow seg + i) < 2 ^ 64 := by
    have hsz := hst.sizeofI
    have hmul := Nat.le_mul_of_pos_right (st.cnt (st.row.end_ - st.row.start)) hsz.1
    omega
  unfold image
  dsimp only
  rw [List.getElem?_map, getElem?_rowcnt hfile hi]
  exact congrArg some (subSize_eq hle hbound)

/-- 読んだ行列の `i` 行目は、`.rowcnt` の `seekRow` から `i` 番目の行である。 -/
theorem WellFormed.image_rowEntries (hst : st.WellFormed) (hread : st.Readable seg) {i : Nat}
    (hi : i < seg.end_ - seg.start) :
    (st.image seg).rowEntries i
      = Rows.row st.entries (st.cnt (seekRow seg + i)) (st.cnt (seekRow seg + (i + 1))) := by
  have hfile := hread.rowcnt
  have hfirst : st.cnt (seekRow seg) ≤ st.cnt (seekRow seg + i) := hst.cnt_le (by omega) (by omega)
  have hnext : st.cnt (seekRow seg + i) ≤ st.cnt (seekRow seg + (i + 1)) :=
    hst.cnt_le (by omega) (by omega)
  have hlast : st.cnt (seekRow seg + (i + 1)) ≤ st.cnt (seekRow seg + (seg.end_ - seg.start)) :=
    hst.cnt_le (by omega) (by omega)
  rw [RSpMat.rowEntries, List.getD_eq_getElem?_getD, List.getD_eq_getElem?_getD,
    hst.image_offset hread hi.le, hst.image_offset hread (show i + 1 ≤ _ from hi),
    Option.getD_some, Option.getD_some,
    hst.image_entries, row_row _ (by omega), Nat.add_sub_cancel' hfirst,
    Nat.add_sub_cancel' (hfirst.trans hnext)]

/-! ## 頼まれた行との比較 -/

theorem Inside.position_lt (hst : st.WellFormed) (hin : st.Inside seg) {i : Nat}
    (hi : i ≤ seg.end_ - seg.start) :
    seg.start - st.row.start + i < (st.rowcnt.getD []).length := by
  have hlen := hst.length
  obtain ⟨hne, hlo, hhi⟩ := hin
  omega

theorem Inside.position_end (hin : st.Inside seg) :
    seg.end_ - st.row.start = seg.start - st.row.start + (seg.end_ - seg.start) := by
  obtain ⟨hne, hlo, hhi⟩ := hin
  omega

theorem Inside.rowEntries_eq (hin : st.Inside seg) (i : Nat) :
    st.rowEntries (seg.start + i) = Rows.row st.entries (st.cnt (seg.start - st.row.start + i))
      (st.cnt (seg.start - st.row.start + (i + 1))) := by
  have hlo := hin.lower
  rw [rowEntries, show seg.start + i - st.row.start = seg.start - st.row.start + i by omega,
    Nat.add_assoc]

/-- 読む所に頼まれた行があれば、`Load` はそれを返す。 -/
theorem Aligned.loaded (hst : st.WellFormed) (hin : st.Inside seg) (hal : st.Aligned seg) :
    st.Readable seg ∧ st.Loaded seg (st.image seg) := by
  have hzero : st.cnt (seekRow seg) = 0 := by
    have h := hal.offsets 0 (Nat.zero_le _)
    rw [Nat.add_zero, Nat.add_zero] at h
    omega
  have hend := hal.offsets _ (Nat.le_refl _)
  rw [← hin.position_end] at hend
  have hread : st.Readable seg :=
    ⟨hal.inFile, .inl (by rw [hzero, Nat.zero_add]; exact hst.cnt_le_total hal.inFile)⟩
  refine ⟨hread, rfl, rfl, ?_, ?_, ?_⟩
  · rw [hst.image_offset hread (Nat.zero_le _), Nat.add_zero, Nat.sub_self]
  · show st.cnt (seekRow seg + (seg.end_ - seg.start)) = _
    omega
  · intro i hi
    have hnow := hal.offsets i hi.le
    have hnext := hal.offsets (i + 1) hi
    have hlast : st.cnt (seekRow seg + (i + 1)) ≤ st.cnt (seekRow seg + (seg.end_ - seg.start)) :=
      hst.cnt_le (by omega) hal.inFile
    calc (st.image seg).rowEntries i
        = Rows.row st.entries (st.cnt (seekRow seg + i)) (st.cnt (seekRow seg + (i + 1))) :=
          hst.image_rowEntries hread hi
      _ = Rows.row (st.entries.take
            (st.cnt (seg.end_ - st.row.start) - st.cnt (seg.start - st.row.start)))
            (st.cnt (seekRow seg + i)) (st.cnt (seekRow seg + (i + 1))) :=
          (row_take _ (by omega)).symm
      _ = Rows.row st.entries (st.cnt (seg.start - st.row.start + i))
            (st.cnt (seg.start - st.row.start + (i + 1))) := by
          rw [hal.first, row_row _ (by omega), Nat.add_comm _ (st.cnt (seekRow seg + i)),
            Nat.add_comm _ (st.cnt (seekRow seg + (i + 1))), hnow, hnext]
      _ = st.rowEntries (seg.start + i) := (hin.rowEntries_eq i).symm

/-- 頼まれた行を返したなら、読んだ所に頼まれた行があった。 -/
theorem Loaded.aligned (hst : st.WellFormed) (hin : st.Inside seg) (hread : st.Readable seg)
    (hld : st.Loaded seg (st.image seg)) : st.Aligned seg := by
  have hfile := hread.rowcnt
  have hrows : ∀ i < seg.end_ - seg.start,
      Rows.row st.entries (st.cnt (seekRow seg + i)) (st.cnt (seekRow seg + (i + 1)))
        = Rows.row st.entries (st.cnt (seg.start - st.row.start + i))
            (st.cnt (seg.start - st.row.start + (i + 1))) := fun i hi => by
    rw [← hst.image_rowEntries hread hi, ← hin.rowEntries_eq, hld.entries i hi]
  -- 行の長さが同じなので、offset の増え方も同じである
  have hstep : ∀ i < seg.end_ - seg.start,
      st.cnt (seekRow seg + (i + 1)) + st.cnt (seg.start - st.row.start + i)
        = st.cnt (seg.start - st.row.start + (i + 1)) + st.cnt (seekRow seg + i) := fun i hi => by
    have hlen := congrArg List.length (hrows i hi)
    rw [length_row _ (by rw [hst.length_entries]; exact hst.cnt_le_total (by omega)),
      length_row _ (by rw [hst.length_entries]; exact hst.cnt_le_total (hin.position_lt hst hi))]
      at hlen
    have hO : st.cnt (seekRow seg + i) ≤ st.cnt (seekRow seg + (i + 1)) :=
      hst.cnt_le (by omega) (by omega)
    have hL : st.cnt (seg.start - st.row.start + i) ≤ st.cnt (seg.start - st.row.start + (i + 1)) :=
      hst.cnt_le (by omega) (hin.position_lt hst hi)
    omega
  have hsum : ∀ i ≤ seg.end_ - seg.start,
      st.cnt (seekRow seg + i) + st.cnt (seg.start - st.row.start)
        = st.cnt (seg.start - st.row.start + i) + st.cnt (seekRow seg) := fun i hi => by
    induction i with
    | zero => rw [Nat.add_zero, Nat.add_zero, Nat.add_comm]
    | succ i ih =>
      have hi' := ih (by omega)
      have hs := hstep i hi
      omega
  have hend := hsum _ (Nat.le_refl _)
  rw [← hin.position_end] at hend
  -- `offset_[rows()]` を個数として読むので、最初の offset は 0 でなければならない
  have hnnz : st.cnt (seekRow seg + (seg.end_ - seg.start)) = _ := hld.nnz
  have hmono : st.cnt (seg.start - st.row.start) ≤ st.cnt (seg.end_ - st.row.start) := by
    rw [hin.position_end]
    exact hst.cnt_le (by omega) (hin.position_lt hst (Nat.le_refl _))
  have hzero : st.cnt (seekRow seg) = 0 := by omega
  refine ⟨hfile, fun i hi => by rw [hsum i hi, hzero, Nat.add_zero], ?_⟩
  have hcat := row_congr st.entries st.entries
    (a := fun i => st.cnt (seekRow seg + i)) (b := fun i => st.cnt (seg.start - st.row.start + i))
    (n := seg.end_ - seg.start)
    (fun i hi => hst.cnt_le (by omega) (by omega))
    (fun i hi => hst.cnt_le (by omega) (hin.position_lt hst hi))
    (fun i hi => by rw [hst.length_entries]; exact hst.cnt_le_total (by omega))
    (fun i hi => by rw [hst.length_entries]; exact hst.cnt_le_total (hin.position_lt hst hi.le))
    hrows
  rw [Nat.add_zero, Nat.add_zero, hzero, row_zero, hnnz, ← hin.position_end] at hcat
  exact hcat

/--
折り返さない行の番号では、条件は次のどちらかである。

file が 0 行目から始まり、頼まれた行より前に成分が無い。または、file の先頭から `end_` 行が
全て空である。
-/
def Leading (st : StoredMat V) (seg : Seg) : Prop :=
  (st.row.start = 0 ∧ st.cnt seg.start = 0) ∨
    (seg.end_ ≤ st.row.end_ - st.row.start ∧ st.cnt seg.end_ = 0)

theorem WellFormed.cnt_eq_zero (hst : st.WellFormed) {i j : Nat} (hij : i ≤ j)
    (hj : j < (st.rowcnt.getD []).length) (hzero : st.cnt j = 0) : st.cnt i = 0 := by
  have hle := hst.cnt_le hij hj
  omega

/-- 空の行だけを頼まれた時。 -/
theorem Leading.aligned (hst : st.WellFormed) (hin : st.Inside seg) (hstart : seg.start < 2 ^ 61)
    (hlead : st.Leading seg) : st.Aligned seg := by
  have hseek : seekRow seg = seg.start := Nat.mod_eq_of_lt hstart
  have hlen := hst.length
  have hne := hin.nonempty
  have hlo := hin.lower
  have hhi := hin.upper
  obtain ⟨hr0, hzero⟩ | ⟨hend, hzero⟩ := hlead
  · refine ⟨by omega, fun i hi => ?_, ?_⟩
    · rw [hseek, hr0, Nat.sub_zero, hzero, Nat.add_zero]
    · rw [hr0, Nat.sub_zero, Nat.sub_zero, hzero, Nat.sub_zero, row_zero]
  · have hall : ∀ j ≤ seg.end_, st.cnt j = 0 := fun j hj => hst.cnt_eq_zero hj (by omega) hzero
    refine ⟨by omega, fun i hi => ?_, ?_⟩
    · rw [hall (seekRow seg + i) (by omega), hall (seg.start - st.row.start) (by omega),
        hall (seg.start - st.row.start + i) (by omega)]
    · rw [hall (seg.start - st.row.start) (by omega), hall (seg.end_ - st.row.start) (by omega),
        Nat.sub_self, row_zero]

theorem Aligned.leading (hst : st.WellFormed) (hin : st.Inside seg) (hstart : seg.start < 2 ^ 61)
    (hal : st.Aligned seg) : st.Leading seg := by
  have hseek : seekRow seg = seg.start := Nat.mod_eq_of_lt hstart
  have hlen := hst.length
  have hne := hin.nonempty
  have hlo := hin.lower
  have hfile := hal.inFile
  have hoff := hal.offsets
  rw [hseek] at hfile hoff
  -- 頼まれた行の手前の offset は 0 である
  have hfirst : st.cnt seg.start = 0 := by
    have h := hoff 0 (Nat.zero_le _)
    rw [Nat.add_zero, Nat.add_zero] at h
    omega
  by_cases hr0 : st.row.start = 0
  · exact .inl ⟨hr0, hfirst⟩
  · have hbefore : st.cnt (seg.start - st.row.start) = 0 :=
      hst.cnt_eq_zero (by omega) (by omega) hfirst
    -- `st.row.start` ずつ先の offset が等しいので、0 が最後まで続く
    have hall : ∀ i ≤ seg.end_ - seg.start, st.cnt (seg.start + i) = 0 := fun i hi => by
      induction i using Nat.strong_induction_on with
      | _ i ih =>
        have h := hoff i hi
        rw [hbefore, Nat.add_zero] at h
        rw [h]
        by_cases hsmall : i ≤ st.row.start
        · exact hst.cnt_eq_zero (by omega) (by omega) hfirst
        · have hprev := ih (i - st.row.start) (by omega) (by omega)
          rwa [show seg.start + (i - st.row.start) = seg.start - st.row.start + i by omega] at hprev
    refine .inr ⟨by omega, ?_⟩
    have h := hall _ (Nat.le_refl _)
    rwa [show seg.start + (seg.end_ - seg.start) = seg.end_ by omega] at h

theorem WellFormed.loadsRows_iff (hst : st.WellFormed) (hin : st.Inside (st.target row)) :
    st.LoadsRows row ↔ st.Aligned (st.target row) := by
  constructor
  · rintro ⟨A, hload, hld⟩
    obtain ⟨hread, rfl⟩ := (hst.load_eq_some hin).1 hload
    exact hld.aligned hst hin hread
  · intro hal
    obtain ⟨hread, hld⟩ := hal.loaded hst hin
    exact ⟨_, (hst.load_eq_some hin).2 ⟨hread, rfl⟩, hld⟩

end

/--
**`Load` が頼まれた行をそのまま返すのは、読む所に頼まれた行がある時に限る。**

行の番号の byte 数が `size_t` で折り返さない限り、それは 0 行目から始まる file で前に成分が無い時か、
読む行が全て空の時である。
-/
theorem load_rows_iff (st : StoredMat V) (hst : st.WellFormed) (row : Seg)
    (hrow : row = Seg.all ∨ st.Inside row) :
    (st.LoadsRows row ↔ st.Aligned (st.target row)) ∧
    ((st.target row).start < 2 ^ 61 → (st.LoadsRows row ↔ st.Leading (st.target row))) := by
  have hin := hst.inside_target hrow
  have hiff := hst.loadsRows_iff hin
  refine ⟨hiff, fun hstart => hiff.trans ⟨fun hal => ?_, fun hlead => ?_⟩⟩
  · exact hal.leading hst hin hstart
  · exact hlead.aligned hst hin hstart

/-- 二行に一つずつ成分のある file。最初の行の番号が `r0` である。 -/
def diagonal (r0 : Nat) : StoredMat Nat where
  row := ⟨r0, r0 + 2⟩
  col := ⟨0, 2⟩
  rowcnt := some [0, 1, 2]
  colidx := some [0, 1]
  value := some [5, 6]
  sizeofI := 8
  sizeofV := 8

theorem diagonal_wellFormed {r0 : Nat} (hr0 : r0 < 2 ^ 63) : (diagonal r0).WellFormed where
  rows := ⟨by simp [diagonal], by simp only [diagonal]; omega⟩
  cols := by simp [diagonal]
  rowcnt := rfl
  length := by simp [diagonal]
  zero := rfl
  mono := by
    simp only [diagonal, cnt, Option.getD_some, Nat.add_sub_cancel_left]
    decide
  colidx := rfl
  indices := by simp [diagonal, cnt]
  values := by
    rintro vs ⟨⟩
    simp [diagonal, cnt]
  rowcntSize := by simp [diagonal]
  sizeofI := by simp [diagonal, cnt]
  sizeofV := by simp [diagonal, cnt]

theorem load_rows_whole_file :
    (diagonal 0).WellFormed ∧ (diagonal 0).Leading ((diagonal 0).target Seg.all) ∧
    (diagonal 0).LoadsRows Seg.all :=
  ⟨diagonal_wellFormed (by decide), .inl ⟨rfl, rfl⟩,
    ((load_rows_iff (diagonal 0) (diagonal_wellFormed (by decide)) Seg.all (.inl rfl)).2
      (by decide)).2 (.inl ⟨rfl, rfl⟩)⟩

/--
2 行目から始まる file は丸ごと読めず、0 行目から始まる file の 1 行目だけも読めない。

前者は `.rowcnt` を 2 番目から読んで file の終わりを越え、後者は `offset_[rows()]` を個数として
読んで `.colidx` の終わりを越える。
-/
theorem load_rows_fails :
    ((diagonal 2).WellFormed ∧ ¬ (diagonal 2).LoadsRows Seg.all) ∧
    ((diagonal 0).WellFormed ∧ (diagonal 0).Inside ⟨1, 2⟩ ∧ ¬ (diagonal 0).LoadsRows ⟨1, 2⟩) := by
  have hsecond : RSpMat.load (diagonal 2) Seg.all = none := by decide
  have hlast : RSpMat.load (diagonal 0) ⟨1, 2⟩ = none := by decide
  refine ⟨⟨diagonal_wellFormed (by decide), ?_⟩, diagonal_wellFormed (by decide),
    ⟨by decide, by decide, by decide⟩, ?_⟩
  · rintro ⟨A, hload, -⟩
    rw [hsecond] at hload
    cases hload
  · rintro ⟨A, hload, -⟩
    rw [hlast] at hload
    cases hload

end StoredMat

end QuiltDB
