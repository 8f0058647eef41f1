import QuiltDB.Lib.Rows

/-!
# 行で持つ疎行列（`apps/pagerank/range.h`・`bin_data.h`・`rspmat.h`）

`RSpMat` は CSR 形式の疎行列である。`offset_[i]` から `offset_[i+1]` までが `i` 行目の成分で、
`index_` に列番号、`value_` に値がある。

* `loadBin` — binary file の一部を読む
* `RSpMat.load` — 行の範囲だけを読む
* `RSpMat.vSlice` — 列の範囲だけを取り出す

`size_t` は自然数で表し、溢れが効く所だけ `2 ^ 64` で割った余りを取る。`CHECK` に失敗した時と、
配列の外を触った時の結果が `none` である。file は読み込んだ型の要素の列として持つ。
-/

namespace QuiltDB

/-- `size_t` の引き算。 -/
def subSize (a b : Nat) : Nat := (a + 2 ^ 64 - b) % 2 ^ 64

/-! ## `Range<size_t>` -/

/-- `Seg`、つまり `Range<size_t>`。`[start, end_)` を表す。 -/
structure Seg where
  start : Nat
  end_ : Nat
  deriving Repr, DecidableEq

namespace Seg

/-- `Range::All`。 -/
def all : Seg := { start := 1, end_ := 0 }

/-- `Range::SubsetEq`。 -/
def subsetEq (r v : Seg) : Bool := decide (v.start ≤ r.start) && decide (r.end_ ≤ v.end_)

/-- `Range::SupsetEq`。 -/
def supsetEq (r v : Seg) : Bool := decide (r.start ≤ v.start) && decide (v.end_ ≤ r.end_)

/-- `Range::In`。 -/
def contains (r : Seg) (v : Nat) : Bool := decide (r.start ≤ v) && decide (v < r.end_)

/-- `Range::Valid`。 -/
def valid (r : Seg) : Bool := decide (r.start < r.end_)

/-- `Range::size`。 -/
def size (r : Seg) : Nat := subSize r.end_ r.start

end Seg

/-! ## binary file -/

/--
`load_bin`。`offset` 番目の要素から `n` 個を読む。

`fseek` に渡す byte 数は `size_t` で計算されて `long` になるので、負になれば失敗する。
file の終わりを越えた `fseek` は成功し、`fread` の数が足りずに `CHECK_EQ` に失敗する。
`sizeof(T)` は 2 の冪である。
-/
def loadBin {T : Type} (sizeofT : Nat) (file : Option (List T)) (offset n : Nat) :
    Option (List T) :=
  match file with
  | none => none
  | some data =>
    let bytes := offset * sizeofT % 2 ^ 64
    if 2 ^ 63 ≤ bytes then none
    else
      let rest := data.drop (bytes / sizeofT)
      if n ≤ rest.length then some (rest.take n) else none

/-- `bin_length`。file が無ければ 0 である。 -/
def binLength {T : Type} (file : Option (List T)) : Nat := (file.getD []).length

/-- `name.size`・`name.rowcnt`・`name.colidx`・`name.value` の中身。 -/
structure StoredMat (V : Type) where
  row : Seg
  col : Seg
  rowcnt : Option (List Nat)
  colidx : Option (List Nat)
  value : Option (List V)
  /-- `sizeof(I)` -/
  sizeofI : Nat
  /-- `sizeof(V)` -/
  sizeofV : Nat

namespace StoredMat

variable {V : Type}

/-- `RSpMat::RowSeg`。 -/
def rowSeg (st : StoredMat V) : Option Seg := if st.row.valid then some st.row else none

/-- `RSpMat::ColSeg`。 -/
def colSeg (st : StoredMat V) : Option Seg := if st.col.valid then some st.col else none

end StoredMat

/-! ## 行列 -/

/-- `RSpMat`。`value_` が NULL なら `value` は `none` である。 -/
structure RSpMat (V : Type) where
  row : Seg
  col : Seg
  nnz : Nat
  offset : List Nat
  index : List Nat
  value : Option (List V)
  deriving Repr, DecidableEq

/-- `new` で確保した配列の、決まっていない中身。 -/
structure Uninit (V : Type) where
  offset : Nat → Nat
  index : Nat → Nat
  value : Nat → V

/-- 配列の `i` 番目に書く。外なら `none` になる。 -/
def setAt {α : Type} (l : List α) (i : Nat) (x : α) : Option (List α) :=
  if i < l.length then some (l.set i x) else none

namespace RSpMat

variable {V : Type}

/-- `rows()`。 -/
def rows (A : RSpMat V) : Nat := A.row.size

/-- `has_value()`。 -/
def hasValue (A : RSpMat V) : Bool := A.value.isSome

/-- `Load` の `row_`。 -/
def rowOf (all row : Seg) : Option Seg :=
  if row = Seg.all then some all else if row.subsetEq all then some row else none

/-- `Load` の値の読み込み。file が無いか空なら `value_` は NULL のままである。 -/
def loadValue (st : StoredMat V) (first last : Nat) : Option (Option (List V)) :=
  if binLength st.value = 0 then some none
  else (loadBin st.sizeofV st.value first last).map some

/-- `RSpMat::Load`。 -/
def load (st : StoredMat V) (row : Seg) : Option (RSpMat V) := do
  let all ← st.rowSeg
  let row ← rowOf all row
  let col ← st.colSeg
  let rows := row.size
  -- row offset
  if subSize (binLength st.rowcnt) 1 ≠ all.size then none
  else
    let offset ← loadBin 8 st.rowcnt row.start (rows + 1)
    let first ← offset[0]?
    let last ← offset[rows]?
    -- column index。個数は `offset_[rows()]` である
    let index ← loadBin st.sizeofI st.colidx first last
    let value ← loadValue st first last
    return { row := row, col := col, nnz := last, offset := offset.map (subSize · first),
             index := index, value := value }

/-- `RSpMat::Init`。`memset` は `offset_` の先頭の `rows()` 個だけを 0 にする。 -/
def init (row col : Seg) (nnz : Nat) (hasValue : Bool) (u : Uninit V) : RSpMat V where
  row := row
  col := col
  nnz := nnz
  offset := List.replicate row.size 0 ++ (List.range 5).map u.offset
  index := (List.range (nnz + 5)).map u.index
  value := if hasValue then some ((List.range (nnz + 5)).map u.value) else none

/-- `VSlice` の内側の loop で、成分 `j` を `res` の `o` 番目に書く。`c` は `col` の中にある。 -/
def putEntry (bits : Nat) (A : RSpMat V) (col : Seg) (res : RSpMat V) (j o c : Nat) :
    Option (RSpMat V) := do
  let index ← setAt res.index o ((c - col.start) % 2 ^ bits)
  match A.value with
  | none => return { res with index := index }
  | some vs =>
    let x ← vs[j]?
    let out ← res.value
    let value ← setAt out o x
    return { res with index := index, value := some value }

/-- `VSlice` の内側の loop。`bits` は結果の index の型 `I2` の幅である。 -/
def sliceRow (bits : Nat) (A : RSpMat V) (col : Seg) :
    Nat → Nat → Nat → RSpMat V → Option (Nat × RSpMat V)
  | 0, _, o, res => some (o, res)
  | left + 1, j, o, res => do
    let c ← A.index[j]?
    if col.contains c then
      let res ← putEntry bits A col res j o c
      sliceRow bits A col left (j + 1) (o + 1) res
    else sliceRow bits A col left (j + 1) o res

/-- `VSlice` の外側の loop。 -/
def sliceRows (bits : Nat) (A : RSpMat V) (col : Seg) : Nat → Nat → RSpMat V → Option (RSpMat V)
  | 0, _, res => some res
  | left + 1, i, res => do
    let o ← res.offset[i]?
    let lo ← A.offset[i]?
    let hi ← A.offset[i + 1]?
    let (o, res) ← sliceRow bits A col (hi - lo) lo o res
    let offset ← setAt res.offset (i + 1) o
    sliceRows bits A col left (i + 1) { res with offset := offset }

/-- `RSpMat::VSlice`。 -/
def vSlice (bits : Nat) (A : RSpMat V) (col : Seg) (u : Uninit V) : Option (RSpMat V) :=
  if A.col.supsetEq col then
    sliceRows bits A col A.rows 0 (init A.row col A.nnz A.hasValue u)
  else none

end RSpMat

/-! ## 成分の見方 -/

/-- 列番号と値を組にした成分の列。値の無い行列では `none` と組む。 -/
def entriesOf {V : Type} (index : List Nat) : Option (List V) → List (Nat × Option V)
  | none => index.map fun c => (c, none)
  | some vs => List.zipWith (fun c x => (c, some x)) index vs

/-- 配列にある成分の列。使われていない所も含む。 -/
def RSpMat.entries {V : Type} (A : RSpMat V) : List (Nat × Option V) := entriesOf A.index A.value

/-- `i` 行目の成分。 -/
def RSpMat.rowEntries {V : Type} (A : RSpMat V) (i : Nat) : List (Nat × Option V) :=
  Rows.row A.entries (A.offset.getD i 0) (A.offset.getD (i + 1) 0)

namespace StoredMat

variable {V : Type}

/-- `.rowcnt` の `j` 番目。 -/
def cnt (st : StoredMat V) (j : Nat) : Nat := (st.rowcnt.getD []).getD j 0

/-- file にある成分の列。 -/
def entries (st : StoredMat V) : List (Nat × Option V) := entriesOf (st.colidx.getD []) st.value

/-- 番号 `r` の行の成分。 -/
def rowEntries (st : StoredMat V) (r : Nat) : List (Nat × Option V) :=
  Rows.row st.entries (st.cnt (r - st.row.start)) (st.cnt (r - st.row.start + 1))

end StoredMat

end QuiltDB
