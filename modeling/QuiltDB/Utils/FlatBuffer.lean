import QuiltDB.Lib.Bytes
import QuiltDB.Utils.Memstruct

/-!
# byte 列としての `UpdateBuffer`（`utils/memstruct.hpp`・`utils/memstruct.cpp`）

`UpdateBuffer` は一つながりの byte 列に placement new で置かれる。先頭に header の field、
その後ろに node range の領域、さらに後ろに update の領域が続く。

```
0            44                    44 + 20 * node_range_capacity_
| header     | id st end | …       | key delta | …                    |
```

ポインタは `this` からの byte 数で表す。関数の結果の `none` は、`[0, buff_size_)` の外の byte を
触ったことを表す。`Utils/Memstruct.lean` の列のモデルとの対応は `Properties/FlatBuffer.lean` で示す。
-/

namespace QuiltDB.FlatBuffer

open Bytes

/-! ## header と大きさ -/

/-- header の `int32_t` の field。宣言の順に隙間無く並ぶ。 -/
inductive Field where
  | buffSize
  | updateSize
  | updateCapacity
  | nodeRangeCapacity
  | numUpdatesOccupied
  | nodeRangeStOffset
  | numNodes
  | updateStOffset
  | updateEndOffset
  | updateIterOffset
  | nodeRangeIterOffset
  deriving Repr, DecidableEq

/-- 宣言の順番。 -/
def Field.index : Field → Nat
  | buffSize => 0
  | updateSize => 1
  | updateCapacity => 2
  | nodeRangeCapacity => 3
  | numUpdatesOccupied => 4
  | nodeRangeStOffset => 5
  | numNodes => 6
  | updateStOffset => 7
  | updateEndOffset => 8
  | updateIterOffset => 9
  | nodeRangeIterOffset => 10

def getField (m : List UInt8) (f : Field) : Option Int32 := loadInt32 m (4 * f.index : Nat)

def setField (m : List UInt8) (f : Field) (v : Int32) : Option (List UInt8) :=
  storeInt32 m (4 * f.index : Nat) v

/-- `int32_t` から `size_t` への変換。 -/
def toSize (v : Int32) : UInt64 := v.toInt64.toUInt64

/-- `size_t` の値を `int32_t` に入れる。上の桁は捨てられる。 -/
def ofSize (v : UInt64) : Int32 := v.toUInt32.toInt32

/--
`GetBuffSize`。積は `size_t` で計算され、`int32_t` に戻される。

`int32_t` 同士の和が溢れた時は、ここでは 2 の補数で折り返すとする。
-/
def getBuffSize (updateSize updateCapacity nodeRangeCapacity : Int32) : Int32 :=
  let nodeRangeMemSize := ofSize (toSize nodeRangeCapacity * (4 + 8 + 8))
  let updateMemSize := ofSize (toSize updateCapacity * (8 + toSize updateSize))
  ofSize (toSize (nodeRangeMemSize + updateMemSize) + 44)

/-- constructor が計算する `update_st_offset_`。 -/
def updateStOffset (nodeRangeCapacity : Int32) : Int32 :=
  ofSize (44 + toSize nodeRangeCapacity * (4 + 8 + 8))

/-- update 一つ分進めた offset。`update_end_offset_` と `update_iter_offset_` の更新である。 -/
def advance (offset updateSize : Int32) : Int32 := ofSize (toSize offset + (8 + toSize updateSize))

/-! ## 生成 -/

/-- `AllocateBufferMemory`。中身は決まっていない。負の大きさでは `new` が例外を投げる。 -/
def allocateBufferMemory (buffSize : Int32) (fresh : Nat → UInt8) : Option (List UInt8) :=
  if buffSize < 0 then none else some ((List.range buffSize.toInt.toNat).map fresh)

/-- constructor の中の、node range の領域を空き slot で埋める loop。 -/
def initNodeRanges : Nat → Int → List UInt8 → Option (List UInt8)
  | 0, _, m => some m
  | left + 1, ptr, m => do
    let m ← storeInt32 m ptr (-1)
    let m ← storeInt64 m (ptr + 4) (-1)
    let m ← storeInt64 m (ptr + 4 + 8) (-1)
    initNodeRanges left (ptr + 20) m

/-- constructor の初期化子。`node_range_iter_offset_` は書かれない。 -/
def initHeader (m : List UInt8) (buffSize updateSize updateCapacity nodeRangeCapacity : Int32) :
    Option (List UInt8) := do
  let m ← setField m .buffSize buffSize
  let m ← setField m .updateSize updateSize
  let m ← setField m .updateCapacity updateCapacity
  let m ← setField m .nodeRangeCapacity nodeRangeCapacity
  let m ← setField m .numUpdatesOccupied 0
  let m ← setField m .nodeRangeStOffset (ofSize 44)
  setField m .numNodes 0

/-- constructor の本体。 -/
def initBody (m : List UInt8) : Option (List UInt8) := do
  let st ← getField m .nodeRangeStOffset
  let capacity ← getField m .nodeRangeCapacity
  let m ← initNodeRanges capacity.toInt.toNat st.toInt m
  let m ← setField m .updateStOffset (updateStOffset capacity)
  let m ← setField m .updateEndOffset (updateStOffset capacity)
  setField m .updateIterOffset (updateStOffset capacity)

/-- `CreateUpdateBuffer`。 -/
def createUpdateBuffer (updateSize updateCapacity nodeRangeCapacity : Int32)
    (fresh : Nat → UInt8) : Option (List UInt8) := do
  let buffSize := getBuffSize updateSize updateCapacity nodeRangeCapacity
  let m ← allocateBufferMemory buffSize fresh
  let m ← initHeader m buffSize updateSize updateCapacity nodeRangeCapacity
  initBody m

/-! ## update の領域 -/

/-- `AppendUpdate`。`memcpy` は `_update` から `update_size_` byte を読む。 -/
def appendUpdate (m : List UInt8) (key : Key) (update : List UInt8) :
    Option (Int32 × List UInt8) := do
  let occupied ← getField m .numUpdatesOccupied
  let capacity ← getField m .updateCapacity
  if occupied = capacity then return (-1, m)
  let endOffset ← getField m .updateEndOffset
  let m ← storeInt64 m endOffset.toInt key
  let size ← getField m .updateSize
  -- `memcpy` の長さは `size_t` に直してから使われる。
  let delta ← load update 0 (toSize size).toNat
  let m ← store m (endOffset.toInt + 8) delta
  let m ← setField m .updateEndOffset (advance endOffset size)
  let m ← setField m .numUpdatesOccupied (occupied + 1)
  return (0, m)

/-- `StartIteration`。 -/
def startIteration (m : List UInt8) : Option (Int32 × List UInt8) := do
  let occupied ← getField m .numUpdatesOccupied
  -- 空の buffer では iterator を戻さずに帰る。
  if occupied = 0 then return (-1, m)
  let st ← getField m .updateStOffset
  let m ← setField m .updateIterOffset st
  return (0, m)

/-- `NextUpdate`。key と delta へのポインタを返す。`NULL` は `none` で表す。 -/
def nextUpdate (m : List UInt8) : Option (Option (Key × Int) × List UInt8) := do
  let iter ← getField m .updateIterOffset
  let end_ ← getField m .updateEndOffset
  if end_ ≤ iter then return (none, m)
  let key ← loadInt64 m iter.toInt
  let size ← getField m .updateSize
  let m ← setField m .updateIterOffset (advance iter size)
  return (some (key, iter.toInt + 8), m)

/-- `GetUpdate` の loop。 -/
def getUpdateLoop (m : List UInt8) (key : Key) : Nat → Int → Option (Option Int)
  | 0, _ => some none
  | left + 1, ptr => do
    let k ← loadInt64 m ptr
    if k = key then return some (ptr + 8)
    let size ← getField m .updateSize
    getUpdateLoop m key left (ptr + (8 + size.toInt))

/-- `GetUpdate`。`NULL` は `none` で表す。 -/
def getUpdate (m : List UInt8) (key : Key) : Option (Option Int) := do
  let st ← getField m .updateStOffset
  let occupied ← getField m .numUpdatesOccupied
  getUpdateLoop m key occupied.toInt.toNat st.toInt

/-! ## node range の領域 -/

/-- `*node_id_ptr == _node_id` となる slot を前から探す loop。 -/
def findSlot (m : List UInt8) (nodeId : Int32) : Nat → Int → Option (Option Int)
  | 0, _ => some none
  | left + 1, ptr => do
    let id ← loadInt32 m ptr
    if id = nodeId then return some ptr
    findSlot m nodeId left (ptr + 20)

/-- 先頭の slot から全ての slot を探す。 -/
def findNode (m : List UInt8) (nodeId : Int32) : Option (Option Int) := do
  let st ← getField m .nodeRangeStOffset
  let capacity ← getField m .nodeRangeCapacity
  findSlot m nodeId capacity.toInt.toNat st.toInt

/-- `UpdateNodeRange`。二つの loop はどちらも先頭から始まる。 -/
def updateNodeRange (m : List UInt8) (nodeId : Int32) (st end_ : Int64) :
    Option (Int32 × List UInt8) := do
  match ← findNode m nodeId with
  | some ptr =>
    let m ← storeInt64 m (ptr + 4) st
    let m ← storeInt64 m (ptr + 4 + 8) end_
    return (0, m)
  | none =>
    match ← findNode m (-1) with
    | some ptr =>
      let m ← storeInt32 m ptr nodeId
      let m ← storeInt64 m (ptr + 4) st
      let m ← storeInt64 m (ptr + 4 + 8) end_
      return (0, m)
    | none => return (-1, m)

/-- `DeleteNodeRange` の loop。 -/
def deleteLoop (m : List UInt8) (nodeId : Int32) : Nat → Int → Option (Int32 × List UInt8)
  | 0, _ => some (-1, m)
  | left + 1, ptr => do
    let id ← loadInt32 m ptr
    -- 空き slot に当たると、後ろに同じ id の slot があっても見つけない。
    if id < 0 then return (-1, m)
    if id = nodeId then
      let m ← storeInt32 m ptr (-1)
      return (0, m)
    deleteLoop m nodeId left (ptr + 20)

/-- `DeleteNodeRange`。 -/
def deleteNodeRange (m : List UInt8) (nodeId : Int32) : Option (Int32 × List UInt8) := do
  let st ← getField m .nodeRangeStOffset
  let capacity ← getField m .nodeRangeCapacity
  deleteLoop m nodeId capacity.toInt.toNat st.toInt

/-- `GetNodeRange`。`false` を返す場合が内側の `none` である。 -/
def getNodeRange (m : List UInt8) (nodeId : Int32) : Option (Option (Int64 × Int64)) := do
  match ← findNode m nodeId with
  | some ptr =>
    let st ← loadInt64 m (ptr + 4)
    let end_ ← loadInt64 m (ptr + 4 + 8)
    return some (st, end_)
  | none => return none

/-- `StartNodeRangeIteration`。 -/
def startNodeRangeIteration (m : List UInt8) : Option (List UInt8) := do
  let st ← getField m .nodeRangeStOffset
  setField m .nodeRangeIterOffset st

/-- `NextNodeRange` の while loop。回り切らない分は範囲の外と同じに扱う。 -/
def skipFree : Nat → List UInt8 → Option (List UInt8)
  | 0, _ => none
  | fuel + 1, m => do
    let iter ← getField m .nodeRangeIterOffset
    let id ← loadInt32 m iter.toInt
    let st ← getField m .updateStOffset
    -- 領域の中では後半が成り立たず、loop は回らない。
    if id < 0 ∧ st ≤ iter then
      let m ← setField m .nodeRangeIterOffset (ofSize (toSize iter + 20))
      skipFree fuel m
    else return m

/-- `NextNodeRange`。負の id を返す場合が内側の `none` である。 -/
def nextNodeRange (m : List UInt8) : Option (Option (Int32 × Int64 × Int64) × List UInt8) := do
  let iter ← getField m .nodeRangeIterOffset
  let st ← getField m .updateStOffset
  if st ≤ iter then return (none, m)
  let m ← skipFree (m.length + 1) m
  let iter ← getField m .nodeRangeIterOffset
  let id ← loadInt32 m iter.toInt
  -- だから空き slot に当たると、後ろに range が残っていても終わりになる。
  if id < 0 then return (none, m)
  let keySt ← loadInt64 m (iter.toInt + 4)
  let keyEnd ← loadInt64 m (iter.toInt + 4 + 8)
  let m ← setField m .nodeRangeIterOffset (ofSize (toSize iter + 20))
  return (some (id, keySt, keyEnd), m)

/-! ## 呼び出しの列 -/

/-- buffer への呼び出しと、返された delta のポインタを通した書き込み。 -/
inductive Op where
  | appendUpdate (key : Key) (update : List UInt8)
  | startIteration
  | nextUpdate
  | getUpdate (key : Key)
  | writeDelta (ptr : Int) (delta : List UInt8)
  | updateNodeRange (nodeId : Int32) (st end_ : Int64)
  | deleteNodeRange (nodeId : Int32)
  | getNodeRange (nodeId : Int32)
  | startNodeRangeIteration
  | nextNodeRange
  deriving Repr, DecidableEq

/-- node range の呼び出しか。残りは update の呼び出しである。 -/
def Op.onNodeRange : Op → Bool
  | updateNodeRange _ _ _ | deleteNodeRange _ | getNodeRange _ => true
  | startNodeRangeIteration | nextNodeRange => true
  | _ => false

/-- 使う側の状態。 -/
structure State where
  mem : List UInt8
  /-- これまでに返された delta のポインタ。 -/
  pointers : List Int
  /-- `StartNodeRangeIteration` を呼んだか。 -/
  iterating : Bool
  deriving Repr, DecidableEq

/-- 呼び出し一つ。範囲の外を触れば `none` になる。 -/
def step (s : State) : Op → Option State
  | .appendUpdate key update => do
    let (_, m) ← FlatBuffer.appendUpdate s.mem key update
    return { s with mem := m }
  | .startIteration => do
    let (_, m) ← FlatBuffer.startIteration s.mem
    return { s with mem := m }
  | .nextUpdate => do
    let (r, m) ← FlatBuffer.nextUpdate s.mem
    return { s with mem := m, pointers := (r.map Prod.snd).toList ++ s.pointers }
  | .getUpdate key => do
    let r ← FlatBuffer.getUpdate s.mem key
    return { s with pointers := r.toList ++ s.pointers }
  | .writeDelta ptr delta => do
    let m ← store s.mem ptr delta
    return { s with mem := m }
  | .updateNodeRange nodeId st end_ => do
    let (_, m) ← FlatBuffer.updateNodeRange s.mem nodeId st end_
    return { s with mem := m }
  | .deleteNodeRange nodeId => do
    let (_, m) ← FlatBuffer.deleteNodeRange s.mem nodeId
    return { s with mem := m }
  | .getNodeRange nodeId => do
    let _ ← FlatBuffer.getNodeRange s.mem nodeId
    return s
  | .startNodeRangeIteration => do
    let m ← FlatBuffer.startNodeRangeIteration s.mem
    return { s with mem := m, iterating := true }
  | .nextNodeRange => do
    let (_, m) ← FlatBuffer.nextNodeRange s.mem
    return { s with mem := m }

/-- 使う側の約束。`updateSize` は buffer を作った時の `_update_size` である。 -/
def Allowed (updateSize : Nat) (s : State) : Op → Prop
  | .appendUpdate _ update => update.length = updateSize
  | .writeDelta ptr delta => ptr ∈ s.pointers ∧ delta.length = updateSize
  | .nextNodeRange => s.iterating = true
  | _ => True

instance (updateSize : Nat) (s : State) : (op : Op) → Decidable (Allowed updateSize s op)
  | .appendUpdate _ update => inferInstanceAs (Decidable (update.length = updateSize))
  | .writeDelta ptr delta =>
    inferInstanceAs (Decidable (ptr ∈ s.pointers ∧ delta.length = updateSize))
  | .nextNodeRange => inferInstanceAs (Decidable (s.iterating = true))
  | .startIteration | .nextUpdate | .getUpdate _ | .updateNodeRange _ _ _ | .deleteNodeRange _
  | .getNodeRange _ | .startNodeRangeIteration => inferInstanceAs (Decidable True)

/-- 呼び出しの列。 -/
def run (s : State) : List Op → Option State
  | [] => some s
  | op :: ops => do
    let s ← step s op
    run s ops

/-- どの呼び出しも約束を守っている列。 -/
def Legal (updateSize : Nat) (s : State) : List Op → Prop
  | [] => True
  | op :: ops =>
    Allowed updateSize s op ∧ (step s op).elim True fun s' => Legal updateSize s' ops

instance decidableLegal (updateSize : Nat) :
    (s : State) → (ops : List Op) → Decidable (Legal updateSize s ops)
  | _, [] => inferInstanceAs (Decidable True)
  | s, op :: ops =>
    have : Decidable ((step s op).elim True fun s' => Legal updateSize s' ops) :=
      match step s op with
      | none => inferInstanceAs (Decidable True)
      | some s' => decidableLegal updateSize s' ops
    inferInstanceAs (Decidable (_ ∧ _))

/-- timer の枝で、溜まった update を全て入れる loop。`CHECK(ret == 0)` に失敗すれば `none` になる。 -/
def appendAll (m : List UInt8) : List (Key × List UInt8) → Option (List UInt8)
  | [] => some m
  | (key, update) :: rest => do
    let (ret, m) ← appendUpdate m key update
    if ret = 0 then appendAll m rest else none

/-- `NextUpdate` を `NULL` が返るまで呼び、返ったポインタの先を読む。 -/
def drainUpdates (updateSize : Nat) : Nat → List UInt8 → Option (List (Key × List UInt8))
  | 0, _ => none
  | fuel + 1, m => do
    match ← nextUpdate m with
    | (none, _) => return []
    | (some (key, ptr), m) =>
      let delta ← load m ptr updateSize
      let rest ← drainUpdates updateSize fuel m
      return (key, delta) :: rest

end QuiltDB.FlatBuffer
