import Mathlib

/-!
# `UpdateRange` と `UpdateBuffer`（`utils/memstruct.hpp`・`utils/memstruct.cpp`）

update をまとめて運ぶ平らなバッファのモデル。ここでは byte 列ではなく、
node range の slot の列と update の列として書く。

* `slots` — node range の領域。長さが `node_range_capacity_` で、空き slot は node id が `-1`。
* `updates` — update の領域のうち埋まっている分（`num_updates_occupied_` 個）。
* `updateIter` / `nodeRangeIter` — `update_iter_offset_` / `node_range_iter_offset_` を
  slot 一つ分で割った値。

返り値が `int` の関数は、`-1` を `none`、`0` を `some` で表す。
-/

namespace QuiltDB

/-- table の key（`int64_t`）。 -/
abbrev Key := Int64

/-- logical node の番号（`int32_t`）。負の値は「無い」を表す。 -/
abbrev NodeId := Int

/-- table の番号（`int32_t`）。 -/
abbrev TableId := Int

/-- 連続した sequence number の範囲。`end_ < st` なら空である。 -/
structure UpdateRange where
  st : Int
  end_ : Int
  deriving Repr, DecidableEq

/-- `UpdateRange::Contains`。 -/
def UpdateRange.contains (r ur : UpdateRange) : Bool :=
  decide (r.st ≤ ur.st) && decide (r.end_ ≥ ur.end_)

/-- node range の slot 一つ。 -/
structure Slot where
  nodeId : NodeId
  st : Int
  end_ : Int
  deriving Repr, DecidableEq

/-- constructor が書く空き slot。 -/
def Slot.free : Slot := { nodeId := -1, st := -1, end_ := -1 }

/-- slot が持つ範囲。 -/
def Slot.range (s : Slot) : UpdateRange := { st := s.st, end_ := s.end_ }

structure UpdateBuffer (V : Type) where
  updateCapacity : Nat
  updates : List (Key × V)
  slots : List Slot
  updateIter : Nat
  nodeRangeIter : Nat
  deriving Repr, DecidableEq

/-- `p` を満たす最初の要素を `f` で書き換える。無ければ `none`。 -/
def modifyFirst {α : Type} (p : α → Bool) (f : α → α) : List α → Option (List α)
  | [] => none
  | a :: rest => if p a then some (f a :: rest) else (modifyFirst p f rest).map (a :: ·)

namespace UpdateBuffer

variable {V : Type}

/-- `CreateUpdateBuffer`。 -/
def createUpdateBuffer (updateCapacity nodeRangeCapacity : Nat) : UpdateBuffer V where
  updateCapacity := updateCapacity
  updates := []
  slots := List.replicate nodeRangeCapacity Slot.free
  updateIter := 0
  nodeRangeIter := 0

/-! ## update の領域 -/

/-- `AppendUpdate`。 -/
def appendUpdate (b : UpdateBuffer V) (key : Key) (update : V) : Option (UpdateBuffer V) :=
  if b.updates.length = b.updateCapacity then none
  else some { b with updates := b.updates ++ [(key, update)] }

/-- `StartIteration`。update が無いときは `-1` を返し、iterator を戻さない。 -/
def startIteration (b : UpdateBuffer V) : Option (UpdateBuffer V) :=
  if b.updates.length = 0 then none else some { b with updateIter := 0 }

/-- `NextUpdate`。 -/
def nextUpdate (b : UpdateBuffer V) : Option ((Key × V) × UpdateBuffer V) :=
  (b.updates[b.updateIter]?).map fun kv => (kv, { b with updateIter := b.updateIter + 1 })

/-- `NextUpdate` が `NULL` を返すまで回して得られる列。 -/
def drainUpdates : Nat → UpdateBuffer V → List (Key × V)
  | 0, _ => []
  | fuel + 1, b =>
    match b.nextUpdate with
    | none => []
    | some (kv, b') => kv :: drainUpdates fuel b'

/-- `StartIteration` してから `NextUpdate` で読み切る loop が見る update の列。 -/
def iterUpdates (b : UpdateBuffer V) : List (Key × V) :=
  drainUpdates (b.updates.length + 1) (b.startIteration.getD b)

/-- `GetUpdate`。 -/
def getUpdate (b : UpdateBuffer V) (key : Key) : Option V :=
  (b.updates.find? fun kv => kv.1 == key).map Prod.snd

/-- `GetUpdate` が返すポインタの先を `f` で書き換える。`GetUpdate` が `NULL` なら `none`。 -/
def modifyUpdate (b : UpdateBuffer V) (key : Key) (f : V → V) : Option (UpdateBuffer V) :=
  (modifyFirst (fun kv => kv.1 == key) (fun kv => (kv.1, f kv.2)) b.updates).map
    fun us => { b with updates := us }

/-! ## node range の領域 -/

/-- `UpdateNodeRange`。同じ id の slot を先に探し、無ければ最初の空き slot を使う。 -/
def updateNodeRange (b : UpdateBuffer V) (nodeId : NodeId) (st end_ : Int) :
    Option (UpdateBuffer V) :=
  -- id が `-1` なら、先の loop が空き slot の範囲だけを書き換える。
  match modifyFirst (fun s => s.nodeId == nodeId)
      (fun s => { s with st := st, end_ := end_ }) b.slots with
  | some slots => some { b with slots := slots }
  | none =>
    (modifyFirst (fun s => s.nodeId == -1)
      (fun _ => { nodeId := nodeId, st := st, end_ := end_ }) b.slots).map
      fun slots => { b with slots := slots }

/-- `DeleteNodeRange` の loop。空き slot に当たったところで諦める。 -/
def deleteSlot (nodeId : NodeId) : List Slot → Option (List Slot)
  | [] => none
  | s :: rest =>
    if s.nodeId < 0 then none
    else if s.nodeId = nodeId then some ({ s with nodeId := -1 } :: rest)
    else (deleteSlot nodeId rest).map (s :: ·)

/-- `DeleteNodeRange`。 -/
def deleteNodeRange (b : UpdateBuffer V) (nodeId : NodeId) : Option (UpdateBuffer V) :=
  (deleteSlot nodeId b.slots).map fun slots => { b with slots := slots }

/-- `GetNodeRange`。 -/
def getNodeRange (b : UpdateBuffer V) (nodeId : NodeId) : Option UpdateRange :=
  (b.slots.find? fun s => s.nodeId == nodeId).map Slot.range

/-- `StartNodeRangeIteration`。 -/
def startNodeRangeIteration (b : UpdateBuffer V) : UpdateBuffer V := { b with nodeRangeIter := 0 }

/--
`NextNodeRange` の中の、空き slot を飛ばす while loop。

条件の後半は source のとおり `node_range_iter_offset_ >= update_st_offset_` で、
領域の中では成り立たない。
-/
def skipFree (slots : List Slot) : Nat → Nat → Nat
  | 0, i => i
  | fuel + 1, i =>
    match slots[i]? with
    | none => i
    | some s => if s.nodeId < 0 ∧ slots.length ≤ i then skipFree slots fuel (i + 1) else i

/-- `NextNodeRange`。負の id を返す場合が `none` である。 -/
def nextNodeRange (b : UpdateBuffer V) : Option ((NodeId × UpdateRange) × UpdateBuffer V) :=
  if b.slots.length ≤ b.nodeRangeIter then none
  else
    let i := skipFree b.slots b.slots.length b.nodeRangeIter
    match b.slots[i]? with
    | none => none
    | some s =>
      if s.nodeId < 0 then none
      else some ((s.nodeId, s.range), { b with nodeRangeIter := i + 1 })

/-- `NextNodeRange` が負の id を返すまで回して得られる列。 -/
def drainNodeRanges : Nat → UpdateBuffer V → List (NodeId × UpdateRange)
  | 0, _ => []
  | fuel + 1, b =>
    match b.nextNodeRange with
    | none => []
    | some (r, b') => r :: drainNodeRanges fuel b'

/-- `StartNodeRangeIteration` してから読み切る loop が見る node range の列。 -/
def iterNodeRanges (b : UpdateBuffer V) : List (NodeId × UpdateRange) :=
  drainNodeRanges (b.slots.length + 1) b.startNodeRangeIteration

end UpdateBuffer

end QuiltDB
