import QuiltDB.Lib.Checked
import QuiltDB.Utils.FlatBuffer
import QuiltDB.Comm.Propagator
import QuiltDB.Comm.Receiver

/-!
# byte 列のままの update の道（`comm/propagator.cpp`・`comm/receiver.cpp`）

propagator が batch を詰め、TCP の二つの frame で送り、下流の receiver が自分の分を引いて table に足し、
paired propagator が `update_store` に足す。その間、buffer は一つながりの byte 列のままであり、
thread はポインタを通して中を読み書きする。

`Comm/Propagator.lean` と `Comm/Receiver.lean` の同じ名前の関数を、`Utils/FlatBuffer.lean` の呼び出しに
戻して書く。buffer の外の map と table は列のモデルのものを使う。

範囲の外を触れば `error none`、`CHECK` に落ちれば `error (some e)` で止まる。回り切らない loop も
範囲の外と同じに扱う。
-/

namespace QuiltDB.FlatPath

open Checked FlatBuffer Bytes

/-- 一つながりの byte 列。 -/
abbrev Mem := List UInt8

/-! ## 詰める -/

/-- `AppendUpdate` の loop。 -/
def appendUpdates : Mem → List (Key × Mem) → Comp Fault Mem
  | m, [] => return m
  | m, (key, delta) :: rest => do
    let (ret, m) ← access (appendUpdate m key delta)
    if ret = 0 then appendUpdates m rest else fail .appendFailed

/-- peer の range を buffer に書き、書いた分の `st_` を進める loop。 -/
def emitPeerRanges : Mem → (AList fun _ : NodeId => UpdateRange) → List (NodeId × UpdateRange) →
    Comp Fault (Mem × AList fun _ : NodeId => UpdateRange)
  | m, peers, [] => return (m, peers)
  | m, peers, (nodeId, r) :: rest =>
    if r.st ≤ r.end_ then do
      let (ret, m) ← access (updateNodeRange m (.ofInt nodeId) (.ofInt r.st) (.ofInt r.end_))
      if ret = 0 then emitPeerRanges m (peers.insert nodeId { r with st := r.end_ + 1 }) rest
      else fail .nodeRangeFailed
    else emitPeerRanges m peers rest

/-- 自分の range が空でなければ buffer に書く。 -/
def emitMyRange (myId : NodeId) (m : Mem) (r : UpdateRange) : Comp Fault Mem :=
  if r.st ≤ r.end_ then do
    let (ret, m) ← access (updateNodeRange m (.ofInt myId) (.ofInt r.st) (.ofInt r.end_))
    if ret = 0 then return m else fail .nodeRangeFailed
  else return m

/-- 下流へ送る buffer と、`st_` を進めた peer の表を作る。`fresh` は確保した memory の元の中身である。 -/
def buildBuffer (myId : NodeId) (updateSize : Nat) (pt : PropTable Mem) (o : FlushOrder Mem)
    (fresh : Nat → UInt8) : Comp Fault (Mem × AList fun _ : NodeId => UpdateRange) := do
  let m ← access (createUpdateBuffer (.ofNat updateSize) (.ofNat pt.updateStore.entries.length)
    (.ofNat (pt.tablePeersUpdateRange.entries.length + 1)) fresh)
  let m ← appendUpdates m o.updates
  let (m, peers) ← emitPeerRanges m pt.tablePeersUpdateRange o.peers
  let m ← emitMyRange myId m pt.myUpdateRange
  return (m, peers)

/-- `EMyUpdates` で paired receiver に渡す buffer を作る。 -/
def buildMyBuffer (myId : NodeId) (updateSize : Nat) (pt : PropTable Mem) (mine : List (Key × Mem))
    (fresh : Nat → UInt8) : Comp Fault Mem := do
  let m ← access (createUpdateBuffer (.ofNat updateSize) (.ofNat pt.myUpdateStore.entries.length)
    (.ofNat 1) fresh)
  let m ← appendUpdates m mine
  if pt.myUpdateRange.st ≤ pt.myUpdateRange.end_ then
    -- ここの戻り値は見られない。
    let (_, m) ← access (updateNodeRange m (.ofInt myId) (.ofInt pt.myUpdateRange.st)
      (.ofInt pt.myUpdateRange.end_))
    return m
  else fail .myUpdateRangeEmpty

/-! ## 送る -/

/-- `EPRUpdateBuffer` の enum の値。 -/
def eprUpdateBuffer : Int32 := 4

/-- `EPRUpdateBufferMsg` と、buffer の先頭から `get_buff_size()` byte の、二つの frame を送る。 -/
def sendUpdateBuffer (tableId : Int32) (m : Mem) : Comp Fault (List Mem) := do
  let size ← access (getField m .buffSize)
  let body ← access (load m 0 (toSize size).toNat)
  return [int32Bytes eprUpdateBuffer ++ int32Bytes tableId, body]

/-- 二つの frame を受けて、table の番号と buffer を取り出す。 -/
def recvUpdateBuffer : List Mem → Comp Fault (Int32 × Mem)
  | [head, body] => do
    let msgtype ← access (loadInt32 head 0)
    let tableId ← access (loadInt32 head 4)
    -- `Received UpdateBuffer size not positive`
    if msgtype = eprUpdateBuffer ∧ body ≠ [] then return (tableId, body)
    else fail .unrecognizedMessage
  | _ => fail .unrecognizedMessage

/-! ## 自分の分を引く -/

/-- 自分の update 一つずつを、受け取った buffer から引く while loop。 -/
def subtractLoop (vsub : Mem → Mem → Mem) (vsize : Nat) : Nat → Mem → Mem → Comp Fault Mem
  | 0, _, _ => .error none
  | fuel + 1, my, recv => do
    match ← access (nextUpdate my) with
    | (none, _) => return recv
    | (some (key, myDelta), my) =>
      match ← access (getUpdate recv key) with
      | none => fail .updateNotFound
      | some recvDelta =>
        -- `vsub_func` は二つのポインタの先の `vsize_` byte を読み、`recv_delta` の先に書き戻す。
        let minuend ← access (load recv recvDelta vsize)
        let subtrahend ← access (load my myDelta vsize)
        let recv ← access (store recv recvDelta (vsub minuend subtrahend))
        subtractLoop vsub vsize fuel my recv

/-- `UpdateRange::Contains`。 -/
def containsRange (r ur : Int64 × Int64) : Bool := decide (r.1 ≤ ur.1) && decide (r.2 ≥ ur.2)

/-- pop した buffer について `VLOG(0)` が読む header の field。 -/
def logMyUpdates (my : Mem) : Comp Fault Unit := do
  let _ ← access (getField my .buffSize)
  let _ ← access (getField my .updateSize)
  let _ ← access (getField my .updateCapacity)

/-- 自分の batch を queue の先頭から引く do-while loop。 -/
def removeMyUpdates (myId : Int32) (vsub : Mem → Mem → Mem) (vsize : Nat)
    (recvRange : Int64 × Int64) : List Mem → Int64 → Mem → Comp Fault (List Mem × Mem)
  | [], _, _ => fail .frontOfEmptyQueue
  | my :: queue, seqNum, recv => do
    match ← access (getNodeRange my myId) with
    | none => fail .myRangeNotFound
    | some myRange =>
      if !containsRange recvRange myRange then fail .notContained
      else if myRange.1 ≠ seqNum then fail .seqNumMismatch
      else
        logMyUpdates my
        let (ret, my) ← access (startIteration my)
        if ret ≠ 0 then fail .startIterationFailed
        else
          let recv ← subtractLoop vsub vsize (my.length + 1) my recv
          if myRange.2 < recvRange.2 then
            removeMyUpdates myId vsub vsize recvRange queue myRange.2 recv
          else return (queue, recv)

/-- 受け取った buffer から自分の update と range を除く。`queue` は `my_updates` の項目である。 -/
def dedup (myId : Int32) (vsub : Mem → Mem → Mem) (vsize : Nat) (queue : Option (List Mem))
    (recv : Mem) : Comp Fault (Option (List Mem) × Mem) := do
  match ← access (getNodeRange recv myId) with
  | none => return (queue, recv)
  | some recvMyRange =>
    match queue with
    | none => fail .myUpdatesNotFound
    | some queue => do
      let (queue, recv) ← removeMyUpdates myId vsub vsize recvMyRange queue recvMyRange.1 recv
      let (_, recv) ← access (deleteNodeRange recv myId)
      return (some queue, recv)

/-! ## 受け取る -/

/-- 自分の range だけを運ぶ buffer かどうかの判定。iterator は動いたままになる。 -/
def carriesNoPeer (myId : Int32) (recv : Mem) : Comp Fault (Bool × Mem) := do
  let recv ← access (startNodeRangeIteration recv)
  match ← access (nextNodeRange recv) with
  | (none, recv) => return (true, recv)
  | (some (testNodeId, _), recv) =>
    if testNodeId = myId then
      let (r, recv) ← access (nextNodeRange recv)
      return (r.isNone, recv)
    else return (false, recv)

/-- `NextUpdate` が `NULL` を返すまで、ポインタの先から `read` で読んだ delta を `f` に渡す while loop。 -/
def forUpdates {σ : Type} (f : σ → Key → Mem → σ) (read : Mem → Int → Option Mem) :
    Nat → Mem → σ → Comp Fault (σ × Mem)
  | 0, _, _ => .error none
  | fuel + 1, m, s => do
    match ← access (nextUpdate m) with
    | (none, m) => return (s, m)
    | (some (key, ptr), m) =>
      let delta ← access (read m ptr)
      forUpdates f read fuel m (f s key delta)

/-- `StartIteration` してから最後まで回る。返り値は見られない。 -/
def iterUpdates {σ : Type} (f : σ → Key → Mem → σ) (read : Mem → Int → Option Mem) (m : Mem)
    (s : σ) : Comp Fault (σ × Mem) := do
  let (_, m) ← access (startIteration m)
  forUpdates f read (m.length + 1) m s

/-- `vadd_func` が読む、ポインタの先の `vsize` byte。 -/
def readDelta (vsize : Nat) (m : Mem) (ptr : Int) : Option Mem := load m ptr vsize

/-- receiver が buffer 一つを処理した結果。 -/
structure Received where
  /-- `my_updates` の項目。 -/
  queue : Option (List Mem)
  storage : Storage Mem
  /-- `internal_update_push_sock` に渡す、`memcpy` した buffer。 -/
  forward : List Mem
  cbk : List (Nat × TableId × Mem)

/-- `apply_updates` なら table に足す。 -/
def applyUpdates (itable : InternalTable Mem) (vsize : Nat) (recv : Mem) (storage : Storage Mem) :
    Comp Fault (Storage Mem × Mem) :=
  if itable.applyUpdates then iterUpdates (incRaw itable.vaddFunc) (readDelta vsize) recv storage
  else return (storage, recv)

/-- `do_user_cbk` なら `ucbk` を呼ぶ。 -/
def userCallback (itable : InternalTable Mem) (t : TableId) (recv : Mem) :
    Comp Fault (List (Nat × TableId × Mem)) :=
  if itable.doUserCbk then
    match itable.updateBuffCbk with
    | none => fail .uninitializedCallback
    | some ucbk => return [(ucbk, t, recv)]
  else return []

/-- RUN の receiver の `EPRUpdateBuffer`。 -/
def onUpdateBuffer (c : NodeConfig Mem) (myId : Int32) (vsize : Nat) (t : TableId)
    (queue : Option (List Mem)) (storage : Storage Mem) (recv : Mem) : Comp Fault Received := do
  let (skip, recv) ← carriesNoPeer myId recv
  if skip then return { queue := queue, storage := storage, forward := [], cbk := [] }
  else
    match c.internalTable t with
    | none => fail .tableDoesNotExist
    | some itable => do
      let (queue, recv) ← dedup myId itable.vsubFunc vsize queue recv
      -- 写しは table に足す前に取る。
      let forward := if itable.forwardUpdates then [recv] else []
      let (storage, recv) ← applyUpdates itable vsize recv storage
      let cbk ← userCallback itable t recv
      return { queue := queue, storage := storage, forward := forward, cbk := cbk }

/-! ## 溜める -/

/-- buffer の range を順に記録する while loop。 -/
def recordRanges : Nat → Mem → (AList fun _ : NodeId => UpdateRange) →
    Comp Fault (AList fun _ : NodeId => UpdateRange)
  | 0, _, _ => .error none
  | fuel + 1, m, peers => do
    match ← access (nextNodeRange m) with
    | (none, _) => return peers
    | (some (nodeId, st, end_), m) =>
      match Propagator.recordRange peers nodeId.toInt { st := st.toInt, end_ := end_.toInt } with
      | .error e => fail e
      | .ok peers => recordRanges fuel m peers

/-- `memset` で作る、全 byte 0 の値。 -/
@[reducible] def zeroValue (vsize : Nat) : Zero Mem := ⟨List.replicate vsize 0⟩

/-- `AddUpdate` の前に、`VLOG(0)` が delta の先頭を `int` として読む。`vsize` が 4 に足りなくても 4 byte を読む。 -/
def readLoggedDelta (vsize : Nat) (m : Mem) (ptr : Int) : Option Mem := do
  let _ ← loadInt32 m ptr
  readDelta vsize m ptr

/-- RUN の propagator の `EPUpdateBuffer`。 -/
def storeUpdateBuffer (tc : TableConfig Mem) (vsize : Nat) (pt : PropTable Mem) (m : Mem) :
    Comp Fault (PropTable Mem) := do
  let (store, m) ← iterUpdates (@Propagator.addUpdate Mem (zeroValue vsize) tc.vaddFunc)
    (readLoggedDelta vsize) m pt.updateStore
  let m ← access (startNodeRangeIteration m)
  let peers ← recordRanges (m.length + 1) m pt.tablePeersUpdateRange
  return { pt with updateStore := store, tablePeersUpdateRange := peers }

/-! ## 一つの hop -/

/-- 一つの hop の後に残るもの。`a` の側の `peers` と `mine`、`b` の側の残りである。 -/
structure Hop (V : Type) where
  /-- `st_` を進めた `table_peers_update_range`。 -/
  peers : AList fun _ : NodeId => UpdateRange
  /-- `EMyUpdates` で paired receiver に渡した buffer。 -/
  mine : Option (UpdateBuffer V)
  receiver : Receiver V
  storage : TableId → Storage V
  prop : Propagator V

/-- `loop_` の table で、自分の update があれば、paired receiver に渡す buffer を作る。 -/
def myBuffer {V : Type} [Zero V] (a : NodeConfig V) (loop : Bool) (pt : PropTable V)
    (o : FlushOrder V) : Except Fault (Option (UpdateBuffer V)) :=
  if loop && pt.myUpdateStore.entries.length != 0 then some <$> Propagator.buildMyBuffer a pt o.mine
  else pure none

/--
列のモデルの一つの hop。

`a` が詰めた batch を `b` の receiver が処理し、`b` の propagator が溜める。`loop` は table の `loop_` である。
-/
def hop {V : Type} [Zero V] (a b : NodeConfig V) (t : TableId) (loop : Bool) (pt : PropTable V)
    (o : FlushOrder V) (r : Receiver V) (storage : TableId → Storage V) (p : Propagator V) :
    Except Fault (Hop V) := do
  let (buff, peers) ← Propagator.buildBuffer a pt o
  let mine ← myBuffer a loop pt o
  let (r, storage, out) ← Receiver.onUpdateBuffer b storage r t buff
  let p ← out.upd.foldlM (fun p msg => Prod.fst <$> p.handleUpdate b msg) p
  return { peers := peers, mine := mine, receiver := r, storage := storage, prop := p }

/-- byte 列のままの hop の後に残るもの。 -/
structure FlatHop where
  peers : AList fun _ : NodeId => UpdateRange
  mine : Option Mem
  received : Received
  tab : PropTable Mem

/-- `loop_` の table で、自分の update があれば、paired receiver に渡す buffer を作る。 -/
def flatMyBuffer (myId : NodeId) (loop : Bool) (vsize : Nat) (pt : PropTable Mem) (o : FlushOrder Mem)
    (fresh : Nat → UInt8) : Comp Fault (Option Mem) :=
  if loop && pt.myUpdateStore.entries.length != 0 then
    some <$> buildMyBuffer myId vsize pt o.mine fresh
  else pure none

/-- byte 列のままの一つの hop。`queue`・`storage`・`pt'` は `b` の側の、この table についての状態である。 -/
def flatHop (a b : NodeConfig Mem) (bId tableId : Int32) (tc : TableConfig Mem) (vsize : Nat)
    (pt : PropTable Mem) (o : FlushOrder Mem) (fresh : Nat → UInt8) (queue : Option (List Mem))
    (storage : Storage Mem) (pt' : PropTable Mem) : Comp Fault FlatHop := do
  let (m, peers) ← buildBuffer a.myId vsize pt o fresh
  let mine ← flatMyBuffer a.myId tc.loop vsize pt o fresh
  let (tableId, m) ← sendUpdateBuffer tableId m >>= recvUpdateBuffer
  let received ← onUpdateBuffer b bId vsize tableId.toInt queue storage m
  let tab ← received.forward.foldlM (storeUpdateBuffer tc vsize) pt'
  return { peers := peers, mine := mine, received := received, tab := tab }

end QuiltDB.FlatPath
