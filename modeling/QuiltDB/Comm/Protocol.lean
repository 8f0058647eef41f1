import QuiltDB.Utils.Memstruct

/-!
# message・table・設定（`comm/protocol.hpp`・`internal_table/`・`include/common.hpp`）

thread の間を流れる message と、thread が読む設定。値の型 `V` は `vsize_` byte の値で、
`0` は `memset` で作る全 byte 0 の値である。
-/

namespace QuiltDB

/-! ## message -/

/-- inproc で propagator に届く message（`PropagatorMsgType`）。 -/
inductive PropagatorMsg (V : Type) where
  | epUpdateLog (tableId : TableId) (key : Key) (delta : V)
  | epUpdateBuffer (tableId : TableId) (buff : UpdateBuffer V)
  | epInternalTerminate
  | epRecvInternalTerminateACK
  | epRInit
  | eMyUpdatesACK
  deriving DecidableEq

/-- inproc で receiver に届く message（`ReceiverMsgType`）。 -/
inductive ReceiverMsg (V : Type) where
  | erInternalTerminate
  | eprInternalTerminate
  | eMyUpdates (tableId : TableId) (buff : UpdateBuffer V)
  deriving DecidableEq

/-- TCP を流れる message（`PropRecvMsgType`）のうち、handshake の後に使うもの。 -/
inductive PropRecvMsg (V : Type) where
  | eprUpdateBuffer (tableId : TableId) (buff : UpdateBuffer V)
  | eprTerminate
  | eprTerminateACK (nodeId : NodeId)
  deriving DecidableEq

/-- timer thread から propagator への message。 -/
inductive TimerMsg where
  | eTimerTrigger
  deriving DecidableEq

/-! ## 異常終了 -/

/--
process を落とす箇所。`CHECK`・`LOG(FATAL)` のほか、未定義動作になる三つ
（空の queue の `front()`、作っていない socket、初期化していない callback）も入れる。
-/
inductive Fault where
  | tableDoesNotExist
  | appendFailed
  | nodeRangeFailed
  | myUpdateRangeEmpty
  | unexpectedMyUpdatesReply
  | notContiguous (nodeId : NodeId)
  | nullPropPushSock
  | unrecognizedMessage
  | myUpdatesNotFound
  | frontOfEmptyQueue
  | myRangeNotFound
  | notContained
  | seqNumMismatch
  | startIterationFailed
  | updateNotFound
  | uninitializedCallback
  | badReceiverState
  | signalTermFailed
  deriving Repr, DecidableEq

/-! ## table -/

/-- `TableConfig`。callback は関数ポインタの名前として持つ。 -/
structure TableConfig (V : Type) where
  vaddFunc : V → V → V
  vsubFunc : V → V → V
  loop : Bool
  applyUpdates : Bool
  forwardUpdates : Bool
  doUserCbk : Bool
  updateBuffCbk : Nat

/-- `InternalTable` の設定の側。`storage_` は node の状態に置く。 -/
structure InternalTable (V : Type) where
  vaddFunc : V → V → V
  vsubFunc : V → V → V
  loop : Bool
  applyUpdates : Bool
  forwardUpdates : Bool
  doUserCbk : Bool
  /-- 初期化されていなければ `none`。 -/
  updateBuffCbk : Option Nat

/-- `InternalTable` の constructor。initializer list は `update_buff_cbk_` を写さない。 -/
def InternalTable.ofConfig {V : Type} (config : TableConfig V) : InternalTable V where
  vaddFunc := config.vaddFunc
  vsubFunc := config.vsubFunc
  loop := config.loop
  applyUpdates := config.applyUpdates
  forwardUpdates := config.forwardUpdates
  doUserCbk := config.doUserCbk
  updateBuffCbk := none

/-- table の中身。無い key は全 byte 0 の値として読める。 -/
abbrev Storage (V : Type) := Key → V

/-- `InternalTable::IncRaw`。 -/
def incRaw {V : Type} (vadd : V → V → V) (storage : Storage V) (key : Key) (delta : V) :
    Storage V :=
  Function.update storage key (vadd (storage key) delta)

/-! ## logical node の設定 -/

/--
logical node 一つの設定（`PropagatorConfig` と `ReceiverConfig`）。

`expected` は handshake で `PropInit` を送ってきた propagator の id で、
その個数が `num_expected_propagators_` である。
-/
structure NodeConfig (V : Type) where
  myId : NodeId
  nanosec : Int
  downstreamRecv : NodeId
  expected : List NodeId
  tableDir : AList fun _ : TableId => TableConfig V

namespace NodeConfig

variable {V : Type}

def hasDownstream (c : NodeConfig V) : Bool := decide (0 ≤ c.downstreamRecv)

def numExpectedPropagators (c : NodeConfig V) : Nat := c.expected.length

/-- `CreateHTable` が作って receiver に登録する table。 -/
def internalTable (c : NodeConfig V) (t : TableId) : Option (InternalTable V) :=
  (c.tableDir.lookup t).map InternalTable.ofConfig

end NodeConfig

/-! ## 履歴 -/

/-- run の間に起きたことの記録。動作には使わない。 -/
inductive Event (V : Type) where
  /-- `Table::Inc` を local の table に足した。 -/
  | inc (id : NodeId) (t : TableId) (key : Key) (delta : V)
  /-- propagator が RUN で `EPUpdateLog` を処理した。 -/
  | logHandled (id : NodeId) (t : TableId) (key : Key) (delta : V)
  /-- propagator が `EMyUpdates` を送った。 -/
  | myUpdatesSent (id : NodeId) (t : TableId) (buff : UpdateBuffer V)
  /-- receiver が `EMyUpdates` を処理した。`pushed` は queue に入れたかどうか。 -/
  | registered (id : NodeId) (t : TableId) (buff : UpdateBuffer V) (pushed : Bool)
  /-- propagator が `EMyUpdatesACK` を受けた。 -/
  | ackReceived (id : NodeId) (t : TableId)
  /-- propagator が `EPRUpdateBuffer` を下流へ送った。 -/
  | sent (id : NodeId) (t : TableId) (buff : UpdateBuffer V)
  /-- propagator が `EPRTerminateACK` を下流へ送った。 -/
  | termAckSent (id : NodeId)
  /-- receiver が RUN で `EPRUpdateBuffer` を受けた。 -/
  | received (id : NodeId) (t : TableId) (buff : UpdateBuffer V)
  /-- propagator が paired receiver から来た peer の range を記録した。 -/
  | recorded (id : NodeId) (t : TableId) (peer : NodeId) (r : UpdateRange)
  deriving DecidableEq

end QuiltDB
