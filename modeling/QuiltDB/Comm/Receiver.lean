import QuiltDB.Comm.Protocol

/-!
# receiver thread（`comm/receiver.cpp`）

`Receiver::ReceiverThrMain` の main loop を、message 一つを処理する関数として書く。
handshake は済んでいて、状態は RUN から始まる。

`return` した thread は `state = .term` で表す。main loop で `TERM` になるのは
`return` する所だけである。
-/

namespace QuiltDB

inductive ReceiverState where
  | init | run | termSelf | term
  deriving Repr, DecidableEq

structure Receiver (V : Type) where
  state : ReceiverState
  /-- `my_updates`。table の entry が無ければ `none`。 -/
  myUpdates : TableId → Option (List (UpdateBuffer V))
  /-- `peer_prop_info` の `has_replied_termination_`。 -/
  peerPropInfo : AList fun _ : NodeId => Bool
  haveReceivedPropPairTerm : Bool
  haveRepliedPropPairTerm : Bool

/-- receiver が message 一つの処理の間に送るもの。 -/
structure RecvOut (V : Type) where
  /-- `internal_pair_recv_push_sock` -/
  ack : List (PropagatorMsg V) := []
  /-- `internal_update_push_sock` -/
  upd : List (PropagatorMsg V) := []
  /-- `term_pub_sock` -/
  pub : List (PropRecvMsg V) := []
  /-- 呼んだ user の callback と、渡した引数。 -/
  cbk : List (Nat × TableId × UpdateBuffer V) := []
  events : List (Event V) := []

namespace Receiver

variable {V : Type}

/-- handshake の step 1 が `peer_prop_info` に書く分。 -/
def initPeers (expected : List NodeId) : AList fun _ : NodeId => Bool :=
  expected.foldl (fun m id => m.insert id false) ∅

/-- main loop に入る時の状態。 -/
def start (c : NodeConfig V) : Receiver V where
  state := .run
  myUpdates := fun _ => none
  peerPropInfo := initPeers c.expected
  haveReceivedPropPairTerm := false
  haveRepliedPropPairTerm := false

/-- `HasAllPeersAckedTerm`。 -/
def hasAllPeersAckedTerm (peerInfo : AList fun _ : NodeId => Bool) : Bool :=
  peerInfo.entries.all fun e => e.2

/-- 終了の判定。通れば `TERM` にして `return` する。 -/
def exitTest (r : Receiver V) : Receiver V :=
  if hasAllPeersAckedTerm r.peerPropInfo && r.haveRepliedPropPairTerm then
    { r with state := .term }
  else r

/-! ## inproc の message -/

/-- `EMyUpdates`。 -/
def onMyUpdates (c : NodeConfig V) (r : Receiver V) (t : TableId) (buff : UpdateBuffer V) :
    Receiver V × RecvOut V :=
  -- RUN でなければ buffer を捨てる。返事はどちらの場合にも送る。
  let r' :=
    if r.state = .run then
      { r with myUpdates := Function.update r.myUpdates t
                (some ((r.myUpdates t).getD [] ++ [buff])) }
    else r
  (r', { ack := [.eMyUpdatesACK],
         events := [.registered c.myId t buff (decide (r.state = .run))] })

/-- `ERInternalTerminate`。この分岐は終了の判定をしない。 -/
def onInternalTerminate (c : NodeConfig V) (r : Receiver V) : Receiver V × RecvOut V :=
  -- table の項目は残り、中の queue だけが空になる。
  let r' := { r with state := .termSelf, myUpdates := fun t => (r.myUpdates t).map fun _ => [] }
  ({ r' with haveRepliedPropPairTerm :=
       r.haveRepliedPropPairTerm || r.haveReceivedPropPairTerm },
   { upd := if r.haveReceivedPropPairTerm then [.epRecvInternalTerminateACK] else [],
     pub := if 0 < c.numExpectedPropagators then [.eprTerminate] else [] })

/-- `EPRInternalTerminate`。 -/
def onPropInternalTerminate (r : Receiver V) : Except Fault (Receiver V × RecvOut V) :=
  match r.state with
  | .run => .ok ({ r with haveReceivedPropPairTerm := true }, {})
  | .termSelf =>
    .ok (exitTest { r with haveRepliedPropPairTerm := true },
      { upd := [.epRecvInternalTerminateACK] })
  | _ => .error .badReceiverState

/-- `internal_recv_pull_sock` から読んだ message の処理。 -/
def handleInternal (c : NodeConfig V) (r : Receiver V) :
    ReceiverMsg V → Except Fault (Receiver V × RecvOut V)
  | .eMyUpdates t buff => .ok (onMyUpdates c r t buff)
  | .erInternalTerminate => .ok (onInternalTerminate c r)
  | .eprInternalTerminate => onPropInternalTerminate r

/-! ## TCP の message -/

/-- 自分の update 一つずつを、受け取った buffer から引く。 -/
def subtractUpdates (vsub : V → V → V) (recvBuff : UpdateBuffer V) :
    List (Key × V) → Except Fault (UpdateBuffer V)
  | [] => .ok recvBuff
  | (key, myDelta) :: rest =>
    match recvBuff.modifyUpdate key fun recvDelta => vsub recvDelta myDelta with
    | none => .error .updateNotFound
    | some recvBuff' => subtractUpdates vsub recvBuff' rest

/--
自分の batch を queue の先頭から引く do-while loop。

`seqNum` は最初は受け取った範囲の `st_` で、以後は引いた batch の `end_` である。
-/
def removeMyUpdates (myId : NodeId) (vsub : V → V → V) (recvRange : UpdateRange) :
    List (UpdateBuffer V) → Int → UpdateBuffer V →
      Except Fault (List (UpdateBuffer V) × UpdateBuffer V)
  | [], _, _ => .error .frontOfEmptyQueue
  | myBuff :: queue, seqNum, recvBuff =>
    match myBuff.getNodeRange myId with
    | none => .error .myRangeNotFound
    | some myRange =>
      -- 三つの `CHECK` は source の順に調べる。
      if !recvRange.contains myRange then .error .notContained
      else if myRange.st ≠ seqNum then .error .seqNumMismatch
      else
        match myBuff.startIteration with
        | none => .error .startIterationFailed
        | some myBuff' =>
          match subtractUpdates vsub recvBuff
              (UpdateBuffer.drainUpdates (myBuff'.updates.length + 1) myBuff') with
          | .error e => .error e
          | .ok recvBuff' =>
            -- `seq_num` は `end_ + 1` ではなく `end_` になる。
            if myRange.end_ < recvRange.end_ then
              removeMyUpdates myId vsub recvRange queue myRange.end_ recvBuff'
            else .ok (queue, recvBuff')

/-- 自分の range だけを運ぶ（または何も運ばない）buffer かどうかの判定。 -/
def carriesNoPeer (myId : NodeId) (recvBuff : UpdateBuffer V) : Bool :=
  match recvBuff.startNodeRangeIteration.nextNodeRange with
  | none => true
  | some ((testNodeId, _), recvBuff') =>
    if testNodeId = myId then recvBuff'.nextNodeRange.isNone else false

/-- 受け取った buffer から自分の update と range を除く。 -/
def dedup (c : NodeConfig V) (r : Receiver V) (t : TableId) (itable : InternalTable V)
    (recvBuff : UpdateBuffer V) : Except Fault (Receiver V × UpdateBuffer V) :=
  match recvBuff.getNodeRange c.myId with
  -- 自分の range が無ければ、引くものも消すものも無い。
  | none => .ok (r, recvBuff)
  | some recvMyRange =>
    match r.myUpdates t with
    | none => .error .myUpdatesNotFound
    | some queue =>
      match removeMyUpdates c.myId itable.vsubFunc recvMyRange queue recvMyRange.st recvBuff with
      | .error e => .error e
      | .ok (queue', recvBuff') =>
        .ok ({ r with myUpdates := Function.update r.myUpdates t (some queue') },
          -- `DeleteNodeRange` の戻り値は見られない。
          (recvBuff'.deleteNodeRange c.myId).getD recvBuff')

/-- `do_user_cbk` なら `ucbk` を呼ぶ。初期化していないポインタを呼ぶと未定義動作になる。 -/
def userCallback (itable : InternalTable V) (t : TableId) (buff : UpdateBuffer V) :
    Except Fault (List (Nat × TableId × UpdateBuffer V)) :=
  if itable.doUserCbk then
    match itable.updateBuffCbk with
    | none => .error .uninitializedCallback
    | some ucbk => .ok [(ucbk, t, buff)]
  else .ok []

/-- `EPRUpdateBuffer`。RUN でなければ捨てる。 -/
def onUpdateBuffer (c : NodeConfig V) (storage : TableId → Storage V) (r : Receiver V)
    (t : TableId) (recvBuff : UpdateBuffer V) :
    Except Fault (Receiver V × (TableId → Storage V) × RecvOut V) :=
  if r.state ≠ .run then .ok (r, storage, {})
  -- 輪を一周して自分の update だけが残った buffer は、queue に触れずに捨てる。
  else if carriesNoPeer c.myId recvBuff then
    .ok (r, storage, { events := [.received c.myId t recvBuff] })
  else
    match c.internalTable t with
    | none => .error .tableDoesNotExist
    | some itable =>
      match dedup c r t itable recvBuff with
      | .error e => .error e
      | .ok (r', buff) =>
        let storage' :=
          if itable.applyUpdates then
            Function.update storage t
              (buff.iterUpdates.foldl (fun s kv => incRaw itable.vaddFunc s kv.1 kv.2) (storage t))
          else storage
        match userCallback itable t buff with
        | .error e => .error e
        | .ok cbk =>
          .ok (r', storage',
            { upd := if itable.forwardUpdates then [.epUpdateBuffer t buff] else [],
              cbk := cbk,
              events := [.received c.myId t recvBuff] })

/-- `EPRTerminateACK`。 -/
def onTerminateACK (r : Receiver V) (nodeId : NodeId) : Receiver V :=
  exitTest { r with peerPropInfo := r.peerPropInfo.insert nodeId true }

/-- `update_pull_sock` から読んだ message の処理。 -/
def handleTcp (c : NodeConfig V) (storage : TableId → Storage V) (r : Receiver V) :
    PropRecvMsg V → Except Fault (Receiver V × (TableId → Storage V) × RecvOut V)
  | .eprUpdateBuffer t buff => onUpdateBuffer c storage r t buff
  | .eprTerminateACK nodeId => .ok (onTerminateACK r nodeId, storage, {})
  | .eprTerminate => .error .unrecognizedMessage

end Receiver

end QuiltDB
