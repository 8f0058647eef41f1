import QuiltDB.Comm.Protocol

/-!
# propagator thread（`comm/propagator.cpp`）

`Propagator::PropagatorThrMain` の main loop。handshake は済んでいて、状態は RUN から始まる。

timer の分岐は途中で二度 block する（`EMyUpdatesACK` を待つ所と、timer thread を join する所）。
そこで main loop の位置を `pc` として持ち、分岐を block する所で切って一歩ずつにする。

* `poll` — `zmq::poll`
* `flush todo` — `update_store` を回す for loop。`todo` はまだ見ていない table
* `waitAck t buff todo` — table `t` の `EMyUpdates` を送って返事を待っている。
  `buff` は返事の後に下流へ送る buffer
* `waitStop` — `timer.WaitStop()`
* `returned` — `return` した

`unordered_map` を回る順は決まっていないので、一歩の引数 `FlushOrder` として与える。
回りながらの `erase` は残りの走査を壊さないものとする。
-/

namespace QuiltDB

inductive PropagatorState where
  | init | run | termPrep | term
  deriving Repr, DecidableEq

/-- table 一つについて propagator が持つ四つの map の値。 -/
structure PropTable (V : Type) where
  updateStore : AList fun _ : Key => V
  tablePeersUpdateRange : AList fun _ : NodeId => UpdateRange
  myUpdateRange : UpdateRange
  myUpdateStore : AList fun _ : Key => V

inductive PropagatorPc (V : Type) where
  | poll
  | flush (todo : List TableId)
  | waitAck (t : TableId) (buff : UpdateBuffer V) (todo : List TableId)
  | waitStop
  | returned
  deriving DecidableEq

structure Propagator (V : Type) where
  state : PropagatorState
  tab : TableId → PropTable V
  haveReceivedDsTerm : Bool
  haveRepliedDsTerm : Bool
  haveStoppedTimerThr : Bool
  haveStoppedRecvThr : Bool
  /-- `internal_prop_recv_pair_push_sock` を作ったか。 -/
  pairPushSock : Bool
  pc : PropagatorPc V

/-- propagator が一歩の間に送るもの。 -/
structure PropOut (V : Type) where
  /-- `timer_send_sock`。`TimerCmdMsg` の `nanosec_` である。 -/
  cmd : List Int := []
  /-- `internal_prop_recv_pair_push_sock` -/
  pair : List (ReceiverMsg V) := []
  /-- `prop_push_sock` -/
  push : List (PropRecvMsg V) := []
  events : List (Event V) := []

/-- map の中身を対の列で見る。 -/
def pairs {α β : Type} (m : AList fun _ : α => β) : List (α × β) :=
  m.entries.map fun e => (e.1, e.2)

/-- `unordered_map` の三つの走査の順。 -/
structure FlushOrder (V : Type) where
  updates : List (Key × V)
  peers : List (NodeId × UpdateRange)
  mine : List (Key × V)

/-- 走査の順は map の中身の並べ替えである。 -/
def FlushOrder.Valid {V : Type} (o : FlushOrder V) (pt : PropTable V) : Prop :=
  o.updates.Perm (pairs pt.updateStore) ∧ o.peers.Perm (pairs pt.tablePeersUpdateRange) ∧
    o.mine.Perm (pairs pt.myUpdateStore)

instance {V : Type} [DecidableEq V] (o : FlushOrder V) (pt : PropTable V) :
    Decidable (o.Valid pt) := inferInstanceAs (Decidable (_ ∧ _ ∧ _))

namespace Propagator

variable {V : Type} [Zero V]

/-- main loop に入る時の状態。下流が無ければ `have_replied_ds_term` は初めから立つ。 -/
def start (c : NodeConfig V) : Propagator V where
  state := .run
  tab := fun _ =>
    { updateStore := ∅, tablePeersUpdateRange := ∅,
      myUpdateRange := { st := 0, end_ := -1 }, myUpdateStore := ∅ }
  haveReceivedDsTerm := false
  haveRepliedDsTerm := !c.hasDownstream
  haveStoppedTimerThr := false
  haveStoppedRecvThr := false
  pairPushSock := false
  pc := .poll

/-- `Propagator::AddUpdate`。 -/
def addUpdate (vadd : V → V → V) (updates : AList fun _ : Key => V) (key : Key) (delta : V) :
    AList fun _ : Key => V :=
  updates.insert key (vadd ((updates.lookup key).getD 0) delta)

/-- 終了の判定。三か所で同じ条件を調べる。 -/
def exitTest (p : Propagator V) : Propagator V :=
  if p.haveStoppedTimerThr && p.haveStoppedRecvThr && p.haveRepliedDsTerm then
    { p with state := .term, pc := .returned }
  else p

/-! ## timer の分岐 -/

/-- `ETimerTrigger` を受けて timer に返事をし、for loop に入る。 -/
def onTimerTrigger (c : NodeConfig V) (p : Propagator V) (order : List TableId) :
    Propagator V × PropOut V :=
  ({ p with pc := .flush order }, { cmd := [if p.state = .run then c.nanosec else 0] })

/-- `AppendUpdate` の loop。 -/
def appendUpdates : UpdateBuffer V → List (Key × V) → Option (UpdateBuffer V)
  | b, [] => some b
  | b, (key, delta) :: rest =>
    match b.appendUpdate key delta with
    | none => none
    | some b' => appendUpdates b' rest

/-- peer の range を buffer に書き、書いた分の `st_` を進める loop。 -/
def emitPeerRanges : UpdateBuffer V → (AList fun _ : NodeId => UpdateRange) →
    List (NodeId × UpdateRange) →
      Option (UpdateBuffer V × AList fun _ : NodeId => UpdateRange)
  | b, peers, [] => some (b, peers)
  | b, peers, (nodeId, r) :: rest =>
    if r.st ≤ r.end_ then
      match b.updateNodeRange nodeId r.st r.end_ with
      | none => none
      | some b' => emitPeerRanges b' (peers.insert nodeId { r with st := r.end_ + 1 }) rest
    else emitPeerRanges b peers rest

/-- 自分の range が空でなければ buffer に書く。 -/
def emitMyRange (c : NodeConfig V) (b : UpdateBuffer V) (r : UpdateRange) :
    Option (UpdateBuffer V) :=
  if r.st ≤ r.end_ then b.updateNodeRange c.myId r.st r.end_ else some b

/-- buffer を下流へ送り、自分の range の `st_` を進める。 -/
def finishFlush (c : NodeConfig V) (p : Propagator V) (t : TableId) (buff : UpdateBuffer V)
    (todo : List TableId) : Except Fault (Propagator V × PropOut V) :=
  let pt := p.tab t
  -- `EMyUpdatesACK` を待つ間に log は読まないので、`end_` は buffer に書いた値のままである。
  let range := { pt.myUpdateRange with st := pt.myUpdateRange.end_ + 1 }
  -- 下流が無ければ `prop_push_sock` は NULL のままで、`SendMsg` がそれを辿る。
  if c.hasDownstream then
    .ok ({ p with tab := Function.update p.tab t { pt with myUpdateRange := range }
                  pc := .flush todo },
      { push := [.eprUpdateBuffer t buff], events := [.sent c.myId t buff] })
  else .error .nullPropPushSock

/-- `EMyUpdates` で paired receiver に渡す buffer を作る。 -/
def buildMyBuffer (c : NodeConfig V) (pt : PropTable V) (mine : List (Key × V)) :
    Except Fault (UpdateBuffer V) :=
  match appendUpdates (UpdateBuffer.createUpdateBuffer pt.myUpdateStore.entries.length 1) mine with
  | none => .error .appendFailed
  | some myBuff =>
    if pt.myUpdateRange.st ≤ pt.myUpdateRange.end_ then
      -- ここの `UpdateNodeRange` の戻り値は見られない。
      .ok ((myBuff.updateNodeRange c.myId pt.myUpdateRange.st pt.myUpdateRange.end_).getD myBuff)
    else .error .myUpdateRangeEmpty

/-- 下流へ送る buffer と、`st_` を進めた peer の表を作る。 -/
def buildBuffer (c : NodeConfig V) (pt : PropTable V) (o : FlushOrder V) :
    Except Fault (UpdateBuffer V × AList fun _ : NodeId => UpdateRange) :=
  match appendUpdates (UpdateBuffer.createUpdateBuffer pt.updateStore.entries.length
      (pt.tablePeersUpdateRange.entries.length + 1)) o.updates with
  | none => .error .appendFailed
  | some buff =>
    match emitPeerRanges buff pt.tablePeersUpdateRange o.peers with
    | none => .error .nodeRangeFailed
    | some (buff, peers) =>
      match emitMyRange c buff pt.myUpdateRange with
      | none => .error .nodeRangeFailed
      | some buff => .ok (buff, peers)

/-- for loop の本体。table 一つ分である。 -/
def flushTable (c : NodeConfig V) (p : Propagator V) (t : TableId) (todo : List TableId)
    (o : FlushOrder V) : Except Fault (Propagator V × PropOut V) :=
  let pt := p.tab t
  if pt.updateStore.entries.length = 0 then .ok ({ p with pc := .flush todo }, {})
  else
    match buildBuffer c pt o with
    | .error e => .error e
    | .ok (buff, peers) =>
      -- peer の `st_` は、下流へ送る前にもう進めてある。
      let pt' := { pt with updateStore := ∅, tablePeersUpdateRange := peers }
      if ((c.tableDir.lookup t).any fun tc => tc.loop) && pt.myUpdateStore.entries.length != 0 then
        match buildMyBuffer c pt o.mine with
        | .error e => .error e
        | .ok myBuff =>
          -- `RecvMsg` は返事が届くまで戻らないので、本体の残りは `waitAck` の先に分ける。
          .ok ({ p with tab := Function.update p.tab t { pt' with myUpdateStore := ∅ }
                        pairPushSock := true
                        pc := .waitAck t buff todo },
            { pair := [.eMyUpdates t myBuff], events := [.myUpdatesSent c.myId t myBuff] })
      else finishFlush c { p with tab := Function.update p.tab t pt' } t buff todo

/-- `EMyUpdates` の返事を受けて、for loop の本体の残りを行う。 -/
def onMyUpdatesReply (c : NodeConfig V) (p : Propagator V) (t : TableId) (buff : UpdateBuffer V)
    (todo : List TableId) (msg : PropagatorMsg V) : Except Fault (Propagator V × PropOut V) :=
  match msg with
  | .eMyUpdatesACK =>
    match finishFlush c p t buff todo with
    | .error e => .error e
    | .ok (p', out) => .ok (p', { out with events := .ackReceived c.myId t :: out.events })
  | _ => .error .unexpectedMyUpdatesReply

/-- for loop を抜けた所。TERM_PREP なら timer thread の終わりを待つ。 -/
def flushEnd (p : Propagator V) : Propagator V :=
  { p with pc := if p.state = .termPrep then .waitStop else .poll }

/-- `timer.WaitStop()` が戻った所。 -/
def onTimerStopped (p : Propagator V) : Propagator V :=
  exitTest { p with haveStoppedTimerThr := true, pc := .poll }

/-! ## `update_pull_sock` の message -/

/-- `EPUpdateLog`。 -/
def onUpdateLog (c : NodeConfig V) (p : Propagator V) (t : TableId) (key : Key) (delta : V) :
    Except Fault (Propagator V × PropOut V) :=
  if p.state ≠ .run then .ok (p, {})
  else
    let pt := p.tab t
    -- 数えるのが先で、`nanosec_ <= 0` の枝は TODO のまま delta を捨てる。
    let range := { pt.myUpdateRange with end_ := pt.myUpdateRange.end_ + 1 }
    if c.nanosec ≤ 0 then
      .ok ({ p with tab := Function.update p.tab t { pt with myUpdateRange := range } },
        { events := [.logHandled c.myId t key delta] })
    else
      match c.tableDir.lookup t with
      | none => .error .tableDoesNotExist
      | some tc =>
        let myStore :=
          if tc.loop then addUpdate tc.vaddFunc pt.myUpdateStore key delta else pt.myUpdateStore
        .ok ({ p with tab := Function.update p.tab t
                        { pt with updateStore := addUpdate tc.vaddFunc pt.updateStore key delta
                                  myUpdateRange := range
                                  myUpdateStore := myStore } },
          { events := [.logHandled c.myId t key delta] })

/-- peer の range を一つ記録する。続きでなければ `CHECK` で落ちる。 -/
def recordRange (peers : AList fun _ : NodeId => UpdateRange) (nodeId : NodeId)
    (r : UpdateRange) : Except Fault (AList fun _ : NodeId => UpdateRange) :=
  match peers.lookup nodeId with
  | none => .ok (peers.insert nodeId r)
  | some old =>
    -- 空にした range も `end_` を残すので、次に届く `st_` はその続きでなければならない。
    if old.end_ + 1 = r.st then .ok (peers.insert nodeId { old with end_ := r.end_ })
    else .error (.notContiguous nodeId)

/-- buffer の range を順に記録する while loop。 -/
def recordRanges : (AList fun _ : NodeId => UpdateRange) → List (NodeId × UpdateRange) →
    Except Fault (AList fun _ : NodeId => UpdateRange)
  | peers, [] => .ok peers
  | peers, (nodeId, r) :: rest =>
    match recordRange peers nodeId r with
    | .error e => .error e
    | .ok peers' => recordRanges peers' rest

/-- `EPUpdateBuffer`。 -/
def onUpdateBuffer (c : NodeConfig V) (p : Propagator V) (t : TableId) (buff : UpdateBuffer V) :
    Except Fault (Propagator V × PropOut V) :=
  match c.tableDir.lookup t with
  | none => .error .tableDoesNotExist
  | some tc =>
    if p.state ≠ .run then .ok (p, {})
    else
      let pt := p.tab t
      -- range の `CHECK` より先に、update を全て `update_store` に足す。
      let store := buff.iterUpdates.foldl (fun m kv => addUpdate tc.vaddFunc m kv.1 kv.2)
        pt.updateStore
      match recordRanges pt.tablePeersUpdateRange buff.iterNodeRanges with
      | .error e => .error e
      | .ok peers =>
        .ok ({ p with tab := Function.update p.tab t
                        { pt with updateStore := store, tablePeersUpdateRange := peers } },
          { events := buff.iterNodeRanges.map fun r => .recorded c.myId t r.1 r.2 })

/-- `EPRTerminateACK` を下流へ送る。 -/
def replyTerminate (c : NodeConfig V) (p : Propagator V) :
    Except Fault (Propagator V × PropOut V) :=
  if c.hasDownstream then
    .ok ({ p with haveRepliedDsTerm := true },
      { push := [.eprTerminateACK c.myId], events := [.termAckSent c.myId] })
  else .error .nullPropPushSock

/-- `EPInternalTerminate`。この分岐は終了の判定をしない。 -/
def onInternalTerminate (c : NodeConfig V) (p : Propagator V) :
    Except Fault (Propagator V × PropOut V) :=
  let p := { p with state := .termPrep }
  match if p.haveReceivedDsTerm then replyTerminate c p else .ok (p, {}) with
  | .error e => .error e
  | .ok (p, out) =>
    .ok ({ p with pairPushSock := true
                  tab := fun t => { p.tab t with updateStore := ∅ } },
      { out with pair := [.eprInternalTerminate] })

/-- `EPRecvInternalTerminateACK`。 -/
def onRecvInternalTerminateACK (p : Propagator V) : Propagator V :=
  exitTest { p with haveStoppedRecvThr := true }

/-- `update_pull_sock` から読んだ message の処理。 -/
def handleUpdate (c : NodeConfig V) (p : Propagator V) :
    PropagatorMsg V → Except Fault (Propagator V × PropOut V)
  | .epUpdateLog t key delta => onUpdateLog c p t key delta
  | .epUpdateBuffer t buff => onUpdateBuffer c p t buff
  | .epInternalTerminate => onInternalTerminate c p
  | .epRecvInternalTerminateACK => .ok (onRecvInternalTerminateACK p, {})
  | _ => .error .unrecognizedMessage

/-! ## `term_sub_sock` の message -/

/-- `EPRTerminate`。 -/
def onTerminate (c : NodeConfig V) (p : Propagator V) : Except Fault (Propagator V × PropOut V) :=
  if p.state = .termPrep then
    match replyTerminate c { p with haveReceivedDsTerm := true } with
    | .error e => .error e
    | .ok (p, out) => .ok (exitTest p, out)
  else .ok ({ p with haveReceivedDsTerm := true }, {})

/-- `term_sub_sock` から読んだ message の処理。 -/
def handleTermSub (c : NodeConfig V) (p : Propagator V) :
    PropRecvMsg V → Except Fault (Propagator V × PropOut V)
  | .eprTerminate => onTerminate c p
  | _ => .error .unrecognizedMessage

end Propagator

/-! ## thread の一歩 -/

/-- propagator thread が main loop で処理するもの。 -/
inductive PropInput (V : Type) where
  | timerTrigger (order : List TableId)
  | flushTable (o : FlushOrder V)
  | myUpdatesReply (msg : PropagatorMsg V)
  | flushEnd
  /-- `timer.WaitStop()` が戻る。 -/
  | timerStopped
  | update (msg : PropagatorMsg V)
  | termSub (msg : PropRecvMsg V)

/-- propagator thread の一歩と、その間に送るもの。動けなければ `none`。 -/
def propHandle {V : Type} [Zero V] [DecidableEq V] (c : NodeConfig V) (p : Propagator V)
    (i : PropInput V) : Option (Except Fault (Propagator V × PropOut V)) :=
  match i, p.pc with
  | .timerTrigger order, .poll =>
    if 0 < c.nanosec ∧ order.Perm c.tableDir.keys then some (.ok (p.onTimerTrigger c order))
    else none
  | .flushTable o, .flush (t :: todo) =>
    if o.Valid (p.tab t) then some (p.flushTable c t todo o) else none
  | .myUpdatesReply msg, .waitAck t buff todo => some (p.onMyUpdatesReply c t buff todo msg)
  | .flushEnd, .flush [] => some (.ok (p.flushEnd, {}))
  | .timerStopped, .waitStop => some (.ok (p.onTimerStopped, {}))
  | .update msg, .poll => some (p.handleUpdate c msg)
  | .termSub msg, .poll => if c.hasDownstream then some (p.handleTermSub c msg) else none
  | _, _ => none

end QuiltDB
