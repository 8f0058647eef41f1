import QuiltDB.Comm.Propagator
import QuiltDB.Comm.Receiver

/-!
# logical node 一つ（`include/quiltdb.cpp`・`utils/timer_thr.cpp`）

logical node は propagator・receiver・timer の三つの thread と application の thread、
そしてそれらを結ぶ inproc の FIFO からなる。node の一歩は、そのうち一つの thread の一歩である。

`zmq::poll` は読める socket を優先順位を付けて選ぶが、ここではどれを読んでもよいことにする。
poll の後に届いた message は見えないので、優先順位があっても message の処理の順は
application・receiver・timer の速さで変わる。

application の thread は何本あってもよく、thread ごとに `update_push_sock_` を持つ。
`ShutDown` を呼ぶのは 0 番の thread で、呼んだ後は `Inc` をしない。
-/

namespace QuiltDB

/-- `ShutDown` を呼ぶ thread の位置。 -/
inductive AppPhase where
  | running
  /-- `hpropagator_.SignalTerm()` が済んだ。 -/
  | signaledProp
  /-- `hreceiver_.SignalTerm()` が済んで、propagator の join を待つ。 -/
  | signaledRecv
  /-- propagator を join して、receiver の join を待つ。 -/
  | joinedProp
  | finished
  deriving Repr, DecidableEq

/-- `NanoTimer` の thread の位置。 -/
inductive TimerThr where
  /-- 間隔が正でなければ start しない。 -/
  | notStarted
  | sleeping
  /-- `TimerHandler` が trigger を送って返事を待っている。 -/
  | waitCmd
  | exited
  deriving Repr, DecidableEq

/-- logical node 一つの状態。`〜Q` は inproc の FIFO である。 -/
structure NodeState (V : Type) where
  prop : Propagator V
  recv : Receiver V
  storage : TableId → Storage V
  app : AppPhase
  timer : TimerThr
  /-- application の `update_push_sock_`。thread の番号を付けて送った順に並べる。 -/
  appQ : List (Nat × PropagatorMsg V)
  /-- receiver の `internal_update_push_sock` -/
  updQ : List (PropagatorMsg V)
  /-- receiver の `internal_pair_recv_push_sock` -/
  ackQ : List (PropagatorMsg V)
  /-- propagator の `internal_prop_recv_pair_push_sock` -/
  pairQ : List (ReceiverMsg V)
  /-- application の `term_push_sock_` -/
  termQ : List (ReceiverMsg V)
  /-- timer の `timer_push_sock_` -/
  trigQ : List TimerMsg
  /-- propagator の `timer_send_sock` -/
  cmdQ : List Int

/-- node の外へ出るもの。 -/
structure NodeOut (V : Type) where
  /-- `prop_push_sock` -/
  push : List (PropRecvMsg V) := []
  /-- `term_pub_sock` -/
  pub : List (PropRecvMsg V) := []
  events : List (Event V) := []

/-- node の中だけで起きる一歩。 -/
inductive NodeLabel (V : Type) where
  /-- 番号 `thr` の thread の `Table::Inc` -/
  | inc (thr : Nat) (t : TableId) (key : Key) (delta : V)
  | signalTermProp
  | signalTermRecv
  | waitTermProp
  | waitTermRecv
  /-- timer が眠りから覚めて `ETimerTrigger` を送る。 -/
  | timerFire
  /-- timer が `ETimerCmd` を受ける。 -/
  | timerCmd
  | timerTrigger (order : List TableId)
  | flushTable (o : FlushOrder V)
  | myUpdatesReply
  | flushEnd
  | timerStopped
  /-- propagator が番号 `thr` の thread の message を読む。 -/
  | pullApp (thr : Nat)
  /-- propagator が paired receiver の message を読む。 -/
  | pullRecv
  /-- receiver が paired propagator の message を読む。 -/
  | recvPair
  /-- receiver が application の message を読む。 -/
  | recvTerm

/-- node の一歩。外から届いた message の処理も含める。 -/
inductive NodeInput (V : Type) where
  | self (l : NodeLabel V)
  /-- `update_pull_sock` に届いた message -/
  | tcp (msg : PropRecvMsg V)
  /-- `term_sub_sock` に届いた message -/
  | pub (msg : PropRecvMsg V)

/-- `Table::Inc` かどうか。 -/
def NodeLabel.isInc {V : Type} : NodeLabel V → Bool
  | .inc .. => true
  | _ => false

namespace NodeState

variable {V : Type} [Zero V]

/-- handshake が済み、どの thread も RUN に入った状態。 -/
def start (c : NodeConfig V) : NodeState V where
  prop := Propagator.start c
  recv := Receiver.start c
  storage := fun _ _ => 0
  app := .running
  timer := if 0 < c.nanosec then .sleeping else .notStarted
  appQ := []
  updQ := []
  ackQ := []
  pairQ := []
  termQ := []
  trigQ := []
  cmdQ := []

/-- propagator の一歩の結果を node に書き戻す。 -/
def putProp (ns : NodeState V) (p : Propagator V) (out : PropOut V) :
    NodeState V × NodeOut V :=
  ({ ns with prop := p, pairQ := ns.pairQ ++ out.pair, cmdQ := ns.cmdQ ++ out.cmd },
   { push := out.push, events := out.events })

/-- receiver の一歩の結果を node に書き戻す。 -/
def putRecv (ns : NodeState V) (r : Receiver V) (storage : TableId → Storage V)
    (out : RecvOut V) : NodeState V × NodeOut V :=
  ({ ns with recv := r, storage := storage, ackQ := ns.ackQ ++ out.ack, updQ := ns.updQ ++ out.upd },
   { pub := out.pub, events := out.events })

/-- propagator の handler の結果。 -/
def ofProp (ns : NodeState V) :
    Except Fault (Propagator V × PropOut V) → Except Fault (NodeState V × NodeOut V)
  | .error e => .error e
  | .ok (p, out) => .ok (ns.putProp p out)

/-- receiver の handler の結果。 -/
def ofRecv (ns : NodeState V) :
    Except Fault (Receiver V × RecvOut V) → Except Fault (NodeState V × NodeOut V)
  | .error e => .error e
  | .ok (r, out) => .ok (ns.putRecv r ns.storage out)

/-- `Table::Inc` の送る log の key。`Propagator::Inc` の引数は `int32_t` である。 -/
def logKey (key : Key) : Key := key.toInt32.toInt64

/-- `InternalTable::Inc`。`Propagator::Inc` は RUN でなければ `-1` を返し、それは見られない。 -/
def inc (c : NodeConfig V) (ns : NodeState V) (vadd : V → V → V) (thr : Nat) (t : TableId)
    (key : Key) (delta : V) : NodeState V × NodeOut V :=
  ({ ns with
      storage := Function.update ns.storage t (incRaw vadd (ns.storage t) key delta)
      appQ := if ns.prop.state = .run then ns.appQ ++ [(thr, .epUpdateLog t (logKey key) delta)]
              else ns.appQ },
   { events := [.inc c.myId t key delta] })

/-- 番号 `thr` の thread が送った最も古い message と、それを除いた残り。 -/
def takeApp (thr : Nat) (q : List (Nat × PropagatorMsg V)) :
    Option (PropagatorMsg V × List (Nat × PropagatorMsg V)) :=
  (q.find? fun e => e.1 == thr).map fun e => (e.2, q.eraseP fun e => e.1 == thr)

end NodeState

open NodeState in
/-- node の中だけで起きる一歩。動けなければ `none`。 -/
def nodeStepSelf {V : Type} [Zero V] [DecidableEq V] (c : NodeConfig V) (ns : NodeState V) :
    NodeLabel V → Option (Except Fault (NodeState V × NodeOut V))
  | .inc thr t key delta =>
    match c.tableDir.lookup t with
    | none => none
    | some tc =>
      -- 0 番は `ShutDown` を呼ぶ thread で、呼んだ後はもう `Inc` をしない。
      if thr = 0 ∧ ns.app ≠ .running then none
      else some (.ok (ns.inc c tc.vaddFunc thr t key delta))
  | .signalTermProp =>
    if ns.app = .running then
      if ns.prop.state = .run then
        some (.ok ({ ns with app := .signaledProp,
                             appQ := ns.appQ ++ [(0, .epInternalTerminate)] }, {}))
      else some (.error .signalTermFailed)
    else none
  | .signalTermRecv =>
    if ns.app = .signaledProp then
      if ns.recv.state = .run then
        some (.ok ({ ns with app := .signaledRecv,
                             termQ := ns.termQ ++ [.erInternalTerminate] }, {}))
      else some (.error .signalTermFailed)
    else none
  | .waitTermProp =>
    if ns.app = .signaledRecv ∧ ns.prop.pc = .returned then
      some (.ok ({ ns with app := .joinedProp }, {}))
    else none
  | .waitTermRecv =>
    if ns.app = .joinedProp ∧ ns.recv.state = .term then
      some (.ok ({ ns with app := .finished }, {}))
    else none
  | .timerFire =>
    if ns.timer = .sleeping then
      some (.ok ({ ns with timer := .waitCmd, trigQ := ns.trigQ ++ [.eTimerTrigger] }, {}))
    else none
  | .timerCmd =>
    match ns.timer, ns.cmdQ with
    | .waitCmd, nanosec :: rest =>
      -- propagator は RUN でなくなると 0 を返し、timer thread はそれで終わる。
      some (.ok ({ ns with timer := if nanosec ≤ 0 then .exited else .sleeping,
                           cmdQ := rest }, {}))
    | _, _ => none
  | .timerTrigger order =>
    match ns.prop.pc, ns.trigQ with
    | .poll, .eTimerTrigger :: rest =>
      -- まだ `update_store` に項目の無い table も並ぶが、空の store は飛ばされるので違いは無い。
      if 0 < c.nanosec ∧ order.Perm c.tableDir.keys then
        let (p, out) := ns.prop.onTimerTrigger c order
        some (.ok ({ ns with trigQ := rest }.putProp p out))
      else none
    | _, _ => none
  | .flushTable o =>
    match ns.prop.pc with
    | .flush (t :: todo) =>
      if o.Valid (ns.prop.tab t) then some (ns.ofProp (ns.prop.flushTable c t todo o)) else none
    | _ => none
  | .myUpdatesReply =>
    match ns.prop.pc, ns.ackQ with
    | .waitAck t buff todo, msg :: rest =>
      some ({ ns with ackQ := rest }.ofProp (ns.prop.onMyUpdatesReply c t buff todo msg))
    | _, _ => none
  | .flushEnd =>
    if ns.prop.pc = .flush [] then some (.ok (ns.putProp ns.prop.flushEnd {})) else none
  | .timerStopped =>
    -- `WaitStop` は timer thread の `pthread_join` である。
    if ns.prop.pc = .waitStop ∧ ns.timer = .exited then
      some (.ok (ns.putProp ns.prop.onTimerStopped {}))
    else none
  | .pullApp thr =>
    match ns.prop.pc, takeApp thr ns.appQ with
    | .poll, some (msg, rest) => some ({ ns with appQ := rest }.ofProp (ns.prop.handleUpdate c msg))
    | _, _ => none
  | .pullRecv =>
    match ns.prop.pc, ns.updQ with
    | .poll, msg :: rest => some ({ ns with updQ := rest }.ofProp (ns.prop.handleUpdate c msg))
    | _, _ => none
  | .recvPair =>
    match ns.pairQ with
    | [] => none
    | msg :: rest =>
      if ns.recv.state = .term then none
      else some ({ ns with pairQ := rest }.ofRecv (ns.recv.handleInternal c msg))
  | .recvTerm =>
    match ns.termQ with
    | [] => none
    | msg :: rest =>
      if ns.recv.state = .term then none
      else some ({ ns with termQ := rest }.ofRecv (ns.recv.handleInternal c msg))

/-- node の一歩。 -/
def nodeStep {V : Type} [Zero V] [DecidableEq V] (c : NodeConfig V) (ns : NodeState V) :
    NodeInput V → Option (Except Fault (NodeState V × NodeOut V))
  | .self l => nodeStepSelf c ns l
  -- `TERM` の receiver は `return` しているので、もう何も読まない。
  | .tcp msg =>
    if ns.recv.state = .term then none
    else
      match ns.recv.handleTcp c ns.storage msg with
      | .error e => some (.error e)
      | .ok (r, storage, out) => some (.ok (ns.putRecv r storage out))
  | .pub msg =>
    if ns.prop.pc = .poll then some (ns.ofProp (ns.prop.handleTermSub c msg)) else none

end QuiltDB
