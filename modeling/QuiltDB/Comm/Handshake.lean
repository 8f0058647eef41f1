import QuiltDB.Lib.Lts
import QuiltDB.Comm.Protocol

/-!
# 起動時の handshake（`comm/receiver.cpp`・`comm/propagator.cpp`）

一つの receiver と、その上流の propagator との間の四段の handshake。

1. propagator → receiver: `PropInit`
2. receiver → propagator: `PropInitACK`（全員の返事が届くまで何度も publish する）
3. propagator → receiver: `PropInitACKACK`
4. receiver → propagator: `PropStart`

push の socket は propagator ごとの FIFO である。publish された message は、購読が有効になった後の分
だけが propagator に届く。購読がいつ有効になるかは決まっていないので、それを一歩とする。

main loop に入った後は、main loop の message だけをやりとりする。main loop の処理そのものは
`Comm/Propagator.lean` と `Comm/Receiver.lean` にある。
-/

namespace QuiltDB

/-- TCP の socket を流れる message（`PropRecvMsgType`）。 -/
inductive WireMsg (V : Type) where
  | propInit (nodeId : NodeId)
  | propInitACK
  | propInitACKACK (nodeId : NodeId)
  | propStart
  /-- main loop の message。 -/
  | main (msg : PropRecvMsg V)

namespace WireMsg

variable {V : Type}

/-- 一つ目の part の大きさ。 -/
def size : WireMsg V → Nat
  | .propInit _ | .propInitACKACK _ | .main (.eprUpdateBuffer ..) | .main (.eprTerminateACK _) => 8
  | .propInitACK | .propStart | .main .eprTerminate => 4

/-- 大きさ 8 の message の後半。`PropInitMsg` なら `node_id_` である。 -/
def secondWord : WireMsg V → Int
  | .propInit nodeId | .propInitACKACK nodeId | .main (.eprTerminateACK nodeId) => nodeId
  | .main (.eprUpdateBuffer t _) => t
  | .propInitACK | .propStart | .main .eprTerminate => 0

/-- handshake の message か。 -/
def isHandshake : WireMsg V → Bool
  | .main _ => false
  | _ => true

def isPropInitACK : WireMsg V → Bool
  | .propInitACK => true
  | _ => false

def isPropStart : WireMsg V → Bool
  | .propStart => true
  | _ => false

end WireMsg

/-- `CHECK` と `LOG(FATAL)`。 -/
inductive HsFault where
  /-- 大きさの `CHECK` -/
  | malformed
  /-- message の種類の `CHECK` -/
  | unexpected
  /-- main loop の `default` -/
  | unrecognizedMessage
  deriving Repr, DecidableEq

/-- receiver の位置。 -/
inductive HsRecvPc where
  /-- Step 1 の for loop -/
  | init (numProps : Nat)
  /-- Step 2 の `SendMsg` の前 -/
  | ack (numProps : Nat)
  /-- Step 3 の do while loop -/
  | drain (numProps : Nat)
  /-- Step 4 の前 -/
  | start
  /-- main loop -/
  | run
  deriving Repr, DecidableEq

/-- propagator の位置。 -/
inductive HsPropPc where
  /-- Step 1 の前 -/
  | sendInit
  /-- Step 2 -/
  | waitAck
  /-- Step 3 の前 -/
  | sendAckAck
  /-- Step 4 の while loop -/
  | waitStart
  /-- main loop -/
  | run
  deriving Repr, DecidableEq

/-- receiver 一つと、その上流の propagator。 -/
structure HsConfig (ι : Type) where
  props : List ι
  props_nodup : props.Nodup
  mem_props : ∀ i, i ∈ props
  props_ne_nil : props ≠ []
  id : ι → NodeId
  id_injective : Function.Injective id

/-- `num_expected_propagators_` -/
def HsConfig.numExpectedPropagators {ι : Type} (c : HsConfig ι) : Nat := c.props.length

structure HsState (ι V : Type) where
  recvPc : HsRecvPc
  /-- `peer_prop_info` の key。 -/
  peers : List NodeId
  propPc : ι → HsPropPc
  /-- `prop_push_sock` から `update_pull_sock` へ -/
  pushQ : ι → List (WireMsg V)
  /-- `term_pub_sock` から `term_sub_sock` へ -/
  subQ : ι → List (WireMsg V)
  /-- 購読が有効になったか。 -/
  subscribed : ι → Bool
  /-- 以下は動作には使わない履歴。publish した message。 -/
  published : List (WireMsg V)
  /-- 購読が有効になる前に publish された message。 -/
  missed : ι → List (WireMsg V)
  /-- propagator が送った message。 -/
  pushed : ι → List (WireMsg V)
  /-- receiver が読んだ message。 -/
  taken : ι → List (WireMsg V)
  /-- propagator が読んだ message。 -/
  got : ι → List (WireMsg V)

inductive HsLabel (ι V : Type) where
  /-- 購読が有効になる。 -/
  | subscribe (i : ι)
  /-- propagator が handshake の message を送る。 -/
  | send (i : ι)
  /-- propagator が publish された message を読む。 -/
  | recvSub (i : ι)
  /-- main loop の propagator が送る。 -/
  | sendMain (i : ι) (msg : PropRecvMsg V)
  /-- receiver が handshake の message を publish する。 -/
  | publish
  /-- receiver が `i` の送った message を読む。 -/
  | recvPush (i : ι)
  /-- Step 3 の `RecvMsgAsync` が 0 を返す。 -/
  | recvNothing
  /-- main loop の receiver が publish する。 -/
  | publishMain (msg : PropRecvMsg V)

variable {ι V : Type}

/-- handshake の前。 -/
def HsState.start : HsState ι V where
  recvPc := .init 0
  peers := []
  propPc := fun _ => .sendInit
  pushQ := fun _ => []
  subQ := fun _ => []
  subscribed := fun _ => false
  published := []
  missed := fun _ => []
  pushed := fun _ => []
  taken := fun _ => []
  got := fun _ => []

namespace HsConfig

/-- Step 2 の while loop の条件を調べる。 -/
def loopHead (c : HsConfig ι) (numProps : Nat) : HsRecvPc :=
  if numProps < c.numExpectedPropagators then .ack numProps else .start

/-- Step 1 の for loop の本体。message の種類は調べない。 -/
def onInit (c : HsConfig ι) (numProps : Nat) (peers : List NodeId) (msg : WireMsg V) :
    Except HsFault (HsRecvPc × List NodeId) :=
  -- `CHECK` は大きさだけを見るので、二つめの word がそのまま peer の id になる。
  if msg.size ≠ 8 then .error .malformed
  else
    .ok (if numProps + 1 < c.numExpectedPropagators then .init (numProps + 1) else c.loopHead 0,
      peers.insert msg.secondWord)

/-- Step 3 で message を一つ読んだ時。 -/
def onAckAck (c : HsConfig ι) (numProps : Nat) (msg : WireMsg V) : Except HsFault HsRecvPc :=
  if msg.size ≠ 8 then .error .malformed
  else
    match msg with
    | .propInitACKACK _ =>
      -- 揃ったところで `break` し、外の while loop の条件に戻る。
      .ok (if numProps + 1 = c.numExpectedPropagators then c.loopHead (numProps + 1)
        else .drain (numProps + 1))
    | _ => .error .unexpected

end HsConfig

/-- propagator が読んだ message の処理。読まない位置なら `none`。 -/
def HsPropPc.onSub (msg : WireMsg V) : HsPropPc → Option (Except HsFault HsPropPc)
  | .sendInit | .sendAckAck => none
  | .waitAck =>
    if msg.size ≠ 4 then some (.error .malformed)
    else if msg.isPropInitACK then some (.ok .sendAckAck)
    else some (.error .unexpected)
  | .waitStart =>
    if msg.size ≠ 4 then some (.error .malformed)
    -- 二通めからの `PropInitACK` はここで読み飛ばす。
    else if msg.isPropStart then some (.ok .run)
    else some (.ok .waitStart)
  | .run => if msg.isHandshake then some (.error .unrecognizedMessage) else some (.ok .run)

/-- receiver が読んだ message の処理。読まない位置なら `none`。 -/
def HsConfig.onPush (c : HsConfig ι) (peers : List NodeId) (msg : WireMsg V) :
    HsRecvPc → Option (Except HsFault (HsRecvPc × List NodeId))
  | .init numProps => some (c.onInit numProps peers msg)
  | .drain numProps => some ((c.onAckAck numProps msg).map fun pc => (pc, peers))
  | .run =>
    if msg.isHandshake then some (.error .unrecognizedMessage) else some (.ok (.run, peers))
  | .ack _ | .start => none

namespace HsState

variable [DecidableEq ι]

/-- publish された message は、購読が有効な propagator だけに届く。 -/
def publish (s : HsState ι V) (msg : WireMsg V) : HsState ι V :=
  { s with
    published := s.published ++ [msg]
    subQ := fun i => if s.subscribed i then s.subQ i ++ [msg] else s.subQ i
    missed := fun i => if s.subscribed i then s.missed i else s.missed i ++ [msg] }

/-- propagator が送る。 -/
def push (s : HsState ι V) (i : ι) (msg : WireMsg V) : HsState ι V :=
  { s with
    pushQ := Function.update s.pushQ i (s.pushQ i ++ [msg])
    pushed := Function.update s.pushed i (s.pushed i ++ [msg]) }

end HsState

/-- 一歩の意味。 -/
def hsStep [DecidableEq ι] (c : HsConfig ι) (s : HsState ι V) :
    HsLabel ι V → Option (Except HsFault (HsState ι V))
  | .subscribe i =>
    if s.subscribed i then none
    else some (.ok { s with subscribed := Function.update s.subscribed i true })
  | .send i =>
    match s.propPc i with
    | .sendInit =>
      some (.ok ({ s with propPc := Function.update s.propPc i .waitAck }.push i
        (.propInit (c.id i))))
    | .sendAckAck =>
      some (.ok ({ s with propPc := Function.update s.propPc i .waitStart }.push i
        (.propInitACKACK (c.id i))))
    | _ => none
  | .recvSub i =>
    match s.subQ i with
    | [] => none
    | msg :: rest =>
      ((s.propPc i).onSub msg).map (Except.map fun pc =>
        { s with propPc := Function.update s.propPc i pc
                 subQ := Function.update s.subQ i rest
                 got := Function.update s.got i (s.got i ++ [msg]) })
  | .sendMain i msg => if s.propPc i = .run then some (.ok (s.push i (.main msg))) else none
  | .publish =>
    match s.recvPc with
    | .ack numProps => some (.ok ({ s with recvPc := .drain numProps }.publish .propInitACK))
    | .start => some (.ok ({ s with recvPc := .run }.publish .propStart))
    | _ => none
  | .recvPush i =>
    match s.pushQ i with
    | [] => none
    | msg :: rest =>
      (c.onPush s.peers msg s.recvPc).map (Except.map fun r =>
        { s with recvPc := r.1
                 peers := r.2
                 pushQ := Function.update s.pushQ i rest
                 taken := Function.update s.taken i (s.taken i ++ [msg]) })
  | .recvNothing =>
    match s.recvPc with
    | .drain numProps => some (.ok { s with recvPc := c.loopHead numProps })
    | _ => none
  | .publishMain msg => if s.recvPc = .run then some (.ok (s.publish (.main msg))) else none

/-- 着ける状態。どの thread も異常終了していない。 -/
abbrev HsReachable [DecidableEq ι] (c : HsConfig ι) : HsState ι V → Prop :=
  Lts.Reachable (hsStep c) HsState.start

end QuiltDB
