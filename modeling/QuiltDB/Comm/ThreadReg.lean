import QuiltDB.Comm.Lifecycle

/-!
# thread の登録の失敗（`include/quiltdb.cpp`・`comm/propagator.cpp`）

`Comm/Lifecycle.lean` では socket はいつでも作れて繋がる。ここでは一本の application の thread から
見た二つの propagator だけを持ち、`zmq::socket_t` を作る時と `connect` の時に例外が起きる場合を
含めて、`RegisterThr`・`DeregisterThr`・`Inc` を書く。

`update_push_sock_` は thread ごとの pointer なので、他の thread の呼び出しは関わらない。
-/

namespace QuiltDB

/-- 一本の thread の `update_push_sock_`。 -/
inductive PushSock where
  | null
  /-- 作られたが、繋がっていない socket。 -/
  | unconnected
  | connected
  deriving Repr, DecidableEq

/-- 登録の一度の試みで、どこで例外が起きるか。 -/
structure SockFailure where
  /-- `new zmq::socket_t` が例外を投げる。 -/
  create : Bool
  /-- `connect` が例外を投げる。 -/
  connect : Bool
  deriving Repr, DecidableEq

/-- 例外の起きない試み。 -/
def SockFailure.quiet : SockFailure := { create := false, connect := false }

/-- 一本の thread から見た `Propagator`。 -/
structure ThrHandle where
  state : PropagatorState
  updatePushSock : PushSock
  deriving Repr, DecidableEq

namespace ThrHandle

/--
`Propagator::RegisterThr`。

`reset` は socket を作った後に呼ばれる。だから作る所の例外では pointer は NULL のままで、
`connect` の例外では繋がっていない socket が残る。
-/
def registerThr (p : ThrHandle) (f : SockFailure) : Int × ThrHandle :=
  if p.state ≠ .run then (-1, p)
  else if p.updatePushSock ≠ .null then (-1, p)
  else if f.create then (-1, p)
  else
    let p := { p with updatePushSock := .unconnected }
    if f.connect then (-1, p) else (0, { p with updatePushSock := .connected })

/-- `Propagator::DeregisterThr`。 -/
def deregisterThr (p : ThrHandle) : Int × ThrHandle :=
  if p.state = .init then (-1, p)
  else if p.updatePushSock = .null then (-1, p)
  else (0, { p with updatePushSock := .null })

/-- `Propagator::Inc` が message を送る socket。`-1` を返す時は `none` である。 -/
def incSock (p : ThrHandle) : Option PushSock :=
  if p.state ≠ .run then none
  else if p.updatePushSock = .null then none
  else some p.updatePushSock

end ThrHandle

/-- 一本の thread から見た `QuiltDB`。 -/
structure ThrReg where
  hpropagator : ThrHandle
  vpropagator : ThrHandle
  deriving Repr, DecidableEq

/-- thread が呼ぶ関数。`RegisterThr` には二つの propagator での例外の起き方を添える。 -/
inductive RegCall where
  | registerThr (h v : SockFailure)
  | deregisterThr
  deriving Repr, DecidableEq

namespace ThrReg

/-- どちらの propagator も RUN で、まだ登録していない thread。 -/
def fresh : ThrReg where
  hpropagator := { state := .run, updatePushSock := .null }
  vpropagator := { state := .run, updatePushSock := .null }

/-- `QuiltDB::RegisterThr`。 -/
def registerThr (r : ThrReg) (h v : SockFailure) : Int × ThrReg :=
  let hret := r.hpropagator.registerThr h
  let r := { r with hpropagator := hret.2 }
  if hret.1 < 0 then (-1, r)
  else
    -- vertical の側が失敗しても、horizontal の登録は取り消さない。
    let vret := r.vpropagator.registerThr v
    let r := { r with vpropagator := vret.2 }
    if vret.1 < 0 then (-1, r) else (0, r)

/-- `QuiltDB::DeregisterThr`。 -/
def deregisterThr (r : ThrReg) : Int × ThrReg :=
  let hret := r.hpropagator.deregisterThr
  let r := { r with hpropagator := hret.2 }
  if hret.1 < 0 then (-1, r)
  else
    -- horizontal の側が失敗すると、ここまで来ない。
    let vret := r.vpropagator.deregisterThr
    let r := { r with vpropagator := vret.2 }
    if vret.1 < 0 then (-1, r) else (0, r)

def call (r : ThrReg) : RegCall → Int × ThrReg
  | .registerThr h v => r.registerThr h v
  | .deregisterThr => r.deregisterThr

end ThrReg

end QuiltDB
