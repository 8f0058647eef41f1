import QuiltDB.Lib.Lts
import QuiltDB.Comm.Node

/-!
# logical node のネットワーク

どの node も下流を高々一つ持つ。propagator から下流の receiver へは TCP の FIFO が一本ずつあり、
receiver の publish は上流の propagator それぞれの FIFO に入る。

状態には、動作には使わない履歴 `trace` も持たせる。性質はこの履歴を使って述べる。
-/

namespace QuiltDB

/-- 一つの oplog propagation path に加わる logical node とその結び方。 -/
structure Topology (Node : Type) where
  nodes : List Node
  nodes_nodup : nodes.Nodup
  mem_nodes : ∀ j, j ∈ nodes
  id : Node → NodeId
  id_nonneg : ∀ j, 0 ≤ id j
  id_injective : Function.Injective id
  /-- 下流の node。無ければ `none`。 -/
  down : Node → Option Node

/-- 一つの輪。どの node の下流も次の node で、辿れば全ての node に着く。 -/
def Topology.IsRing {Node : Type} (T : Topology Node) : Prop :=
  ∃ next : Node → Node, (∀ j, T.down j = some (next j)) ∧ ∀ a b, ∃ k, next^[k] a = b

/-- system の設定。batch の間隔と table は node ごとに持つ。 -/
structure SysConfig (Node V : Type) extends Topology Node where
  nanosec : Node → Int
  tableDir : Node → AList fun _ : TableId => TableConfig V

variable {Node V : Type} [DecidableEq Node]

/-- `j` に向けて送る node。 -/
def Topology.upstream (T : Topology Node) (j : Node) : List Node :=
  T.nodes.filter fun u => T.down u = some j

/--
node 一つの設定。`num_expected_propagators_` は上流の node の数で、
handshake でその全員から `PropInit` を受けている。
-/
def SysConfig.nodeConfig (C : SysConfig Node V) (j : Node) : NodeConfig V where
  myId := C.id j
  nanosec := C.nanosec j
  downstreamRecv := (C.down j).elim (-1) C.id
  expected := (C.upstream j).map C.id
  tableDir := C.tableDir j

structure SysState (Node V : Type) where
  node : Node → NodeState V
  /-- `prop_push_sock` から下流の `update_pull_sock` へ -/
  tcp : Node → List (PropRecvMsg V)
  /-- 下流の `term_pub_sock` から `term_sub_sock` へ -/
  pub : Node → List (PropRecvMsg V)
  trace : List (Event V)

inductive SysLabel (Node V : Type) where
  /-- node `j` の中の一歩 -/
  | node (j : Node) (l : NodeLabel V)
  /-- `u` が送った message を、下流の receiver が読む。 -/
  | tcp (u : Node)
  /-- `j` の propagator が、下流の publish した message を読む。 -/
  | termSub (j : Node)

/-- `Table::Inc` かどうか。 -/
def SysLabel.isInc : SysLabel Node V → Bool
  | .node _ l => l.isInc
  | _ => false

/-- `Inc` をするなら、`ShutDown` を呼ぶ thread がする。 -/
def SysLabel.mainOnly : SysLabel Node V → Bool
  | .node _ (.inc thr ..) => thr == 0
  | _ => true

variable [Zero V]

/-- handshake が済んだ状態。 -/
def SysState.start (C : SysConfig Node V) : SysState Node V where
  node := fun j => NodeState.start (C.nodeConfig j)
  tcp := fun _ => []
  pub := fun _ => []
  trace := []

/-- node `j` の一歩の結果を system に書き戻す。 -/
def SysState.put (C : SysConfig Node V) (s : SysState Node V) (j : Node)
    (res : NodeState V × NodeOut V) : SysState Node V where
  node := Function.update s.node j res.1
  tcp := Function.update s.tcp j (s.tcp j ++ res.2.push)
  -- `j` を下流とする propagator の全てに届く。
  pub := fun u => if C.down u = some j then s.pub u ++ res.2.pub else s.pub u
  trace := s.trace ++ res.2.events

/-- system の一歩。 -/
def sysStep [DecidableEq V] (C : SysConfig Node V) (s : SysState Node V) :
    SysLabel Node V → Option (Except Fault (SysState Node V))
  | .node j l =>
    (nodeStep (C.nodeConfig j) (s.node j) (.self l)).map (Except.map (s.put C j))
  | .tcp u =>
    match C.down u, s.tcp u with
    | some d, msg :: rest =>
      (nodeStep (C.nodeConfig d) (s.node d) (.tcp msg)).map
        (Except.map (SysState.put C { s with tcp := Function.update s.tcp u rest } d))
    | _, _ => none
  | .termSub j =>
    match s.pub j with
    | [] => none
    | msg :: rest =>
      (nodeStep (C.nodeConfig j) (s.node j) (.pub msg)).map
        (Except.map (SysState.put C { s with pub := Function.update s.pub j rest } j))

/-- system の着ける状態。どの thread も異常終了していない。 -/
abbrev SysReachable [DecidableEq V] (C : SysConfig Node V) : SysState Node V → Prop :=
  Lts.Reachable (sysStep C) (SysState.start C)

/-- どの一歩も条件 `P` を満たす run で着ける状態。 -/
abbrev SysReachableUnder [DecidableEq V] (C : SysConfig Node V)
    (P : SysState Node V → SysLabel Node V → Prop) : SysState Node V → Prop :=
  Lts.ReachableUnder (sysStep C) P (SysState.start C)

/-! ## 二つの node の輪 -/

/-- 三つの flag を全て立てた、足し算の table。 -/
def loopTable : TableConfig (BitVec 32) where
  vaddFunc := (· + ·)
  vsubFunc := (· - ·)
  loop := true
  applyUpdates := true
  forwardUpdates := true
  doUserCbk := false
  updateBuffCbk := 0

/-- 0 と 1 が互いの下流である輪。 -/
def pairRing : SysConfig (Fin 2) (BitVec 32) where
  nodes := [0, 1]
  nodes_nodup := by decide
  mem_nodes := by decide
  id := fun j => (j.val : Int)
  id_nonneg := by decide
  id_injective := by decide
  down := fun j => some (j + 1)
  nanosec := fun _ => 1
  tableDir := fun _ => (∅ : AList fun _ : TableId => TableConfig (BitVec 32)).insert 0 loopTable

theorem pairRing_isRing : pairRing.IsRing := by
  refine ⟨fun j => j + 1, fun _ => rfl, fun a b => ⟨(b - a).val, ?_⟩⟩
  revert a b
  decide

/-- `thr = 0` の application が table 0 に `Inc` して、propagator がその log を処理するまで。 -/
def incLabels (j : Node) (key : Key) (delta : V) : List (SysLabel Node V) :=
  [.node j (.inc 0 0 key delta), .node j (.pullApp 0)]

/-- table 0 の batch を登録してから送る timer の一回り。 -/
def tickLabels (j : Node) (o : FlushOrder V) : List (SysLabel Node V) :=
  [.node j .timerFire, .node j (.timerTrigger [0]), .node j .timerCmd, .node j (.flushTable o),
    .node j .recvPair, .node j .myUpdatesReply, .node j .flushEnd]

/-- 登録するものの無い timer の一回り。 -/
def relayLabels (j : Node) (o : FlushOrder V) : List (SysLabel Node V) :=
  [.node j .timerFire, .node j (.timerTrigger [0]), .node j .timerCmd, .node j (.flushTable o),
    .node j .flushEnd]

end QuiltDB
