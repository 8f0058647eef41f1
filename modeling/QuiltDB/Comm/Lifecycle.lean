import QuiltDB.Lib.Lts
import QuiltDB.Comm.Node

/-!
# application から見た一生（`include/quiltdb.cpp`・`comm/propagator.cpp`）

`CreateHTable`・`Start`・`RegisterThr`・`Inc`・`DeregisterThr`・`ShutDown` を、何本かの application の
thread が好きな順に呼ぶ。propagator は horizontal と vertical の二つがあり、thread ごとの socket
`update_push_sock_` もそれぞれにある。

呼んでいる途中で待つ関数は、残りの仕事を `calls` に置いて一歩ずつ進める。handshake と終了の
protocol は、propagator thread が状態を書き換える一歩としてだけ現れる。receiver の状態は、どの関数の
返り値にも table にも関わらないので持たない。
-/

namespace QuiltDB

/-- propagator の二つの向き。 -/
inductive Direction where
  | horizontal | vertical
  deriving Repr, DecidableEq

/-- `CHECK` で落ちる所と、壊れた pointer を読む所。 -/
inductive LifeFault where
  /-- `CreateTable Failed` -/
  | createTableFailed
  /-- `CreateVTable` は返り値を見ないので、初期化されていない `internal_table_` を読む。 -/
  | uninitializedTable
  /-- `hpropagator Start() failed` -/
  | startFailed
  | signalTermFailed
  | waitTermFailed
  /-- `SignalTerm` が NULL の `update_push_sock_` に送る。 -/
  | nullUpdatePushSock
  | tableDoesNotExist
  | unrecognizedMessage
  deriving Repr, DecidableEq

/-- application の関数が触る `Propagator` の field。 -/
structure PropHandle (V : Type) where
  state : PropagatorState
  /-- `Start` が thread を作ったか。 -/
  started : Bool
  /-- `RegisterTable` で登録した table。 -/
  tableDir : List TableId
  /-- `update_push_sock_` が NULL でない thread。 -/
  updatePushSock : List Nat
  haveSignaledTerm : Bool
  /-- `update_pull_sock` に届いた message。送った thread の番号を付ける。 -/
  queue : List (Nat × PropagatorMsg V)

namespace PropHandle

variable {V : Type}

/-- `Propagator` の constructor。 -/
def create : PropHandle V where
  state := .init
  started := false
  tableDir := []
  updatePushSock := []
  haveSignaledTerm := false
  queue := []

/-! 返り値が `int` の関数は、`-1` を `none`、`0` を `some` で表す。 -/

/-- `Propagator::RegisterTable`。 -/
def registerTable (p : PropHandle V) (t : TableId) : PropHandle V :=
  if p.state ≠ .init then p else { p with tableDir := t :: p.tableDir }

/-- `Propagator::Start`。 -/
def start (p : PropHandle V) : Option (PropHandle V) :=
  if p.state ≠ .init then none else some { p with started := true }

/-- `Propagator::RegisterThr`。 -/
def registerThr (p : PropHandle V) (thr : Nat) : Option (PropHandle V) :=
  if p.state ≠ .run then none
  else if thr ∈ p.updatePushSock then none
  else some { p with updatePushSock := thr :: p.updatePushSock }

/-- `Propagator::DeregisterThr`。 -/
def deregisterThr (p : PropHandle V) (thr : Nat) : Option (PropHandle V) :=
  if p.state = .init then none
  else if thr ∉ p.updatePushSock then none
  else some { p with updatePushSock := p.updatePushSock.erase thr }

/-- `Propagator::Inc`。key の引数は `int32_t` で、message の `key_` は `int64_t` である。 -/
def inc (p : PropHandle V) (thr : Nat) (t : TableId) (key : Int32) (delta : V) :
    Option (PropHandle V) :=
  if p.state ≠ .run then none
  else if thr ∉ p.updatePushSock then none
  else some { p with queue := p.queue ++ [(thr, .epUpdateLog t key.toInt64 delta)] }

/-- `Propagator::SignalTerm`。 -/
def signalTerm (p : PropHandle V) (thr : Nat) : Except LifeFault (Option (PropHandle V)) :=
  if p.state ≠ .run then .ok none
  else if thr ∉ p.updatePushSock then .error .nullUpdatePushSock
  else .ok (some { p with queue := p.queue ++ [(thr, .epInternalTerminate)]
                          haveSignaledTerm := true })

/-- `Propagator::WaitTerm` が `-1` を返すか。返さなければ thread を join する。 -/
def waitTermFails (p : PropHandle V) : Bool :=
  decide (p.state = .init) || !p.haveSignaledTerm

/-- propagator thread が番号 `thr` の thread の message を一つ読む。 -/
def read (nanosec : Int) (p : PropHandle V) (thr : Nat) :
    Option (Except LifeFault (PropHandle V)) :=
  match NodeState.takeApp thr p.queue with
  | none => none
  | some (.epInternalTerminate, rest) => some (.ok { p with state := .termPrep, queue := rest })
  | some (.epUpdateLog t _ _, rest) =>
    if p.state = .run ∧ 0 < nanosec ∧ t ∉ p.tableDir then some (.error .tableDoesNotExist)
    else some (.ok { p with queue := rest })
  | some _ => some (.error .unrecognizedMessage)

end PropHandle

/-- application の関数が触る `InternalTable` の field。 -/
structure TableEntry (V : Type) where
  /-- `propagator` の指す方。 -/
  direction : Direction
  vaddFunc : V → V → V
  storage : Storage V

/-- 待っている関数の残りの仕事。 -/
inductive Todo where
  /-- `QuiltDB::Start` の `sem_wait` -/
  | waitStart
  | signalTerm (d : Direction)
  | waitTerm (d : Direction)
  deriving Repr, DecidableEq

/-- `QuiltDB` の object。 -/
structure Db (V : Type) where
  tableDir : AList fun _ : TableId => TableEntry V
  prop : Direction → PropHandle V
  /-- 番号 `thr` の thread が呼んでいる関数の残り。 -/
  calls : Nat → List Todo

/-- application の thread が呼ぶ関数。 -/
inductive Call (V : Type) where
  | createHTable (t : TableId) (vadd : V → V → V)
  | createVTable (t : TableId) (vadd : V → V → V)
  | start
  | registerThr
  | inc (t : TableId) (key : Key) (delta : V)
  | deregisterThr
  | shutDown

namespace Db

variable {V : Type} [Zero V]

/-- `CreateQuiltDB` の直後。 -/
def create : Db V where
  tableDir := ∅
  prop := fun _ => .create
  calls := fun _ => []

/-- `QuiltDB::CreateTable` と、それに続く登録。 -/
def createTable (db : Db V) (d : Direction) (t : TableId) (vadd : V → V → V) : Option (Db V) :=
  if t ∈ db.tableDir then none
  else some { db with
    tableDir := db.tableDir.insert t { direction := d, vaddFunc := vadd, storage := fun _ => 0 }
    prop := Function.update db.prop d ((db.prop d).registerTable t) }

/-- `QuiltDB::Start` の、待つ前まで。 -/
def start (db : Db V) (thr : Nat) : Except LifeFault (Db V) :=
  match (db.prop .horizontal).start with
  | none => .error .startFailed
  | some h =>
    -- vertical の返り値は見ない
    let v := (db.prop .vertical).start.getD (db.prop .vertical)
    .ok { db with
      prop := fun | .horizontal => h | .vertical => v
      calls := Function.update db.calls thr [.waitStart] }

/-- `QuiltDB::RegisterThr`。返り値も返す。 -/
def registerThr (db : Db V) (thr : Nat) : Db V × Int :=
  match (db.prop .horizontal).registerThr thr with
  | none => (db, -1)
  | some h =>
    let db := { db with prop := Function.update db.prop .horizontal h }
    match (db.prop .vertical).registerThr thr with
    | none => (db, -1)
    | some v => ({ db with prop := Function.update db.prop .vertical v }, 0)

/-- `QuiltDB::DeregisterThr`。 -/
def deregisterThr (db : Db V) (thr : Nat) : Db V × Int :=
  match (db.prop .horizontal).deregisterThr thr with
  | none => (db, -1)
  | some h =>
    let db := { db with prop := Function.update db.prop .horizontal h }
    match (db.prop .vertical).deregisterThr thr with
    | none => (db, -1)
    | some v => ({ db with prop := Function.update db.prop .vertical v }, 0)

/-- `InternalTable::Inc`。先に `IncRaw` で足し、`Propagator::Inc` の返り値は見ない。 -/
def inc (db : Db V) (thr : Nat) (t : TableId) (tab : TableEntry V) (key : Key) (delta : V) : Db V :=
  let db := { db with
    tableDir := db.tableDir.insert t
      { tab with storage := incRaw tab.vaddFunc tab.storage key delta } }
  match (db.prop tab.direction).inc thr t key.toInt32 delta with
  | none => db
  | some p => { db with prop := Function.update db.prop tab.direction p }

/-- 関数の呼び出し。待つ関数なら、待つ所まで進む。 -/
def call (db : Db V) (thr : Nat) : Call V → Option (Except LifeFault (Db V))
  | .createHTable t vadd =>
    match db.createTable .horizontal t vadd with
    | none => some (.error .createTableFailed)
    | some db' => some (.ok db')
  | .createVTable t vadd =>
    match db.createTable .vertical t vadd with
    | none => some (.error .uninitializedTable)
    | some db' => some (.ok db')
  | .start => some (db.start thr)
  | .registerThr => some (.ok (db.registerThr thr).1)
  | .inc t key delta =>
    match db.tableDir.lookup t with
    | none => none
    | some tab => some (.ok (db.inc thr t tab key delta))
  | .deregisterThr => some (.ok (db.deregisterThr thr).1)
  | .shutDown =>
    some (.ok { db with
      calls := Function.update db.calls thr [.signalTerm .horizontal, .signalTerm .vertical,
        .waitTerm .horizontal, .waitTerm .vertical] })

/-- 待っている関数の続き。 -/
def resume (db : Db V) (thr : Nat) : Option (Except LifeFault (Db V)) :=
  match db.calls thr with
  | [] => none
  | .waitStart :: rest =>
    if (db.prop .horizontal).state ≠ .init ∧ (db.prop .vertical).state ≠ .init then
      some (.ok { db with calls := Function.update db.calls thr rest })
    else none
  | .signalTerm d :: rest =>
    match (db.prop d).signalTerm thr with
    | .error e => some (.error e)
    | .ok none => some (.error .signalTermFailed)
    | .ok (some p) =>
      some (.ok { db with prop := Function.update db.prop d p
                          calls := Function.update db.calls thr rest })
  | .waitTerm d :: rest =>
    if (db.prop d).waitTermFails then some (.error .waitTermFailed)
    else if (db.prop d).state = .term then
      some (.ok { db with calls := Function.update db.calls thr rest })
    else none

end Db

/-- 一歩。 -/
inductive LifeLabel (V : Type) where
  /-- 何もしていない thread が関数を呼ぶ。 -/
  | call (thr : Nat) (c : Call V)
  /-- 待っている thread が先へ進む。 -/
  | resume (thr : Nat)
  /-- propagator thread が handshake を終えて RUN になる。 -/
  | enterRun (d : Direction)
  /-- propagator thread が application の message を読む。 -/
  | read (d : Direction) (thr : Nat)
  /-- propagator thread が TERM になる。 -/
  | enterTerm (d : Direction)
  /-- receiver thread が届いた update を `IncRaw` で足す。 -/
  | apply (t : TableId) (key : Key) (delta : V)

/-- 一歩の意味。`nanosec` は batch の間隔である。 -/
def lifeStep {V : Type} [Zero V] (nanosec : Int) (db : Db V) :
    LifeLabel V → Option (Except LifeFault (Db V))
  | .call thr c => if db.calls thr = [] then db.call thr c else none
  | .resume thr => db.resume thr
  | .enterRun d =>
    if (db.prop d).started = true ∧ (db.prop d).state = .init then
      some (.ok { db with prop := Function.update db.prop d { db.prop d with state := .run } })
    else none
  | .read d thr =>
    if (db.prop d).state = .run ∨ (db.prop d).state = .termPrep then
      ((db.prop d).read nanosec thr).map
        (Except.map fun p => { db with prop := Function.update db.prop d p })
    else none
  | .enterTerm d =>
    if (db.prop d).state = .termPrep then
      some (.ok { db with prop := Function.update db.prop d { db.prop d with state := .term } })
    else none
  | .apply t key delta =>
    match db.tableDir.lookup t with
    | none => none
    | some tab =>
      some (.ok { db with
        tableDir := db.tableDir.insert t
          { tab with storage := incRaw tab.vaddFunc tab.storage key delta } })

end QuiltDB
