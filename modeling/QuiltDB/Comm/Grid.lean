import QuiltDB.Lib.Gated
import QuiltDB.Comm.Lifecycle
import QuiltDB.Comm.System

/-!
# horizontal と vertical を合わせた process（`include/quiltdb.cpp`）

process はどれも、horizontal の logical node と vertical の logical node を一つずつ持つ。二つの向きは、
table も socket も thread も共有せず、`QuiltDB::ShutDown` を呼ぶ main thread だけが両方に触る。

`ShutDown` は、四つの `SignalTerm` を済ませてから、四つの `WaitTerm` で thread を一つずつ join する。
`Comm/System.lean` の一つの向きの system 二つを、main thread の残りの仕事で区切って並べる。
-/

namespace QuiltDB

/-- `ShutDown` の呼ぶ関数。 -/
inductive ShutCall where
  | signalTermProp (d : Direction)
  | signalTermRecv (d : Direction)
  | waitTermProp (d : Direction)
  | waitTermRecv (d : Direction)
  deriving Repr, DecidableEq

/-- `QuiltDB::ShutDown` の本体。 -/
def shutDownCalls : List ShutCall :=
  [.signalTermProp .horizontal, .signalTermRecv .horizontal,
    .signalTermProp .vertical, .signalTermRecv .vertical,
    .waitTermProp .horizontal, .waitTermRecv .horizontal,
    .waitTermProp .vertical, .waitTermRecv .vertical]

/-- 向き `d` の node の一歩が main thread のものなら、その呼び出し。 -/
def NodeLabel.shutCall {V : Type} (d : Direction) : NodeLabel V → Option ShutCall
  | .signalTermProp => some (.signalTermProp d)
  | .signalTermRecv => some (.signalTermRecv d)
  | .waitTermProp => some (.waitTermProp d)
  | .waitTermRecv => some (.waitTermRecv d)
  | _ => none

/--
process の集まりの設定。

`Start` は vertical の propagator にも `hbatch_nanosec_` を渡す。`vbatch_nanosec_` はどこでも読まれない。
-/
structure GridConfig (P V : Type) where
  topology : Direction → Topology P
  hbatchNanosec : P → Int
  tableDir : Direction → P → AList fun _ : TableId => TableConfig V

/-- 一つの向きの system。 -/
def GridConfig.sys {P V : Type} (G : GridConfig P V) (d : Direction) : SysConfig P V where
  toTopology := G.topology d
  nanosec := G.hbatchNanosec
  tableDir := G.tableDir d

variable {P V : Type} [DecidableEq P]

/--
main thread が許す一歩と、その後の残りの仕事。

main thread の呼び出しは `ShutDown` の順に進む。`ShutDown` を呼んだ thread は、もう `Inc` をしない。
-/
def shutDownGate (todo : P → List ShutCall) (d : Direction) :
    SysLabel P V → Option (P → List ShutCall)
  | .node p l =>
    match l.shutCall d with
    | some call =>
      if (todo p).head? = some call then some (Function.update todo p (todo p).tail) else none
    | none =>
      match l with
      | .inc 0 _ _ _ => if todo p = shutDownCalls then some todo else none
      | _ => some todo
  | _ => some todo

/-- 二つの向きの system と、main thread ごとの `ShutDown` の残り。 -/
abbrev GridState (P V : Type) := Lts.Gated Direction (SysState P V) (P → List ShutCall)

variable [Zero V]

/-- どの process でも `Start` が戻った状態。 -/
def GridState.start (G : GridConfig P V) : GridState P V where
  ctl := fun _ => shutDownCalls
  comp := fun d => SysState.start (G.sys d)

variable [DecidableEq V]

/-- 一歩。どちらかの向きの system の一歩である。 -/
def gridStep (G : GridConfig P V) : Lts.StepFn (GridState P V) (Direction × SysLabel P V) Fault :=
  Lts.gatedStep (fun d => sysStep (G.sys d)) shutDownGate

/-- 着ける状態。どの thread も異常終了していない。 -/
abbrev GridReachable (G : GridConfig P V) : GridState P V → Prop :=
  Lts.Reachable (gridStep G) (GridState.start G)

/-- `Inc` のほかに動ける thread が無い。 -/
def GridQuiescent (G : GridConfig P V) (s : GridState P V) : Prop :=
  ∀ l, l.2.isInc = false → gridStep G s l = none

end QuiltDB
