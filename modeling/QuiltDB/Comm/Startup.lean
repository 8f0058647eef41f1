import QuiltDB.Comm.Handshake
import QuiltDB.Comm.Lifecycle
import QuiltDB.Comm.System

/-!
# 起動（`include/quiltdb.cpp`・`comm/propagator.cpp`・`comm/receiver.cpp`）

process はhorizontal と vertical の二つの logical node を持ち、`QuiltDB::Start` は四つの thread を順に作る。

1. `Propagator::Start` は thread を作り、inproc の endpoint を bind し終わるまで `internal_sync_sem` で待つ。
2. `Receiver::Start` は thread を作るだけで待たない。receiver は paired propagator の endpoint に
   connect し、`EPRInit` を送ってから上流と handshake をする。
3. vertical の二つも同じ順に作る。
4. 四つの thread は handshake が済むと RUN に入って `sync_sem` を上げ、`Start` はそれを四回待って戻る。

process をまたぐ handshake は、receiver ごとに `Comm/Handshake.lean` のものをそのまま使う。
thread がそこまで進んでいない間は、その thread の一歩は起きない。
-/

namespace QuiltDB

/-! ## receiver ごとの handshake -/

section topology

variable {Node : Type} [DecidableEq Node]

/-- `r` を下流とする logical node。 -/
abbrev Topology.Up (T : Topology Node) (r : Node) : Type := { u // T.down u = some r }

/-- `r` を下流とする propagator の列。 -/
def Topology.upProps (T : Topology Node) (r : Node) : List (T.Up r) :=
  T.nodes.filterMap fun u => if h : T.down u = some r then some ⟨u, h⟩ else none

theorem Topology.mem_upProps (T : Topology Node) (r : Node) (u : T.Up r) : u ∈ T.upProps r :=
  List.mem_filterMap.mpr ⟨u.1, T.mem_nodes u.1, dif_pos u.2⟩

theorem Topology.upProps_nodup (T : Topology Node) (r : Node) : (T.upProps r).Nodup := by
  refine T.nodes_nodup.filterMap ?_
  intro a a' b hb hb'
  simp only [Option.mem_def, Option.dite_none_right_eq_some] at hb hb'
  obtain ⟨_, hb⟩ := hb
  obtain ⟨_, hb'⟩ := hb'
  exact congrArg Subtype.val (Option.some.inj (hb.trans hb'.symm))

/-- receiver `r` の handshake の設定。 -/
def Topology.hsConfig (T : Topology Node) (r : Node) (h : T.upProps r ≠ []) : HsConfig (T.Up r) where
  props := T.upProps r
  props_nodup := T.upProps_nodup r
  mem_props := T.mem_upProps r
  props_ne_nil := h
  id := fun u => T.id u.1
  id_injective := fun _ _ hid => Subtype.ext (T.id_injective hid)

end topology

/-! ## 状態 -/

/-- `QuiltDB::Start` を呼んだ thread の位置。 -/
inductive MainPc where
  /-- `Propagator::Start` の `pthread_create` の前 -/
  | createProp (d : Direction)
  /-- `sem_wait(&internal_sync_sem)` -/
  | waitProp (d : Direction)
  /-- `Receiver::Start` の `pthread_create` の前 -/
  | createRecv (d : Direction)
  /-- `sem_wait(&sync_sem)` があと `left` 回残る。 -/
  | semWait (left : Nat)
  | returned
  deriving Repr, DecidableEq

/-- propagator thread の位置。 -/
inductive PropStage where
  | notCreated
  /-- socket を作る。 -/
  | setup
  /-- `EPRInit` を待つ。 -/
  | waitInit
  /-- 下流の receiver との handshake -/
  | handshake
  /-- `state_` を RUN にして `sync_sem` を上げた。 -/
  | run
  deriving Repr, DecidableEq

/-- receiver thread の位置。 -/
inductive RecvStage where
  | notCreated
  /-- socket を作って `EPRInit` を送る。 -/
  | setup
  /-- 上流の propagator との handshake -/
  | handshake
  /-- `state_` を RUN にして `sync_sem` を上げた。 -/
  | run
  deriving Repr, DecidableEq

/-- `CHECK` と `LOG(FATAL)`。 -/
inductive BootFault where
  /-- bind していない inproc の endpoint への `connect` -/
  | notBound
  /-- `EPRInit` の `CHECK` -/
  | unexpectedInit
  | handshake (e : HsFault)
  deriving Repr, DecidableEq

structure BootState {P : Type} (T : Topology (P × Direction)) (V : Type) where
  main : P → MainPc
  prop : P × Direction → PropStage
  recv : P × Direction → RecvStage
  /-- `Propagator::Start` の `internal_sync_sem` -/
  internalSem : P × Direction → Nat
  /-- `QuiltDB::Start` の `sync_sem` -/
  syncSem : P → Nat
  /-- `internal_pair_recv_push_sock` から `internal_prop_recv_pair_pull_sock` へ -/
  initQ : P × Direction → List (PropagatorMsg V)
  hs : (r : P × Direction) → HsState (T.Up r) V

inductive BootLabel {P : Type} (T : Topology (P × Direction)) (V : Type) where
  /-- `Start` を呼んだ thread の一歩 -/
  | main (p : P)
  | prop (a : P × Direction)
  | recv (a : P × Direction)
  /-- receiver `r` と上流との handshake の一歩 -/
  | hs (r : P × Direction) (l : HsLabel (T.Up r) V)

variable {P V : Type} {T : Topology (P × Direction)}

/-- どの process も `Start` に入った所。 -/
def BootState.start : BootState T V where
  main := fun _ => .createProp .horizontal
  prop := fun _ => .notCreated
  recv := fun _ => .notCreated
  internalSem := fun _ => 0
  syncSem := fun _ => 0
  initQ := fun _ => []
  hs := fun _ => HsState.start

/-- `Receiver::Start` の次。vertical の二つを作り終わると、四つの thread を待つ。 -/
def MainPc.afterRecv : Direction → MainPc
  | .horizontal => .createProp .vertical
  | .vertical => .semWait 4

/-- inproc の endpoint を bind したか。 -/
def PropStage.bound : PropStage → Bool
  | .notCreated | .setup => false
  | .waitInit | .handshake | .run => true

/-- TCP の endpoint を bind したか。 -/
def RecvStage.bound : RecvStage → Bool
  | .notCreated | .setup => false
  | .handshake | .run => true

namespace BootState

/-- propagator の handshake は済んだか。下流が無ければ何もしない。 -/
def propDone (s : BootState T V) (a : P × Direction) : Bool :=
  match h : T.down a with
  | none => true
  | some r => decide ((s.hs r).propPc ⟨a, h⟩ = .run)

/-- main loop の message は RUN の thread が、handshake の message は handshake の間の thread が扱う。 -/
def propActive (s : BootState T V) {r : P × Direction} (i : T.Up r) : Bool :=
  if (s.hs r).propPc i = .run then decide (s.prop i.1 = .run) else decide (s.prop i.1 = .handshake)

def recvActive (s : BootState T V) (r : P × Direction) : Bool :=
  if (s.hs r).recvPc = .run then decide (s.recv r = .run) else decide (s.recv r = .handshake)

/-- handshake の一歩をする thread が、そこまで進んでいるか。 -/
def gate (s : BootState T V) (r : P × Direction) : HsLabel (T.Up r) V → Bool
  -- 購読が有効になるのは、propagator が connect し、receiver が bind した後である。
  | .subscribe i => (s.prop i.1).bound && (s.recv r).bound
  | .send i | .recvSub i | .sendMain i _ => s.propActive i
  | .publish | .recvPush _ | .recvNothing | .publishMain _ => s.recvActive r

variable [DecidableEq P]

/-- receiver の handshake は済んだか。上流が無ければ何もしない。 -/
def recvDone (s : BootState T V) (a : P × Direction) : Bool :=
  (T.upProps a).isEmpty || decide ((s.hs a).recvPc = .run)

/-- `Start` を呼んだ thread の一歩。 -/
def stepMain (s : BootState T V) (p : P) : Option (BootState T V) :=
  match s.main p with
  | .createProp d =>
    some { s with main := Function.update s.main p (.waitProp d)
                  prop := Function.update s.prop (p, d) .setup }
  | .waitProp d =>
    if 0 < s.internalSem (p, d) then
      some { s with main := Function.update s.main p (.createRecv d)
                    internalSem := Function.update s.internalSem (p, d) (s.internalSem (p, d) - 1) }
    else none
  | .createRecv d =>
    some { s with main := Function.update s.main p (.afterRecv d)
                  recv := Function.update s.recv (p, d) .setup }
  | .semWait (left + 1) =>
    if 0 < s.syncSem p then
      some { s with main := Function.update s.main p (.semWait left)
                    syncSem := Function.update s.syncSem p (s.syncSem p - 1) }
    else none
  | .semWait 0 => some { s with main := Function.update s.main p .returned }
  | .returned => none

/-- propagator thread の一歩。 -/
def stepProp (s : BootState T V) (a : P × Direction) : Option (Except BootFault (BootState T V)) :=
  match s.prop a with
  | .notCreated | .run => none
  | .setup =>
    some (.ok { s with prop := Function.update s.prop a .waitInit
                       internalSem := Function.update s.internalSem a (s.internalSem a + 1) })
  | .waitInit =>
    match s.initQ a with
    | [] => none
    | .epRInit :: rest =>
      some (.ok { s with prop := Function.update s.prop a .handshake
                         initQ := Function.update s.initQ a rest })
    | _ :: _ => some (.error .unexpectedInit)
  | .handshake =>
    if s.propDone a then
      some (.ok { s with prop := Function.update s.prop a .run
                         syncSem := Function.update s.syncSem a.1 (s.syncSem a.1 + 1) })
    else none

/-- receiver thread の一歩。 -/
def stepRecv (s : BootState T V) (a : P × Direction) : Option (Except BootFault (BootState T V)) :=
  match s.recv a with
  | .notCreated | .run => none
  | .setup =>
    -- inproc の `connect` は、相手が bind していなければ例外になる。
    if (s.prop a).bound then
      some (.ok { s with recv := Function.update s.recv a .handshake
                         initQ := Function.update s.initQ a (s.initQ a ++ [.epRInit]) })
    else some (.error .notBound)
  | .handshake =>
    if s.recvDone a then
      some (.ok { s with recv := Function.update s.recv a .run
                         syncSem := Function.update s.syncSem a.1 (s.syncSem a.1 + 1) })
    else none

/-- handshake の一歩。上流の無い receiver には起きない。 -/
def stepHs (s : BootState T V) (r : P × Direction) (l : HsLabel (T.Up r) V) :
    Option (Except BootFault (BootState T V)) :=
  if h : T.upProps r ≠ [] then
    if s.gate r l then
      match hsStep (T.hsConfig r h) (s.hs r) l with
      | none => none
      | some (.error e) => some (.error (.handshake e))
      | some (.ok t) => some (.ok { s with hs := Function.update s.hs r t })
    else none
  else none

end BootState

/-- 起動の一歩。 -/
def bootStep [DecidableEq P] (T : Topology (P × Direction)) (s : BootState T V) :
    BootLabel T V → Option (Except BootFault (BootState T V))
  | .main p => (s.stepMain p).map .ok
  | .prop a => s.stepProp a
  | .recv a => s.stepRecv a
  | .hs r l => s.stepHs r l

/-- 起動の間に着ける状態。 -/
abbrev BootReachable [DecidableEq P] (T : Topology (P × Direction)) : BootState T V → Prop :=
  Lts.Reachable (bootStep T) BootState.start

end QuiltDB
