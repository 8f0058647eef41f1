import QuiltDB.Comm.Grid
import QuiltDB.Properties.Shutdown
import QuiltDB.Properties.Work

/-!
# 二つの向きを持つ process の終了

main thread は horizontal の thread を join してから vertical の thread を join する。一つの向きの run に
ほどいて、止まった後に残るものを調べる。

* `GridReachable.shutInv` — main thread の残りの仕事は、二つの向きの node の位置と合っている
* `GridQuiescent.halted` — 全体が止まれば、どちらの向きの system も止まっている
* `grid_shutdown_outcome` — `ShutDown` が戻るのは、ちょうど二つの receiver がどちらも TERM の時である
-/

namespace QuiltDB

/-! ## main thread の位置 -/

/-- 呼び出しの向き。 -/
def ShutCall.direction : ShutCall → Direction
  | .signalTermProp d | .signalTermRecv d | .waitTermProp d | .waitTermRecv d => d

/-- 呼び出しの前の位置。 -/
def ShutCall.before : ShutCall → AppPhase
  | .signalTermProp _ => .running
  | .signalTermRecv _ => .signaledProp
  | .waitTermProp _ => .signaledRecv
  | .waitTermRecv _ => .joinedProp

/-- 呼び出しの後の位置。 -/
def ShutCall.after : ShutCall → AppPhase
  | .signalTermProp _ => .signaledProp
  | .signalTermRecv _ => .signaledRecv
  | .waitTermProp _ => .joinedProp
  | .waitTermRecv _ => .finished

/-- `ShutDown` の残りから見た、向き `d` の node の位置。 -/
def shutDownPhase (d : Direction) (todo : List ShutCall) : AppPhase :=
  if .signalTermProp d ∈ todo then .running
  else if .signalTermRecv d ∈ todo then .signaledProp
  else if .waitTermProp d ∈ todo then .signaledRecv
  else if .waitTermRecv d ∈ todo then .joinedProp
  else .finished

/-- `ShutDown` の残りは、九つのどれかである。 -/
theorem shutDownCalls_suffix {todo : List ShutCall} (h : todo <:+ shutDownCalls) :
    ∃ n ≤ 8, todo = shutDownCalls.drop n := by
  exact ⟨shutDownCalls.length - todo.length, Nat.sub_le 8 _, List.suffix_iff_eq_drop.mp h⟩

theorem phase_head {call : ShutCall} {rest : List ShutCall} (h : call :: rest <:+ shutDownCalls) :
    shutDownPhase call.direction (call :: rest) = call.before := by
  obtain ⟨n, hn, heq⟩ := shutDownCalls_suffix h
  interval_cases n <;> cases heq <;> decide

theorem phase_tail {call : ShutCall} {rest : List ShutCall} (h : call :: rest <:+ shutDownCalls)
    (d : Direction) :
    shutDownPhase d rest
      = if call.direction = d then call.after else shutDownPhase d (call :: rest) := by
  obtain ⟨n, hn, heq⟩ := shutDownCalls_suffix h
  interval_cases n <;> cases heq <;> cases d <;> decide

/-- 次が `SignalTerm` でなければ、どちらの向きの `SignalTerm` も済んでいる。 -/
theorem phase_signaled {todo : List ShutCall} (h : todo <:+ shutDownCalls)
    (hp : ∀ d, todo.head? ≠ some (.signalTermProp d))
    (hr : ∀ d, todo.head? ≠ some (.signalTermRecv d)) (d : Direction) :
    shutDownPhase d todo ≠ .running ∧ shutDownPhase d todo ≠ .signaledProp := by
  obtain ⟨n, hn, rfl⟩ := shutDownCalls_suffix h
  interval_cases n
  case «0» | «2» => exact absurd rfl (hp _)
  case «1» | «3» => exact absurd rfl (hr _)
  all_goals cases d <;> decide

variable {P V : Type}

theorem NodeLabel.shutCall_direction {l : NodeLabel V} {d : Direction} {call : ShutCall}
    (h : l.shutCall d = some call) : call.direction = d := by
  cases l <;> cases h <;> rfl

/-- node の位置は、main thread の呼び出しだけで変わる。 -/
theorem NodeStep.app_eq [Zero V] {c : NodeConfig V} {ns ns' : NodeState V} {l : NodeLabel V}
    {out : NodeOut V} (h : NodeStep c ns (.self l) ns' out) (d : Direction) :
    ns'.app = ((l.shutCall d).map ShutCall.after).getD ns.app := by
  cases h <;> rfl

variable [DecidableEq P]

section gate

variable {todo todo' : P → List ShutCall} {d : Direction}

/-- 許された一歩は、`ShutDown` の次の呼び出しか、main thread のものではない一歩である。 -/
theorem shutDownGate_cases {l : SysLabel P V} (h : shutDownGate todo d l = some todo') :
    (∃ p k call rest, l = .node p k ∧ k.shutCall d = some call ∧ todo p = call :: rest ∧
      todo' = Function.update todo p rest) ∨
    (todo' = todo ∧ ∀ p k, l = .node p k → k.shutCall d = none) := by
  cases l with
  | tcp u => exact .inr ⟨(Option.some.inj h).symm, by rintro p k ⟨⟩⟩
  | termSub j => exact .inr ⟨(Option.some.inj h).symm, by rintro p k ⟨⟩⟩
  | node p k =>
    cases hk : k.shutCall d with
    | some call =>
      simp only [shutDownGate, hk] at h
      split at h
      · next hhead =>
        obtain ⟨rest, hrest⟩ := List.head?_eq_some_iff.mp hhead
        rw [hrest, List.tail_cons] at h
        exact .inl ⟨p, k, call, rest, rfl, hk, hrest, (Option.some.inj h).symm⟩
      · cases h
    | none =>
      refine .inr ⟨?_, ?_⟩
      · simp only [shutDownGate, hk] at h
        split at h
        · split at h
          · exact (Option.some.inj h).symm
          · cases h
        · exact (Option.some.inj h).symm
      · rintro p' k' ⟨⟩
        exact hk

/-- main thread のものでない一歩は、いつでも許される。 -/
theorem shutDownGate_thread {p : P} {k : NodeLabel V} (hi : k.isInc = false)
    (hk : k.shutCall d = none) : shutDownGate todo d (.node p k) = some todo := by
  cases k with
  | inc => cases hi
  | signalTermProp | signalTermRecv | waitTermProp | waitTermRecv => cases hk
  | _ => rfl

/-- `ShutDown` の次の呼び出しは許される。 -/
theorem shutDownGate_head {p : P} {k : NodeLabel V} {call : ShutCall} {rest : List ShutCall}
    (hk : k.shutCall d = some call) (h : todo p = call :: rest) :
    shutDownGate todo d (.node p k) = some (Function.update todo p rest) := by
  simp [shutDownGate, hk, h]

end gate

variable [Zero V] [DecidableEq V] {G : GridConfig P V} {s : GridState P V}

/-- 全体の run は、どちらの向きでも、一つの向きの run である。 -/
theorem GridReachable.sys (h : GridReachable G s) (d : Direction) :
    SysReachable (G.sys d) (s.comp d) := Lts.Reachable.comp h d

/-! ## 残りの仕事と node の位置 -/

/-- main thread の残りの仕事は `ShutDown` の残りで、二つの向きの node の位置はそれで決まる。 -/
structure ShutInv (s : GridState P V) (p : P) : Prop where
  suffix : s.ctl p <:+ shutDownCalls
  app : ∀ d, ((s.comp d).node p).app = shutDownPhase d (s.ctl p)

section step

omit [DecidableEq V]

variable {C : SysConfig P V} {c c' : SysState P V} {l : SysLabel P V} {d : Direction} {p : P}

/-- main thread の呼び出しで、その node の位置は進む。 -/
theorem SysStep.app_main {k : NodeLabel V} {call : ShutCall} (h : SysStep C c (.node p k) c')
    (hk : k.shutCall d = some call) : (c'.node p).app = call.after := by
  cases h with
  | node hn =>
    rw [put_node_self, hn.app_eq d, hk]
    rfl

/-- ほかの一歩で、node の位置は変わらない。 -/
theorem SysStep.app_other (h : SysStep C c l c')
    (hl : ∀ k, l = .node p k → k.shutCall d = none) : (c'.node p).app = (c.node p).app := by
  refine h.forall_node_label (I := fun p ns => (∀ k, l = .node p k → k.shutCall d = none) →
    ns.app = (c.node p).app) ?_ (fun _ _ => rfl) p hl
  intro q i ns' out hlab hn hq
  cases i with
  | self k =>
    rw [hn.app_eq d, hq k (hlab k rfl)]
    rfl
  | tcp msg | pub msg => cases hn <;> rfl

end step

/-- 一歩は、main thread の残りの仕事と node の位置を合わせたまま進める。 -/
theorem ShutInv.step {s' : GridState P V} {d : Direction} {l : SysLabel P V} {p : P}
    (h : ShutInv s p) (hr : GridReachable G s) (hstep : gridStep G s (d, l) = some (.ok s')) :
    ShutInv s' p := by
  obtain ⟨t, hgate, hsys, hcomp⟩ := Lts.gatedStep_ok hstep
  have hstep' : SysStep (G.sys d) (s.comp d) l t :=
    sysStep_cases (SysReachable.kinds (GridReachable.sys hr d)) hsys
  have hon : s'.comp d = t := by rw [hcomp, Function.update_self]
  have hoff : ∀ e, e ≠ d → s'.comp e = s.comp e := by
    intro e he
    rw [hcomp, Function.update_of_ne he]
  -- main thread が呼ばなければ、どちらの向きの位置も変わらない。
  have hframe : (∀ k, l = .node p k → k.shutCall d = none) → s'.ctl p = s.ctl p →
      ShutInv s' p := by
    intro hno hctl
    refine ⟨hctl ▸ h.suffix, fun e => ?_⟩
    rw [hctl, ← h.app e]
    by_cases he : e = d
    · subst he
      rw [hon]
      exact hstep'.app_other hno
    · rw [hoff e he]
  rcases shutDownGate_cases hgate with ⟨q, k, call, rest, rfl, hk, hq, hctl⟩ | ⟨hctl, hno⟩
  · by_cases hpq : p = q
    · subst hpq
      have hsuf : call :: rest <:+ shutDownCalls := hq ▸ h.suffix
      have hrest : s'.ctl p = rest := by rw [hctl, Function.update_self]
      refine ⟨hrest ▸ (List.suffix_cons call rest).trans hsuf, fun e => ?_⟩
      rw [hrest, phase_tail hsuf e, NodeLabel.shutCall_direction hk]
      split
      · next he =>
        subst he
        rw [hon, hstep'.app_main hk]
      · next he => rw [hoff e (Ne.symm he), h.app e, hq]
    · refine hframe ?_ (by rw [hctl, Function.update_of_ne hpq])
      rintro k' ⟨⟩
      exact absurd rfl hpq
  · exact hframe (hno p) (by rw [hctl])

theorem GridReachable.shutInv (h : GridReachable G s) (p : P) : ShutInv s p := by
  refine Lts.Reachable.invariant (I := fun s => ∀ p, ShutInv s p) ?_ ?_ h p
  · intro p
    exact ⟨List.suffix_rfl, fun d => by cases d <;> rfl⟩
  · rintro s ⟨d, l⟩ s' hr hstep hi p
    exact (hi p).step hr hstep

/-! ## 止まった process -/

omit [DecidableEq P] [Zero V] [DecidableEq V] in
theorem ShutInv.app_head {p : P} (h : ShutInv s p) {call : ShutCall} {rest : List ShutCall}
    (hc : s.ctl p = call :: rest) : ((s.comp call.direction).node p).app = call.before := by
  rw [h.app, hc]
  exact phase_head (hc ▸ h.suffix)

/-- 仕事を持ち込まない一歩では、もう動けない。 -/
def GridBlocked (G : GridConfig P V) (s : GridState P V) : Prop :=
  ∀ l : Direction × SysLabel P V, Internal (G.sys l.1) (s.comp l.1) l.2 → gridStep G s l = none

theorem GridQuiescent.blocked (hq : GridQuiescent G s) : GridBlocked G s := fun l hl => hq l hl.1

/-- main thread の次の呼び出しも進めない。 -/
theorem GridBlocked.head (hb : GridBlocked G s) {d : Direction} {p : P} {k : NodeLabel V}
    {call : ShutCall} {rest : List ShutCall} (hk : k.shutCall d = some call)
    (h : s.ctl p = call :: rest) :
    nodeStepSelf ((G.sys d).nodeConfig p) ((s.comp d).node p) k = none := by
  have hint : Internal (G.sys d) (s.comp d) (.node p k) := by
    cases k with
    | signalTermProp | signalTermRecv | waitTermProp | waitTermRecv => exact ⟨rfl, rfl⟩
    | _ => cases hk
  exact Option.map_eq_none_iff.mp (Lts.comp_none (shutDownGate_head hk h) (hb (d, .node p k) hint))

/-- 止まった main thread は、`SignalTerm` を全て済ませている。 -/
theorem GridBlocked.signaled (hb : GridBlocked G s) {p : P} (hi : ShutInv s p) (d : Direction) :
    ((s.comp d).node p).app ≠ .running ∧ ((s.comp d).node p).app ≠ .signaledProp := by
  rw [hi.app d]
  refine phase_signaled hi.suffix (fun e hhead => ?_) (fun e hhead => ?_) d
  · obtain ⟨rest, hrest⟩ := List.head?_eq_some_iff.mp hhead
    have happ : ((s.comp e).node p).app = .running := hi.app_head hrest
    have hnone := hb.head (k := .signalTermProp) rfl hrest
    simp only [nodeStepSelf, happ, if_true] at hnone
    split at hnone <;> cases hnone
  · obtain ⟨rest, hrest⟩ := List.head?_eq_some_iff.mp hhead
    have happ : ((s.comp e).node p).app = .signaledProp := hi.app_head hrest
    have hnone := hb.head (k := .signalTermRecv) rfl hrest
    simp only [nodeStepSelf, happ, if_true] at hnone
    split at hnone <;> cases hnone

/-- 全体が止まれば、join を待つ main thread のほかは、どちらの向きでも止まっている。 -/
theorem GridQuiescent.halted (hq : GridQuiescent G s) (h : GridReachable G s) (d : Direction) :
    Halted (G.sys d) (s.comp d) := by
  refine .of_none (fun p => ?_) (fun j => ?_) (fun u => ?_)
  · obtain ⟨h1, h2⟩ := hq.blocked.signaled (GridReachable.shutInv h p) d
    refine .of_threads ⟨h1, h2⟩ fun k hinc hwait => ?_
    cases hk : k.shutCall d with
    | none =>
      exact Option.map_eq_none_iff.mp
        (Lts.comp_none (shutDownGate_thread hinc hk) (hq (d, .node p k) hinc))
    | some call =>
      cases k with
      | signalTermProp => simp [nodeStepSelf, h1]
      | signalTermRecv => simp [nodeStepSelf, h2]
      | waitTermProp | waitTermRecv => cases hwait
      | _ => cases hk
  · have hg : shutDownGate s.ctl d (.termSub j : SysLabel P V) = some s.ctl := rfl
    exact Lts.comp_none hg (hq (d, .termSub j) rfl)
  · have hg : shutDownGate s.ctl d (.tcp u : SysLabel P V) = some s.ctl := rfl
    exact Lts.comp_none hg (hq (d, .tcp u) rfl)

/-- 止まった main thread は、終わっているか、TERM でない receiver の join を待っている。 -/
theorem GridQuiescent.ctl_cases (hq : GridQuiescent G s) (hn : ∀ p, 0 < G.hbatchNanosec p)
    (h : GridReachable G s) (p : P) :
    s.ctl p = [] ∨ ∃ d rest, s.ctl p = .waitTermRecv d :: rest ∧
      ((s.comp d).node p).recv.state ≠ .term := by
  have hi := GridReachable.shutInv h p
  cases hc : s.ctl p with
  | nil => exact .inl rfl
  | cons call rest =>
    right
    have happ := hi.app_head hc
    obtain ⟨h1, h2⟩ := hq.blocked.signaled hi call.direction
    cases call with
    | signalTermProp d => exact absurd happ h1
    | signalTermRecv d => exact absurd happ h2
    | waitTermProp d =>
      have hnone := hq.blocked.head (k := .waitTermProp) rfl hc
      have happ' : ((s.comp d).node p).app = .signaledRecv := happ
      have hsys := GridReachable.sys h d
      have hpc : ((s.comp d).node p).prop.pc = .returned :=
        (hsys.control p).prop.returned.mpr (hsys.prop_stopped hn (hq.halted h d) p)
      simp [nodeStepSelf, happ', hpc] at hnone
    | waitTermRecv d =>
      refine ⟨d, rest, rfl, fun hr => ?_⟩
      have hnone := hq.blocked.head (k := .waitTermRecv) rfl hc
      have happ' : ((s.comp d).node p).app = .joinedProp := happ
      simp [nodeStepSelf, happ', hr] at hnone

/--
**二つの向きの終了は、互いを待って行き詰まることがない。**

動ける thread が無くなった状態では、どちらの向きでも propagator は TERM、上流のある receiver も TERM である。
`ShutDown` が戻った process は、ちょうど二つの receiver がどちらも TERM の process であり、戻らない `ShutDown` は、
上流が無く TERM_SELF のまま残った receiver の join を待っている。
-/
theorem grid_shutdown_outcome (hn : ∀ p, 0 < G.hbatchNanosec p) (h : GridReachable G s)
    (hq : GridQuiescent G s) (p : P) :
    (∀ d, ((s.comp d).node p).prop.state = .term ∧
      (((s.comp d).node p).recv.state = .term ∨
        ((s.comp d).node p).recv.state = .termSelf ∧ ∀ u, (G.topology d).down u ≠ some p)) ∧
    (s.ctl p = [] ↔ ∀ d, ((s.comp d).node p).recv.state = .term) ∧
    (s.ctl p ≠ [] → ∃ d rest, s.ctl p = .waitTermRecv d :: rest ∧
      ((s.comp d).node p).recv.state = .termSelf) := by
  have hout := fun d => (GridReachable.sys h d).halted_outcome hn (hq.halted h d) p
  have hcases := hq.ctl_cases hn h p
  refine ⟨hout, ⟨fun hc d => ?_, fun hr => ?_⟩, fun hc => ?_⟩
  · refine (GridReachable.sys h d).finished_recv p ?_
    rw [(GridReachable.shutInv h p).app d, hc]
    rfl
  · rcases hcases with hc | ⟨d, -, -, hne⟩
    · exact hc
    · exact absurd (hr d) hne
  · rcases hcases with hnil | ⟨d, rest, heq, hne⟩
    · exact absurd hnil hc
    · exact ⟨d, rest, heq, ((hout d).2.resolve_left hne).1⟩

/-! ## いつでも終えられる -/

/-- 二つの向きに残る仕事。 -/
def gridWork (G : GridConfig P V) (s : GridState P V) : Nat :=
  ([Direction.horizontal, .vertical].map fun d => sysWork (G.sys d) (s.comp d)).sum

/-- 仕事を持ち込まない一歩で、残る仕事は減る。 -/
theorem gridWork_lt {s' : GridState P V} {d : Direction} {l : SysLabel P V}
    (hr : GridReachable G s) (hint : Internal (G.sys d) (s.comp d) l)
    (hstep : gridStep G s (d, l) = some (.ok s')) : gridWork G s' < gridWork G s := by
  obtain ⟨t, -, hsys, hcomp⟩ := Lts.gatedStep_ok hstep
  have hlt := hint.work_lt (GridReachable.sys hr d) hsys
  have hnd : [Direction.horizontal, .vertical].Nodup := by decide
  have hmem : d ∈ [Direction.horizontal, .vertical] := by cases d <;> simp
  have hsum := Lts.sum_map_of_eq_off hnd hmem (f := fun e => sysWork (G.sys e) (s.comp e))
    (g := fun e => sysWork (G.sys e) (s'.comp e))
    (fun e he => by simp only [hcomp, Function.update_of_ne he])
  simp only [hcomp, Function.update_self] at hsum
  simp only [gridWork]
  rw [hcomp]
  omega

omit [DecidableEq P] [Zero V] [DecidableEq V] in
theorem NodeLabel.shutCall_of_not_isMain {l : NodeLabel V} (h : l.isMain = false) (d : Direction) :
    l.shutCall d = none := by
  cases l with
  | signalTermProp | signalTermRecv | waitTermProp | waitTermRecv => cases h
  | _ => rfl

/-- 仕事を持ち込まない一歩で動けなければ、propagator は RUN を出ていて、ほかの一歩でも動けない。 -/
theorem GridBlocked.quiescent (hb : GridBlocked G s) (h : GridReachable G s) :
    GridQuiescent G s := by
  have hstop : ∀ d p, ((s.comp d).node p).prop.state ≠ .run := by
    intro d p hs
    obtain ⟨happ, -⟩ := hb.signaled (GridReachable.shutInv h p) d
    obtain ⟨l, hinc, hmain, hfire, hmove⟩ :=
      ((GridReachable.sys h d).control p).thread_moves hs happ
    have hgate : shutDownGate s.ctl d (.node p l) = some s.ctl :=
      shutDownGate_thread hinc (NodeLabel.shutCall_of_not_isMain hmain d)
    exact hmove (Option.map_eq_none_iff.mp
      (Lts.comp_none hgate (hb (d, .node p l) (internal_of_ne_fire hinc hfire))))
  exact fun l hl => hb l ⟨hl, SysLabel.cost_of_stopping (hstop l.1)⟩

/--
**どの process の `ShutDown` も、いつでも最後まで進められる。**

どの process にも上流があれば、着けるどの状態からも、もう `Inc` をせずに、全ての process の `ShutDown` が戻る状態か、
次の一歩が異常終了する状態に着ける。
-/
theorem grid_can_shut_down (hn : ∀ p, 0 < G.hbatchNanosec p)
    (hup : ∀ d p, ∃ u, (G.topology d).down u = some p) (h : GridReachable G s) :
    ∃ s', Lts.ReachableUnder (gridStep G) (fun _ l => l.2.isInc = false) s s' ∧
      ((∃ l e, gridStep G s' l = some (.error e)) ∨ ∀ p, s'.ctl p = []) := by
  obtain ⟨s', hreach, hr, hend⟩ := Lts.exists_blocked (R := GridReachable G)
    (P := fun s (l : Direction × SysLabel P V) => Internal (G.sys l.1) (s.comp l.1) l.2)
    (gridWork G) (fun _ _ _ hr hp hs => ⟨hr.step hs, gridWork_lt hr hp hs⟩) s h
  refine ⟨s', hreach.mono fun _ _ hp => hp.1, ?_⟩
  rcases hend with hfault | hnone
  · exact .inl hfault
  · refine .inr fun p => ?_
    have hq : GridQuiescent G s' := GridBlocked.quiescent hnone hr
    rcases hq.ctl_cases hn hr p with hc | ⟨d, -, -, hne⟩
    · exact hc
    · obtain ⟨u, hu⟩ := hup d p
      exact absurd ((GridReachable.sys hr d).recv_stopped hn (hq.halted hr d) hu) hne

/-! ## 二つの process -/

/-- どちらの向きでも、二つの process が互いの下流である。 -/
def pairGrid : GridConfig (Fin 2) (BitVec 32) where
  topology := fun _ => pairRing.toTopology
  hbatchNanosec := pairRing.nanosec
  tableDir := fun _ => pairRing.tableDir

/-- 返事が届いて、join が済むまで。 -/
def joinPair : List (SysLabel (Fin 2) (BitVec 32)) :=
  (List.finRange 2).map .termSub ++ (List.finRange 2).map .tcp ++
    (List.finRange 2).flatMap fun j => [.node j .waitTermProp, .node j .waitTermRecv]

/-- 二つの process が終わるまでの run。 -/
def shutDownGrid : List (Direction × SysLabel (Fin 2) (BitVec 32)) :=
  ((List.finRange 2).flatMap fun p =>
    (stopNode p).map (Prod.mk .horizontal) ++ (stopNode p).map (Prod.mk .vertical)) ++
    joinPair.map (Prod.mk .horizontal) ++ joinPair.map (Prod.mk .vertical)

/-- どちらの `ShutDown` も戻った状態で、`grid_shutdown_outcome` を使う。 -/
theorem grid_shutdown_outcome_pairGrid : ∃ s, GridReachable pairGrid s ∧ GridQuiescent pairGrid s ∧
    ∀ p, s.ctl p = [] ∧ ∀ d, ((s.comp d).node p).prop.state = .term := by
  obtain ⟨s, hr, hp⟩ : ∃ s, GridReachable pairGrid s ∧ ∀ d ∈ [Direction.horizontal, .vertical],
      ∀ p, ((s.comp d).node p).app = .finished ∧ ((s.comp d).node p).prop.pc = .returned ∧
        ((s.comp d).node p).recv.state = .term ∧ ((s.comp d).node p).timer = .exited :=
    Lts.Reachable.exists_of_run shutDownGrid (by decide +kernel)
  have hfin : ∀ d p, ((s.comp d).node p).app = .finished ∧
      ((s.comp d).node p).prop.pc = .returned ∧ ((s.comp d).node p).recv.state = .term ∧
      ((s.comp d).node p).timer = .exited := by
    intro d
    exact hp d (by cases d <;> simp)
  have hq : GridQuiescent pairGrid s := by
    rintro ⟨d, l⟩ hl
    exact Lts.gatedStep_none (quiescent_of_finished (hfin d) l hl)
  refine ⟨s, hr, hq, fun p => ?_⟩
  obtain ⟨hout, hiff, -⟩ := grid_shutdown_outcome (by decide) hr hq p
  exact ⟨hiff.mpr fun d => (hfin d p).2.2.1, fun d => (hout d).1⟩

/-- 一方の process だけが `ShutDown` を呼び始めた所で、`grid_can_shut_down` を使う。 -/
theorem grid_can_shut_down_pairGrid : ∃ s s', GridReachable pairGrid s ∧
    (s.ctl 0).length = 7 ∧ s.ctl 1 = shutDownCalls ∧
    Lts.ReachableUnder (gridStep pairGrid) (fun _ l => l.2.isInc = false) s s' ∧
    ((∃ l e, gridStep pairGrid s' l = some (.error e)) ∨ ∀ p, s'.ctl p = []) := by
  obtain ⟨s, hr, h0, h1⟩ : ∃ s, GridReachable pairGrid s ∧ (s.ctl 0).length = 7 ∧
      s.ctl 1 = shutDownCalls :=
    Lts.Reachable.exists_of_run [(.horizontal, .node 0 .signalTermProp)] (by decide +kernel)
  have hup : ∀ d p, ∃ u, (pairGrid.topology d).down u = some p := fun _ p =>
    pairRing_isRing.exists_up p
  obtain ⟨s', hreach, hend⟩ := grid_can_shut_down (by decide) hup hr
  exact ⟨s, s', hr, h0, h1, hreach, hend⟩

end QuiltDB
