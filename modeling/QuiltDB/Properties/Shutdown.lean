import QuiltDB.Properties.Termination

/-!
# どの topology でも、止まった後に残るもの

下流の無い node も上流の無い node もある、好きな結び方の system で、動ける thread が無くなった状態を調べる。

* `SysReachable.prop_stopped` — propagator はどれも TERM である
* `SysReachable.recv_stopped` — 上流のある receiver は TERM である
* `shutdown_outcome` — `ShutDown` が戻るのは、ちょうど receiver が TERM の時である

上流の無い receiver は、`ERInternalTerminate` より先に paired propagator の終了を知ると TERM_SELF のまま残る。
-/

namespace QuiltDB

variable {Node V : Type} [DecidableEq Node] [Zero V] [DecidableEq V] {C : SysConfig Node V}
  {s : SysState Node V} {j : Node}

/-! ## 動ける thread が無い system -/

/-- join の呼び出しかどうか。 -/
def NodeLabel.isWait : NodeLabel V → Bool
  | .waitTermProp | .waitTermRecv => true
  | _ => false

/-- join のほかに動けない node は、`ShutDown` の位置を除いて止まっている。 -/
theorem Stuck.of_threads {c : NodeConfig V} {ns : NodeState V}
    (happ : ns.app ≠ .running ∧ ns.app ≠ .signaledProp)
    (h : ∀ l : NodeLabel V, l.isInc = false → l.isWait = false → nodeStepSelf c ns l = none) :
    Stuck c ns := by
  -- join を終えた所から見れば、join のほかに動けないことは、動けないことと同じである。
  have hfin : Stuck c { ns with app := .finished } := by
    refine stuck_of_none fun l hi => ?_
    cases l with
    | inc => cases hi
    | signalTermProp | signalTermRecv | waitTermProp | waitTermRecv => simp [nodeStepSelf]
    | _ =>
      have hl := h _ hi rfl
      simp only [nodeStepSelf] at hl ⊢
      grind
  exact { hfin with app := happ }

/-- system のどこにも、join のほかに動ける thread が無い。 -/
structure Halted (C : SysConfig Node V) (s : SysState Node V) : Prop where
  stuck : ∀ j, Stuck (C.nodeConfig j) (s.node j)
  /-- 届いた `EPRTerminate` は残っていない。 -/
  pub : ∀ j, (s.node j).prop.pc = .poll → s.pub j = []
  /-- TERM でない receiver に届いたものは残っていない。 -/
  tcp : ∀ u d, C.down u = some d → (s.node d).recv.state ≠ .term → s.tcp u = []

theorem Halted.of_none (hstuck : ∀ j, Stuck (C.nodeConfig j) (s.node j))
    (hpub : ∀ j, sysStep C s (.termSub j) = none) (htcp : ∀ u, sysStep C s (.tcp u) = none) :
    Halted C s where
  stuck := hstuck
  pub := by
    intro j hpc
    have hstep := hpub j
    cases hp : s.pub j with
    | nil => rfl
    | cons m rest => simp [sysStep, hp, nodeStep, hpc] at hstep
  tcp := by
    intro u d hd hs
    have hstep := htcp u
    cases ht : s.tcp u with
    | nil => rfl
    | cons m rest =>
      simp only [sysStep, hd, ht, Option.map_eq_none_iff, nodeStep, if_neg hs] at hstep
      split at hstep <;> cases hstep

theorem Quiescent.halted (hq : Quiescent C s) : Halted C s :=
  .of_none (fun j => stuck_of_none fun l hi => Option.map_eq_none_iff.mp (hq (.node j l) hi))
    (fun j => hq (.termSub j) rfl) (fun u => hq (.tcp u) rfl)

/-- propagator はどれも TERM である。下流が無ければ、返事を待つこともない。 -/
theorem SysReachable.prop_stopped (h : SysReachable C s) (hn : ∀ j, 0 < C.nanosec j)
    (hq : Halted C s) (j : Node) : (s.node j).prop.state = .term := by
  rcases (hq.stuck j).prop (h.control j) (hn j) with ht | ⟨hpc, hne, hds⟩
  · exact ht
  · exfalso
    cases hd : C.down j with
    | none =>
      have hsink : (C.nodeConfig j).hasDownstream = false := by
        rw [← Bool.not_eq_true, hasDownstream_iff]
        rintro ⟨d, hd'⟩
        rw [hd] at hd'
        cases hd'
      rw [(h.control j).prop.noDown hsink] at hds
      cases hds
    | some d =>
      have hdown : (C.nodeConfig j).hasDownstream = true := hasDownstream_iff.mpr ⟨d, hd⟩
      have hleft : (s.node d).recv.state ≠ .run := ((hq.stuck d).replied (h.control d)).1
      cases h.links.pub j d hd with
      | before hrun => exact hleft hrun
      | published _ _ hpub =>
        rw [hq.pub j hpc] at hpub
        cases hpub
      | heard _ hrecd _ =>
        rw [((h.control j).prop.reply hdown).mpr ⟨hrecd, hne⟩] at hds
        cases hds

/-- 全員の propagator が TERM なら、receiver は全員の ACK を受けている。 -/
theorem SysReachable.all_acked (h : SysReachable C s) (hq : Halted C s)
    (hprop : ∀ j, (s.node j).prop.state = .term) {j : Node}
    (hs : (s.node j).recv.state ≠ .term) :
    Receiver.hasAllPeersAckedTerm (s.node j).recv.peerPropInfo = true := by
  rw [Receiver.hasAllPeersAckedTerm_iff]
  intro id b hb
  obtain ⟨u, hu, rfl⟩ := h.links.peers j id b hb
  have hexit := (h.control u).prop.term.mp (hprop u)
  simp only [Propagator.canExit, Bool.and_eq_true] at hexit
  cases h.links.ack u j hu with
  | before hrep =>
    rw [hexit.2] at hrep
    cases hrep
  | sent _ _ htcp =>
    rw [hq.tcp u j hu hs] at htcp
    exact absurd htcp.symm (by simp)
  | acked _ hflag => exact Option.some.inj (hb.symm.trans hflag)

/-- 上流のある receiver は、終了の判定が通る形では待っていない。 -/
theorem SysReachable.recvWaits_of_up (h : SysReachable C s) {u j : Node} (hu : C.down u = some j) :
    RecvWaits (s.node j) := by
  refine h.sys_invariant (I := fun s => ∀ u j, C.down u = some j → RecvWaits (s.node j))
    (fun u j _ => by rintro ⟨⟩) ?_ u j hu
  intro s l s' hr hs hi u j hu
  refine hs.forall_node (I := fun k ns => (∃ u, C.down u = some k) → RecvWaits ns) ?_ ?_ j ⟨u, hu⟩
  · rintro k i ns' out hn ⟨u, hu⟩
    exact (hi u k hu).step (hr.control k) (hr.links.not_all_acked (fun k => hr.control k) hu) hn
  · rintro k ⟨u, hu⟩
    exact hi u k hu

/-- 上流のある receiver は TERM である。 -/
theorem SysReachable.recv_stopped (h : SysReachable C s) (hn : ∀ j, 0 < C.nanosec j)
    (hq : Halted C s) {u j : Node} (hu : C.down u = some j) : (s.node j).recv.state = .term := by
  by_contra hs
  have hprop := h.prop_stopped hn hq
  obtain ⟨hleft, hreplied⟩ := (hq.stuck j).replied (h.control j)
  have hself : (s.node j).recv.state = .termSelf := by
    cases hst : (s.node j).recv.state with
    | init => exact absurd hst (h.control j).recv.ne_init
    | run => exact absurd hst hleft
    | termSelf => rfl
    | term => exact absurd hst hs
  have hrep := hreplied (by rw [hprop j]; rintro ⟨⟩)
  have hwait := h.recvWaits_of_up hu hself
  rw [h.all_acked hq hprop hs, hrep] at hwait
  cases hwait

/-- 動ける thread の無い system の propagator と receiver。 -/
theorem SysReachable.halted_outcome (h : SysReachable C s) (hn : ∀ j, 0 < C.nanosec j)
    (hq : Halted C s) (j : Node) :
    (s.node j).prop.state = .term ∧
    ((s.node j).recv.state = .term ∨
      (s.node j).recv.state = .termSelf ∧ ∀ u, C.down u ≠ some j) := by
  refine ⟨h.prop_stopped hn hq j, ?_⟩
  cases hst : (s.node j).recv.state with
  | init => exact absurd hst (h.control j).recv.ne_init
  | run => exact absurd hst ((hq.stuck j).replied (h.control j)).1
  | term => exact .inl rfl
  | termSelf =>
    refine .inr ⟨rfl, fun u hu => ?_⟩
    rw [h.recv_stopped hn hq hu] at hst
    cases hst

/-! ## `ShutDown` が戻ること -/

/-- join した receiver は TERM である。 -/
theorem SysReachable.finished_recv (h : SysReachable C s) (j : Node)
    (hj : (s.node j).app = .finished) : (s.node j).recv.state = .term := by
  refine h.node_invariant (I := fun _ ns => ns.app = .finished → ns.recv.state = .term)
    (fun _ => by rintro ⟨⟩) ?_ j hj
  intro j ns i ns' out hn hi
  cases hn with
  | signalTermProp | signalTermRecv | waitTermProp => rintro ⟨⟩
  | waitTermRecv _ hr => exact fun _ => hr
  | register hr | recvTerm hr | tcpAck hr => exact fun ha => absurd (hi ha) hr
  | pairTermRun hr | pairTermStop hr | tcpProcess hr =>
    intro ha
    rw [hi ha] at hr
    cases hr
  | _ => exact hi

/-- 動ける thread が無ければ、`ShutDown` が戻ったのは、ちょうど receiver が TERM の時である。 -/
theorem Quiescent.finished_iff (hq : Quiescent C s) (h : SysReachable C s)
    (hn : ∀ j, 0 < C.nanosec j) (j : Node) :
    (s.node j).app = .finished ↔ (s.node j).recv.state = .term := by
  refine ⟨h.finished_recv j, fun hr => ?_⟩
  have hpc : (s.node j).prop.pc = .returned :=
    (h.control j).prop.returned.mpr (h.prop_stopped hn hq.halted j)
  obtain ⟨h1, h2⟩ := (hq.halted.stuck j).app
  have hwaitP := Option.map_eq_none_iff.mp (hq (.node j .waitTermProp) rfl)
  have hwaitR := Option.map_eq_none_iff.mp (hq (.node j .waitTermRecv) rfl)
  cases ha : (s.node j).app with
  | running => exact absurd ha h1
  | signaledProp => exact absurd ha h2
  | signaledRecv => simp [nodeStep, nodeStepSelf, ha, hpc] at hwaitP
  | joinedProp => simp [nodeStep, nodeStepSelf, ha, hr] at hwaitR
  | finished => rfl

/--
**どの結び方でも、`ShutDown` が戻らないのは、上流の無い receiver が残った時だけである。**

動ける thread が無くなった状態では、propagator はどれも TERM、上流のある receiver もどれも TERM であり、`ShutDown` が
戻った node は、ちょうど receiver が TERM の node である。
-/
theorem shutdown_outcome (hn : ∀ j, 0 < C.nanosec j) (h : SysReachable C s) (hq : Quiescent C s)
    (j : Node) :
    (s.node j).prop.state = .term ∧
    ((s.node j).recv.state = .term ∨ (s.node j).recv.state = .termSelf ∧ ∀ u, C.down u ≠ some j) ∧
    ((s.node j).app = .finished ↔ (s.node j).recv.state = .term) := by
  obtain ⟨hprop, hrecv⟩ := h.halted_outcome hn hq.halted j
  exact ⟨hprop, hrecv, hq.finished_iff h hn j⟩

/-! ## 一つだけの node -/

/-- 上流も下流も無い node 一つ。 -/
def soloNode : SysConfig Unit (BitVec 32) where
  nodes := [()]
  nodes_nodup := by decide
  mem_nodes := by decide
  id := fun _ => 0
  id_nonneg := by decide
  id_injective := by decide
  down := fun _ => none
  nanosec := fun _ => 1
  tableDir := fun _ => ∅

/-- receiver が、`ERInternalTerminate` より先に paired propagator の終了を知る順。 -/
def lateSignal : List (SysLabel Unit (BitVec 32)) :=
  ([.signalTermProp, .pullApp 0, .recvPair, .signalTermRecv, .recvTerm, .pullRecv, .timerFire,
    .timerTrigger [], .timerCmd, .flushEnd, .timerStopped, .waitTermProp]).map (.node ())

/-- `ShutDown` が receiver の join を待ったまま残る状態で、`shutdown_outcome` を使う。 -/
theorem shutdown_outcome_soloNode : ∃ s, SysReachable soloNode s ∧ Quiescent soloNode s ∧
    (s.node ()).recv.state = .termSelf ∧ (s.node ()).prop.state = .term ∧
    (s.node ()).app ≠ .finished := by
  obtain ⟨s, hr, hrecv, happ, hpc, htimer, hpair, hterm, hpub⟩ : ∃ s, SysReachable soloNode s ∧
      (s.node ()).recv.state = .termSelf ∧ (s.node ()).app = .joinedProp ∧
      (s.node ()).prop.pc = .returned ∧ (s.node ()).timer = .exited ∧ (s.node ()).pairQ = [] ∧
      (s.node ()).termQ = [] ∧ s.pub () = [] :=
    Lts.Reachable.exists_of_run lateSignal (by decide +kernel)
  have hq : Quiescent soloNode s := by
    intro l hl
    cases l with
    | node j l =>
      have hn : nodeStepSelf (soloNode.nodeConfig j) (s.node j) l = none := by
        cases l with
        | inc => cases hl
        | _ => simp [nodeStepSelf, hrecv, happ, hpc, htimer, hpair, hterm]
      simp [sysStep, nodeStep, hn]
    | tcp u => rfl
    | termSub j => simp [sysStep, hpub]
  obtain ⟨hprop, -, hiff⟩ := shutdown_outcome (fun _ => Int.one_pos) hr hq ()
  refine ⟨s, hr, hq, hrecv, hprop, fun hfin => ?_⟩
  rw [hiff.mp hfin] at hrecv
  cases hrecv

end QuiltDB
