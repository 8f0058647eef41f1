import QuiltDB.Properties.Links

/-!
# 終了の protocol

* 下流に `EPRTerminateACK` を送った propagator は、以後何も送らない。
* TERM の thread に届く channel は空で、以後も空のままである。
* 輪では、動ける thread が無くなった時には全ての thread が TERM である。
-/

namespace QuiltDB

variable {V : Type}

/-! ## 二つの node の輪 -/

/-- 一方の node が `ShutDown` して、下流と上流の返事を待つまで。 -/
def stopNode (j : Fin 2) : List (SysLabel (Fin 2) (BitVec 32)) :=
  [.node j .signalTermProp, .node j (.pullApp 0), .node j .signalTermRecv, .node j .recvTerm,
    .node j .recvPair, .node j .pullRecv, .node j .timerFire, .node j (.timerTrigger [0]),
    .node j .timerCmd, .node j (.flushTable ⟨[], [], []⟩), .node j .flushEnd,
    .node j .timerStopped]

/-- 両方の node が終わるまでの run。 -/
def shutDownBoth : List (SysLabel (Fin 2) (BitVec 32)) :=
  (List.finRange 2).flatMap stopNode ++ (List.finRange 2).map .termSub ++
    (List.finRange 2).map .tcp ++
    (List.finRange 2).flatMap fun j => [.node j .waitTermProp, .node j .waitTermRecv]

/-! ## propagator が送ったもの -/

/-- 履歴のうち、propagator `id` が `prop_push_sock` に送った message。 -/
def Event.pushMsg (id : NodeId) : Event V → Option (PropRecvMsg V)
  | .sent k t b => if k = id then some (.eprUpdateBuffer t b) else none
  | .termAckSent k => if k = id then some (.eprTerminateACK k) else none
  | _ => none

/-- 履歴の中で propagator `id` が `prop_push_sock` に送った message の列。 -/
def pushedBy (id : NodeId) (trace : List (Event V)) : List (PropRecvMsg V) :=
  trace.filterMap (Event.pushMsg id)

section node

variable {c : NodeConfig V} {ns ns' : NodeState V} {out : NodeOut V} {i : NodeInput V}

variable [Zero V]

theorem NodeStep.pushedBy_self (h : NodeStep c ns i ns' out) :
    pushedBy c.myId out.events = out.push := by
  cases h with
  | record => exact filterMap_recorded (fun _ _ => rfl) _
  | _ => simp [pushedBy, Event.pushMsg, List.filterMap_cons]

theorem NodeStep.pushedBy_other (h : NodeStep c ns i ns' out) {id : NodeId} (hid : id ≠ c.myId) :
    pushedBy id out.events = [] := by
  cases h with
  | record => exact filterMap_recorded (fun _ _ => rfl) _
  | _ => simp [pushedBy, Event.pushMsg, List.filterMap_cons, hid.symm]

end node

/-- `EPRTerminateACK` を送っていれば、それが最後である。 -/
inductive PushInv (id : NodeId) (replied : Bool) (q : List (PropRecvMsg V)) : Prop
  | before : replied = false → (∀ m ∈ q, ∃ t b, m = .eprUpdateBuffer t b) → PushInv id replied q
  | sent {l : List (PropRecvMsg V)} : replied = true → q = l ++ [.eprTerminateACK id] →
      (∀ m ∈ l, ∃ t b, m = .eprUpdateBuffer t b) → PushInv id replied q

section system

variable {Node : Type} [DecidableEq Node] [Zero V] {C : SysConfig Node V} {s s' : SysState Node V}
  {l : SysLabel Node V}

/-- 一歩で増える履歴と、送り手の channel に入る message。 -/
theorem SysStep.trace_cases (h : SysStep C s l s') :
    ∃ j i ns' out, NodeStep (C.nodeConfig j) (s.node j) i ns' out ∧
      s'.node = Function.update s.node j ns' ∧ s'.trace = s.trace ++ out.events ∧
      (∀ m, i = .pub m → ∃ rest, s.pub j = m :: rest) := by
  cases h with
  | node hn => exact ⟨_, _, _, _, hn, rfl, rfl, by rintro _ ⟨⟩⟩
  | tcp _ _ hn => exact ⟨_, _, _, _, hn, rfl, rfl, by rintro _ ⟨⟩⟩
  | termSub hq hn => exact ⟨_, _, _, _, hn, rfl, rfl, fun m h => by cases h; exact ⟨_, hq⟩⟩

/-- どの propagator も、送ったものの最後より前に ACK を挟まない。 -/
theorem pushInv_step (hc : ∀ j, Control (C.nodeConfig j) (s.node j)) (hl : Links C s)
    (h : SysStep C s l s') (hi : ∀ j, (C.nodeConfig j).hasDownstream = true →
      PushInv (C.id j) (s.node j).prop.haveRepliedDsTerm (pushedBy (C.id j) s.trace))
    (u : Node) (hu : (C.nodeConfig u).hasDownstream = true) :
    PushInv (C.id u) (s'.node u).prop.haveRepliedDsTerm (pushedBy (C.id u) s'.trace) := by
  obtain ⟨j, i, ns', out, hn, hnode, htrace, hpub⟩ := h.trace_cases
  have hp := hi u hu
  have happ : pushedBy (C.id u) s'.trace
      = pushedBy (C.id u) s.trace ++ pushedBy (C.id u) out.events := by
    simp [htrace, pushedBy]
  rw [happ, hnode]
  by_cases hj : u = j
  · subst hj
    have hself : pushedBy (C.id u) out.events = out.push := hn.pushedBy_self
    rw [hself, Function.update_self]
    cases (hc u).linkEff hn with
    | quiet _ _ h1 _ h2 | publish h1 _ _ _ h2 | ack h1 _ _ h2 =>
      rw [h1.2, h2, List.append_nil]
      exact hp
    | push _ h1 h2 _ h3 =>
      rw [h2.2, h3]
      cases hp with
      | before h4 h5 =>
        refine .before h4 fun m hm => ?_
        rcases List.mem_append.mp hm with hm | hm
        · exact h5 m hm
        · exact ⟨_, _, List.mem_singleton.mp hm⟩
      | sent h4 => rw [h1] at h4; cases h4
    | reply _ _ h1 _ h2 _ h3 =>
      rw [h2, h3]
      cases hp with
      | before _ h5 => exact .sent rfl rfl h5
      | sent h4 => rw [h1] at h4; cases h4
    | subTerm _ h1 _ h2 =>
      rw [h1, h2, List.append_nil]
      exact hp
    | subReply hd _ h2 _ h3 =>
      obtain ⟨rest, hq⟩ := hpub _ rfl
      have hrep := hl.not_replied_of_pub hc hq
      rw [h2, h3]
      cases hp with
      | before _ h5 => exact .sent rfl rfl h5
      | sent h4 => rw [hrep] at h4; cases h4
  · have hid : C.id u ≠ (C.nodeConfig j).myId := fun h => hj (C.id_injective h)
    rw [hn.pushedBy_other hid, List.append_nil, Function.update_of_ne hj]
    exact hp

/-! ## TERM の thread -/

/-- TERM の receiver は動かない。 -/
theorem SysStep.recv_term (h : SysStep C s l s') (j : Node)
    (hs : (s.node j).recv.state = .term) : (s'.node j).recv.state = .term := by
  obtain ⟨k, i, ns', out, hn, hnode⟩ := h.node_step
  rw [hnode]
  by_cases hj : j = k
  · subst hj
    rw [Function.update_self]
    cases hn with
    | register h | recvTerm h | tcpAck h => exact absurd hs h
    | pairTermRun h | pairTermStop h | tcpProcess h => rw [hs] at h; cases h
    | _ => exact hs
  · rw [Function.update_of_ne hj]
    exact hs

/-- TERM の propagator は動かない。 -/
theorem SysStep.prop_term (hc : ∀ j, Control (C.nodeConfig j) (s.node j)) (h : SysStep C s l s')
    (j : Node) (hs : (s.node j).prop.state = .term) : (s'.node j).prop.state = .term := by
  obtain ⟨k, i, ns', out, hn, hnode⟩ := h.node_step
  rw [hnode]
  by_cases hj : j = k
  · subst hj
    have hpc := (hc j).prop.returned.mpr hs
    rw [Function.update_self]
    cases hn with
    | timerTrigger h | flushSkip h | flushRegister h | flushSend h | myUpdatesReply h | flushEnd h
    | timerStopped h | pullLog h | pullTerm h | pullTermReply h | record h | pullRecvAck h
    | subTerm h | subTermReply h => rw [hpc] at h; cases h
    | _ => exact hs
  · rw [Function.update_of_ne hj]
    exact hs

omit [Zero V] in
/-- TERM の receiver に届く channel は空である。 -/
theorem Links.recv_channels (hl : Links C s) (hc : ∀ j, Control (C.nodeConfig j) (s.node j))
    {j : Node} (hs : (s.node j).recv.state = .term) :
    (∀ u, C.down u = some j → s.tcp u = []) ∧ (s.node j).pairQ = [] ∧ (s.node j).termQ = [] := by
  obtain ⟨hrep, hack⟩ := (hc j).recv.term hs
  refine ⟨?_, ?_, ?_⟩
  · intro u hu
    have hall := Receiver.hasAllPeersAckedTerm_iff.mp hack (C.id u)
    cases hl.ack u j hu with
    | before _ h => exact absurd (hall _ h) Bool.false_ne_true
    | sent _ h => exact absurd (hall _ h) Bool.false_ne_true
    | acked _ _ h => exact h
  · cases (hc j).pair with
    | idle _ _ _ h | asked _ _ _ h | answered _ _ _ h | told _ _ _ h => rw [hrep] at h; cases h
    | heard _ _ _ h => exact h
  · cases (hc j).term with
    | running _ h | signaled _ _ h => rw [hs] at h; cases h
    | handled _ _ _ h => exact h

omit [Zero V] in
/-- TERM の propagator に届く channel は、application のものを除いて空である。 -/
theorem Links.prop_channels (hl : Links C s) (hc : ∀ j, Control (C.nodeConfig j) (s.node j))
    {j : Node} (hn : 0 < C.nanosec j) (hs : (s.node j).prop.state = .term) :
    mainMsgs (s.node j).appQ = [] ∧ (s.node j).updQ = [] ∧ (s.node j).ackQ = [] ∧ s.pub j = [] ∧
      (s.node j).trigQ = [] ∧ (s.node j).timer = .exited := by
  have hne : (s.node j).prop.state ≠ .run := by rw [hs]; rintro ⟨⟩
  have hexit := (hc j).prop.term.mp hs
  simp only [Propagator.canExit, Bool.and_eq_true] at hexit
  obtain ⟨⟨htimer, hrecv⟩, hds⟩ := hexit
  refine ⟨?_, ?_, ?_, ?_, ?_⟩
  · cases (hc j).app with
    | running _ h | signaled _ h => exact absurd h hne
    | handled _ _ h => exact h
  · cases (hc j).upd with
    | before _ h | queued _ h => rw [hrecv] at h; cases h
    | done _ _ h => exact h
  · cases (hc j).pair with
    | idle h | asked h | answered h => exact absurd h hne
    | told _ _ _ _ _ h => exact h
    | heard _ _ _ _ h => exact h
  · cases hd : C.down j with
    | none => exact (hl.sink j hd).2
    | some d =>
      have hrec := (((hc j).prop.reply (hasDownstream_iff.mpr ⟨d, hd⟩)).mp hds).1
      cases hl.pub j d hd with
      | before _ h | published _ h => rw [hrec] at h; cases h
      | heard _ _ h => exact h
  · cases (hc j).timer hn with
    | alive h | closing h => rw [htimer] at h; cases h
    | stopped _ _ _ h1 h2 => exact ⟨h2, h1⟩

variable [DecidableEq V]

theorem SysReachable.pushInv (h : SysReachable C s) (j : Node)
    (hd : (C.nodeConfig j).hasDownstream = true) :
    PushInv (C.id j) (s.node j).prop.haveRepliedDsTerm (pushedBy (C.id j) s.trace) := by
  refine h.sys_invariant (I := fun s => ∀ j, (C.nodeConfig j).hasDownstream = true →
    PushInv (C.id j) (s.node j).prop.haveRepliedDsTerm (pushedBy (C.id j) s.trace)) ?_ ?_ j hd
  · intro j hd
    exact .before (by simp [SysState.start, NodeState.start, Propagator.start, hd])
      (by simp [SysState.start, pushedBy])
  · intro s l s' hr hs hi
    exact pushInv_step (fun j => hr.control j) hr.links hs hi

/-- 下流の無い propagator は ACK を送らない。 -/
theorem SysReachable.no_ack (h : SysReachable C s) (j : Node)
    (hd : (C.nodeConfig j).hasDownstream = false) : .termAckSent (C.id j) ∉ s.trace := by
  refine h.sys_invariant (I := fun s => .termAckSent (C.id j) ∉ s.trace) (by rintro ⟨⟩) ?_
  intro s l s' hr hs hi hmem
  obtain ⟨k, i, ns', out, hn, -, htrace, -⟩ := hs.trace_cases
  rw [htrace] at hmem
  rcases List.mem_append.mp hmem with hmem | hmem
  · exact hi hmem
  · have hpush : .eprTerminateACK (C.id j) ∈ pushedBy (C.id j) out.events :=
      List.mem_filterMap.mpr ⟨_, hmem, by simp [Event.pushMsg]⟩
    by_cases hk : C.id j = C.id k
    · obtain rfl := C.id_injective hk
      have hself : pushedBy (C.id j) out.events = out.push := hn.pushedBy_self
      rw [hself] at hpush
      cases (hr.control j).linkEff hn with
      | quiet _ _ _ _ h | publish _ _ _ _ h | ack _ _ _ h | subTerm _ _ _ h =>
        rw [h] at hpush; cases hpush
      | push h | reply h | subReply h => rw [hd] at h; cases h
    · rw [hn.pushedBy_other hk] at hpush
      cases hpush

/-- `ShutDown` を呼ぶ thread だけが `Inc` をする run。 -/
abbrev MainOnly (_ : SysState Node V) (l : SysLabel Node V) : Prop := l.mainOnly = true

/-- 一本の thread だけが送るなら、application の queue の message は全てその thread のものである。 -/
theorem mainOnly_appQ (h : SysReachableUnder C MainOnly s) (j : Node) :
    ∀ e ∈ (s.node j).appQ, e.1 = 0 := by
  refine h.sys_invariant (I := fun s => ∀ j, ∀ e ∈ (s.node j).appQ, e.1 = 0) ?_ ?_ j
  · intro j e he
    cases he
  · intro s l s' _ hm hs hi
    refine hs.forall_node_label (I := fun _ ns => ∀ e ∈ ns.appQ, e.1 = 0) ?_ hi
    intro j i ns' out hlab hn
    have ha := hi j
    cases hn with
    | inc =>
      intro e he
      simp only [NodeState.inc] at he
      split at he
      · rcases List.mem_append.mp he with he | he
        · exact ha e he
        · rw [List.mem_singleton.mp he]
          rw [hlab _ rfl] at hm
          exact beq_iff_eq.mp hm
      · exact ha e he
    | signalTermProp =>
      intro e he
      rcases List.mem_append.mp he with he | he
      · exact ha e he
      · rw [List.mem_singleton.mp he]
    | pullLog _ ht | dropLog _ ht | pullTerm _ ht | pullTermReply _ ht =>
      obtain ⟨l₁, l₂, hq, rfl, -⟩ := takeApp_some ht
      exact fun e he => ha e (hq ▸ by simp at he ⊢; tauto)
    | _ => exact ha

/--
**終了の protocol はきれいに終わる。**

下流に ACK を送った propagator が送ったものは、その ACK で終わる。TERM の receiver や propagator に
届く channel は空で、この先のどの状態でも thread は TERM のまま、channel は空のままである。
-/
theorem termination_clean_exit (hn : ∀ j, 0 < C.nanosec j) (h : SysReachableUnder C MainOnly s)
    (j : Node) :
    (.termAckSent (C.id j) ∈ s.trace → ∃ l : List (PropRecvMsg V),
      pushedBy (C.id j) s.trace = l ++ [.eprTerminateACK (C.id j)] ∧
        ∀ m ∈ l, ∃ t b, m = .eprUpdateBuffer t b) ∧
    ((s.node j).recv.state = .term → ∀ s', Lts.ReachableUnder (sysStep C) MainOnly s s' →
      (s'.node j).recv.state = .term ∧ (∀ u, C.down u = some j → s'.tcp u = []) ∧
        (s'.node j).pairQ = [] ∧ (s'.node j).termQ = []) ∧
    ((s.node j).prop.state = .term → ∀ s', Lts.ReachableUnder (sysStep C) MainOnly s s' →
      (s'.node j).prop.state = .term ∧ (s'.node j).appQ = [] ∧ (s'.node j).updQ = [] ∧
        (s'.node j).ackQ = [] ∧ s'.pub j = [] ∧ (s'.node j).trigQ = [] ∧
        (s'.node j).timer = .exited) := by
  refine ⟨?_, ?_, ?_⟩
  · intro hack
    have hmem : .eprTerminateACK (C.id j) ∈ pushedBy (C.id j) s.trace :=
      List.mem_filterMap.mpr ⟨_, hack, by simp [Event.pushMsg]⟩
    cases hd : (C.nodeConfig j).hasDownstream with
    | true =>
      cases SysReachable.pushInv h.reachable j hd with
      | before _ h =>
        obtain ⟨t, b, h⟩ := h _ hmem
        cases h
      | sent _ h h' => exact ⟨_, h, h'⟩
    | false => exact absurd hack (SysReachable.no_ack h.reachable j hd)
  · intro hs s' h'
    have hr : SysReachable C s' := (h.trans h').reachable
    have hs' : (s'.node j).recv.state = .term := by
      refine h'.invariant (I := fun s => (s.node j).recv.state = .term) hs ?_
      intro s₁ l s₂ h1 _ hstep hi
      exact (sysStep_cases (SysReachable.kinds (h.trans h1).reachable) hstep).recv_term j hi
    exact ⟨hs', hr.links.recv_channels (fun k => hr.control k) hs'⟩
  · intro hs s' h'
    have hr : SysReachable C s' := (h.trans h').reachable
    have hs' : (s'.node j).prop.state = .term := by
      refine h'.invariant (I := fun s => (s.node j).prop.state = .term) hs ?_
      intro s₁ l s₂ h1 _ hstep hi
      have hr₁ : SysReachable C s₁ := (h.trans h1).reachable
      exact (sysStep_cases hr₁.kinds hstep).prop_term (fun k => hr₁.control k) j hi
    obtain ⟨hmain, hrest⟩ := hr.links.prop_channels (fun k => hr.control k) (hn j) hs'
    refine ⟨hs', ?_, hrest⟩
    have hall := mainOnly_appQ (h.trans h') j
    have hfil : (s'.node j).appQ.filter (fun e => e.1 == 0) = (s'.node j).appQ :=
      List.filter_eq_self.mpr fun e he => by simpa using hall e he
    rw [mainMsgs, hfil] at hmain
    exact List.map_eq_nil_iff.mp hmain

/-- node 0 が ACK を送り、両方の thread が TERM になった状態で、`termination_clean_exit` を使う。 -/
theorem termination_clean_exit_pairRing :
    ∃ s, SysReachableUnder pairRing MainOnly s ∧ .termAckSent 0 ∈ s.trace ∧
      (s.node 0).recv.state = .term ∧ (s.node 0).prop.state = .term ∧
      (∃ l, pushedBy 0 s.trace = l ++ [.eprTerminateACK 0]) ∧
      (∀ s', Lts.ReachableUnder (sysStep pairRing) MainOnly s s' →
        s'.tcp 1 = [] ∧ (s'.node 0).appQ = []) := by
  obtain ⟨s, hr, hp⟩ : ∃ s, SysReachableUnder pairRing MainOnly s ∧ .termAckSent 0 ∈ s.trace ∧
      (s.node 0).recv.state = .term ∧ (s.node 0).prop.state = .term :=
    Lts.ReachableUnder.exists_of_run shutDownBoth (by decide +kernel)
  obtain ⟨ha, hb, hc⟩ := termination_clean_exit (by decide) hr 0
  refine ⟨s, hr, hp.1, hp.2.1, hp.2.2, ?_, fun s' h' => ⟨?_, ?_⟩⟩
  · obtain ⟨l, hl, -⟩ := ha hp.1
    exact ⟨l, hl⟩
  · exact (hb hp.2.1 s' h').2.1 1 rfl
  · exact (hc hp.2.2 s' h').2.1

/-! ## 止まった状態 -/

/-- `Inc` のほかに動ける thread が無い。異常終了する一歩も動けることに数える。 -/
def Quiescent (C : SysConfig Node V) (s : SysState Node V) : Prop :=
  ∀ l : SysLabel Node V, l.isInc = false → sysStep C s l = none

end system

/-- node 一つの中で、動ける thread が無い。 -/
structure Stuck (c : NodeConfig V) (ns : NodeState V) : Prop where
  app : ns.app ≠ .running ∧ ns.app ≠ .signaledProp
  sleeping : ns.timer ≠ .sleeping
  cmd : ns.timer = .waitCmd → ns.cmdQ = []
  trig : 0 < c.nanosec → ns.prop.pc = .poll → ns.trigQ = []
  flush : ∀ todo, ns.prop.pc ≠ .flush todo
  ack : ∀ t b todo, ns.prop.pc = .waitAck t b todo → ns.ackQ = []
  stop : ns.prop.pc = .waitStop → ns.timer ≠ .exited
  main : ns.prop.pc = .poll → mainMsgs ns.appQ = []
  upd : ns.prop.pc = .poll → ns.updQ = []
  pair : ns.recv.state ≠ .term → ns.pairQ = []
  term : ns.recv.state ≠ .term → ns.termQ = []

theorem mainMsgs_eq_nil_of_takeApp {q : List (Nat × PropagatorMsg V)}
    (h : NodeState.takeApp 0 q = none) : mainMsgs q = [] := by
  unfold NodeState.takeApp at h
  rw [Option.map_eq_none_iff, List.find?_eq_none] at h
  rw [mainMsgs, List.map_eq_nil_iff, List.filter_eq_nil_iff]
  exact h

/-- どの map にも走査の順はある。 -/
theorem FlushOrder.exists_valid (pt : PropTable V) : ∃ o : FlushOrder V, o.Valid pt :=
  ⟨⟨pairs pt.updateStore, pairs pt.tablePeersUpdateRange, pairs pt.myUpdateStore⟩,
    List.Perm.refl _, List.Perm.refl _, List.Perm.refl _⟩

theorem stuck_of_none [Zero V] [DecidableEq V] {c : NodeConfig V} {ns : NodeState V}
    (h : ∀ l : NodeLabel V, l.isInc = false → nodeStepSelf c ns l = none) : Stuck c ns where
  app := by
    have h1 := h .signalTermProp rfl
    have h2 := h .signalTermRecv rfl
    refine ⟨fun ha => ?_, fun ha => ?_⟩
    · simp only [nodeStepSelf, ha, if_true] at h1
      split at h1 <;> cases h1
    · simp only [nodeStepSelf, ha, if_true] at h2
      split at h2 <;> cases h2
  sleeping := by
    intro ht
    have h1 := h .timerFire rfl
    simp [nodeStepSelf, ht] at h1
  cmd := by
    intro ht
    have h1 := h .timerCmd rfl
    cases hq : ns.cmdQ with
    | nil => rfl
    | cons x rest => simp [nodeStepSelf, ht, hq] at h1
  trig := by
    intro hn hpc
    have h1 := h (.timerTrigger c.tableDir.keys) rfl
    cases hq : ns.trigQ with
    | nil => rfl
    | cons x rest => simp [nodeStepSelf, hpc, hq, hn] at h1
  flush := by
    intro todo hpc
    cases todo with
    | nil =>
      have h1 := h .flushEnd rfl
      simp [nodeStepSelf, hpc] at h1
    | cons t todo =>
      obtain ⟨o, ho⟩ := FlushOrder.exists_valid (ns.prop.tab t)
      have h1 := h (.flushTable o) rfl
      simp [nodeStepSelf, hpc, ho] at h1
  ack := by
    intro t b todo hpc
    have h1 := h .myUpdatesReply rfl
    cases hq : ns.ackQ with
    | nil => rfl
    | cons x rest => simp [nodeStepSelf, hpc, hq] at h1
  stop := by
    intro hpc ht
    have h1 := h .timerStopped rfl
    simp [nodeStepSelf, hpc, ht] at h1
  main := by
    intro hpc
    have h1 := h (.pullApp 0) rfl
    cases hq : NodeState.takeApp 0 ns.appQ with
    | none => exact mainMsgs_eq_nil_of_takeApp hq
    | some res => simp [nodeStepSelf, hpc, hq] at h1
  upd := by
    intro hpc
    have h1 := h .pullRecv rfl
    cases hq : ns.updQ with
    | nil => rfl
    | cons x rest => simp [nodeStepSelf, hpc, hq] at h1
  pair := by
    intro hs
    have h1 := h .recvPair rfl
    cases hq : ns.pairQ with
    | nil => rfl
    | cons x rest => simp [nodeStepSelf, hs, hq] at h1
  term := by
    intro hs
    have h1 := h .recvTerm rfl
    cases hq : ns.termQ with
    | nil => rfl
    | cons x rest => simp [nodeStepSelf, hs, hq] at h1

/-- 動けない node の receiver は RUN を出て、paired propagator への返事も済ませている。 -/
theorem Stuck.replied {c : NodeConfig V} {ns : NodeState V} (h : Stuck c ns) (hc : Control c ns) :
    ns.recv.state ≠ .run ∧
      (ns.prop.state ≠ .run → ns.recv.haveRepliedPropPairTerm = true) := by
  have hrun : ns.recv.state ≠ .run := by
    intro hs
    have hne : ns.recv.state ≠ .term := by rw [hs]; rintro ⟨⟩
    cases hc.term with
    | running ha => rcases ha with ha | ha; exacts [h.app.1 ha, h.app.2 ha]
    | signaled _ _ _ hq => rw [h.term hne] at hq; cases hq
    | handled _ _ hs' => exact hs' hs
  refine ⟨hrun, fun hp => ?_⟩
  by_cases ht : ns.recv.state = .term
  · exact (hc.recv.term ht).1
  · cases hc.pair with
    | idle h' | asked h' | answered h' => exact absurd h' hp
    | told _ _ _ _ hq => rw [h.pair ht] at hq; cases hq
    | heard _ _ hr => exact hr.elim (hc.recv.left hrun) id

/--
動けない propagator は、TERM であるか、下流の `EPRTerminate` だけを待っている。

`EMyUpdatesACK` や timer thread の終わりを待って止まることはない。
-/
theorem Stuck.prop {c : NodeConfig V} {ns : NodeState V} (h : Stuck c ns) (hc : Control c ns)
    (hn : 0 < c.nanosec) : ns.prop.state = .term ∨
      (ns.prop.pc = .poll ∧ ns.prop.state ≠ .run ∧ ns.prop.haveRepliedDsTerm = false) := by
  cases hpc : ns.prop.pc with
  | returned => exact Or.inl (hc.prop.returned.mp hpc)
  | flush todo => exact absurd hpc (h.flush todo)
  | waitStop =>
    cases hc.timer hn with
    | alive _ h2 h3 =>
      rw [hpc, hc.prop.waitStop hpc] at h2
      rcases h2 with h2 | h2 <;> cases h2
    | closing _ _ _ _ h5 =>
      rcases h5 with ⟨h5, h6⟩ | ⟨h5, -⟩
      · rw [h.cmd h5] at h6; cases h6
      · exact absurd h5 (h.stop hpc)
    | stopped _ _ h3 => rw [hpc] at h3; rcases h3 with h3 | h3 <;> cases h3
  | waitAck t b todo =>
    cases hc.pair with
    | idle _ h' => exact absurd hpc (h' _ _ _)
    | asked hs _ _ hrep hq =>
      have hne : ns.recv.state ≠ .term := fun ht => by
        rw [(hc.recv.term ht).1] at hrep; cases hrep
      rw [h.pair hne] at hq
      cases hq
    | answered _ _ _ _ _ hq => rw [h.ack t b todo hpc] at hq; cases hq
    | told _ h' => exact absurd hpc (h' _ _ _)
    | heard _ h' => exact absurd hpc (h' _ _ _)
  | poll =>
    right
    have hne : ns.prop.state ≠ .run := by
      intro hs
      cases hc.app with
      | running ha => exact h.app.1 ha
      | signaled _ _ hq => rw [h.main hpc] at hq; exact absurd hq.symm (by simp)
      | handled _ hs' => exact hs' hs
    refine ⟨rfl, hne, ?_⟩
    have hst : ns.prop.state ≠ .term := hc.prop.ne_term (by rw [hpc]; rintro ⟨⟩)
    have htimer : ns.prop.haveStoppedTimerThr = true := by
      cases hc.timer hn with
      | alive _ _ h3 =>
        rcases h3 with ⟨h3, -⟩ | ⟨-, h3, -⟩ | ⟨h3, -, h4⟩
        · exact absurd h3 h.sleeping
        · rw [h.trig hn hpc] at h3; cases h3
        · rw [h.cmd h3] at h4; cases h4
      | closing _ _ h3 => rw [hpc] at h3; rcases h3 with ⟨_, h3⟩ | h3 <;> cases h3
      | stopped h1 => exact h1
    have hrecv : ns.prop.haveStoppedRecvThr = true := by
      cases hc.upd with
      | before h' => rw [(h.replied hc).2 hne] at h'; cases h'
      | queued _ _ hq => rw [h.upd hpc] at hq; exact absurd hq.symm (by simp)
      | done _ h' => exact h'
    rw [← Bool.not_eq_true]
    intro hds
    exact hst (hc.prop.term.mpr (by simp [Propagator.canExit, htimer, hrecv, hds]))

/-! ## 輪の終了 -/

/-- TERM_SELF の receiver は、終了の判定が通る形では待っていない。 -/
def RecvWaits (ns : NodeState V) : Prop :=
  ns.recv.state = .termSelf → (Receiver.hasAllPeersAckedTerm ns.recv.peerPropInfo &&
    ns.recv.haveRepliedPropPairTerm) = false

/--
`ERInternalTerminate` の分岐は判定をしないので、その時に揃っていないことが要る。
-/
theorem RecvWaits.step [Zero V] {c : NodeConfig V} {ns ns' : NodeState V} {i : NodeInput V}
    {out : NodeOut V} (hc : Control c ns)
    (hrun : ns.recv.state = .run → Receiver.hasAllPeersAckedTerm ns.recv.peerPropInfo = false)
    (h : NodeStep c ns i ns' out) (hw : RecvWaits ns) : RecvWaits ns' := by
  cases h with
  | @register t b =>
    obtain ⟨mu, hmu⟩ := ns.recv.onMyUpdates_cases (c := c) t b
    unfold RecvWaits
    rw [hmu]
    exact hw
  | pairTermRun hs => exact fun h => by rw [hs] at h; cases h
  | pairTermStop hs =>
    intro hs'
    rcases Receiver.exitTest_cases { ns.recv with haveRepliedPropPairTerm := true } with
      ⟨-, -, he⟩ | ⟨hf, he⟩
    · simp only [he] at hs'; cases hs'
    · simp only [he]; exact hf
  | recvTerm hs hq =>
    intro _
    simp [Receiver.onInternalTerminate, hrun (hc.term.run_of_queued hq)]
  | tcpProcess hs => exact fun h => by rw [hs] at h; cases h
  | @tcpAck id hs =>
    intro hs'
    unfold Receiver.onTerminateACK at hs' ⊢
    rcases Receiver.exitTest_cases
        { ns.recv with peerPropInfo := ns.recv.peerPropInfo.insert id true } with
      ⟨-, -, he⟩ | ⟨hf, he⟩
    · simp only [he] at hs'; cases hs'
    · simp only [he]; exact hf
  | _ => exact hw

section ring

variable {Node : Type} [DecidableEq Node] [Zero V] [DecidableEq V] {C : SysConfig Node V}
  {s : SysState Node V}

omit [DecidableEq Node] [Zero V] [DecidableEq V] in
/-- 輪ではどの node にも上流がある。 -/
theorem Topology.IsRing.exists_up (h : C.IsRing) (d : Node) : ∃ u, C.down u = some d := by
  obtain ⟨next, hdown, hreach⟩ := h
  obtain ⟨k, hk⟩ := hreach (next d) d
  refine ⟨next^[k] d, ?_⟩
  rw [hdown, ← Function.iterate_succ_apply' next k d, Function.iterate_succ_apply, hk]

omit [Zero V] [DecidableEq V] in
/-- 上流のある receiver は、RUN の間に全員の ACK を受けてはいない。 -/
theorem Links.not_all_acked (hl : Links C s) (hc : ∀ j, Control (C.nodeConfig j) (s.node j))
    {u d : Node} (hd : C.down u = some d) (hs : (s.node d).recv.state = .run) :
    Receiver.hasAllPeersAckedTerm (s.node d).recv.peerPropInfo = false := by
  have hrep : (s.node u).prop.haveRepliedDsTerm = false := by
    rw [← Bool.not_eq_true]
    intro hr
    have hrec := (((hc u).prop.reply (hasDownstream_iff.mpr ⟨d, hd⟩)).mp hr).1
    cases hl.pub u d hd with
    | before _ h => rw [hrec] at h; cases h
    | published h | heard h => exact h hs
  rw [← Bool.not_eq_true, Receiver.hasAllPeersAckedTerm_iff]
  intro hall
  cases hl.ack u d hd with
  | before _ h => exact Bool.false_ne_true (hall _ _ h)
  | sent h | acked h => rw [hrep] at h; cases h

theorem SysReachable.recvWaits (h : SysReachable C s) (hup : ∀ d, ∃ u, C.down u = some d)
    (j : Node) : RecvWaits (s.node j) := by
  refine h.sys_invariant (I := fun s => ∀ j, RecvWaits (s.node j))
    (by rintro _ ⟨⟩) ?_ j
  intro s l s' hr hs hi
  refine hs.forall_node (I := fun _ ns => RecvWaits ns) (fun j i ns' out hn => ?_) hi
  obtain ⟨u, hu⟩ := hup j
  exact (hi j).step (hr.control j) (hr.links.not_all_acked (fun k => hr.control k) hu) hn

/-- どの node も終わっていれば、動ける thread は無い。 -/
theorem quiescent_of_finished (h : ∀ j, (s.node j).app = .finished ∧
    (s.node j).prop.pc = .returned ∧ (s.node j).recv.state = .term ∧
    (s.node j).timer = .exited) : Quiescent C s := by
  intro l hl
  cases l with
  | node j l =>
    obtain ⟨h1, h2, h3, h4⟩ := h j
    have hn : nodeStepSelf (C.nodeConfig j) (s.node j) l = none := by
      cases l with
      | inc => cases hl
      | recvPair =>
        cases hq : (s.node j).pairQ with
        | nil => simp [nodeStepSelf, hq]
        | cons => simp [nodeStepSelf, hq, h3]
      | recvTerm =>
        cases hq : (s.node j).termQ with
        | nil => simp [nodeStepSelf, hq]
        | cons => simp [nodeStepSelf, hq, h3]
      | _ => simp [nodeStepSelf, h1, h2, h4]
    simp [sysStep, nodeStep, hn]
  | tcp u =>
    simp only [sysStep]
    split
    · next d msg rest _ _ => simp [nodeStep, (h d).2.2.1]
    · rfl
  | termSub j =>
    simp only [sysStep]
    split
    · rfl
    · simp [nodeStep, (h j).2.1]

/-- **輪の終了は行き詰まらない。** -/
theorem ring_shutdown_no_deadlock (hring : C.IsRing) (hn : ∀ j, 0 < C.nanosec j)
    (h : SysReachable C s) (hq : Quiescent C s) (j : Node) :
    (s.node j).prop.state = .term ∧ (s.node j).recv.state = .term := by
  have hup := hring.exists_up
  obtain ⟨next, hdown, -⟩ := hring
  have hl := h.links
  have hstuck : ∀ j, Stuck (C.nodeConfig j) (s.node j) := fun j =>
    stuck_of_none fun l hi => Option.map_eq_none_iff.mp (hq (.node j l) hi)
  have hleft : ∀ j, (s.node j).recv.state ≠ .run := fun j => ((hstuck j).replied (h.control j)).1
  -- どの propagator も TERM である。`EPRTerminate` を待つことはない
  have hprop : ∀ j, (s.node j).prop.state = .term := by
    intro j
    rcases (hstuck j).prop (h.control j) (hn j) with ht | ⟨hpc, hne, hds⟩
    · exact ht
    · exfalso
      have hd : (C.nodeConfig j).hasDownstream = true := hasDownstream_iff.mpr ⟨_, hdown j⟩
      have hpub : s.pub j = [] := by
        have h1 := hq (.termSub j) rfl
        cases hp : s.pub j with
        | nil => rfl
        | cons m rest => simp [sysStep, hp, nodeStep, hpc] at h1
      cases hl.pub j _ (hdown j) with
      | before h' => exact hleft _ h'
      | published _ _ h' => rw [hpub] at h'; cases h'
      | heard _ h' _ =>
        rw [((h.control j).prop.reply hd).mpr ⟨h', hne⟩] at hds
        cases hds
  refine ⟨hprop j, ?_⟩
  -- 全員が ACK を送っていて channel も空なので、判定は通っている
  by_contra hrt
  have hall : Receiver.hasAllPeersAckedTerm (s.node j).recv.peerPropInfo = true := by
    rw [Receiver.hasAllPeersAckedTerm_iff]
    intro id b hb
    obtain ⟨u, hu, rfl⟩ := hl.peers j id b hb
    have hexit := (h.control u).prop.term.mp (hprop u)
    simp only [Propagator.canExit, Bool.and_eq_true] at hexit
    have htcp : s.tcp u = [] := by
      have h1 := hq (.tcp u) rfl
      cases ht : s.tcp u with
      | nil => rfl
      | cons m rest =>
        simp only [sysStep, hu, ht, Option.map_eq_none_iff, nodeStep, if_neg hrt] at h1
        split at h1 <;> cases h1
    cases hl.ack u j hu with
    | before h' => rw [hexit.2] at h'; cases h'
    | sent _ _ h' => rw [htcp] at h'; exact absurd h'.symm (by simp)
    | acked _ h' => exact Option.some.inj (hb.symm.trans h')
  have hself : (s.node j).recv.state = .termSelf := by
    cases hs : (s.node j).recv.state with
    | init => exact absurd hs (h.control j).recv.ne_init
    | run => exact absurd hs (hleft j)
    | termSelf => rfl
    | term => exact absurd hs hrt
  have hrep := ((hstuck j).replied (h.control j)).2 (by rw [hprop j]; rintro ⟨⟩)
  have hwait := h.recvWaits hup j hself
  rw [hall, hrep] at hwait
  cases hwait

/-- 両方の node が終わった状態で、`ring_shutdown_no_deadlock` を使う。 -/
theorem ring_shutdown_pairRing :
    ∃ s, SysReachable pairRing s ∧ Quiescent pairRing s ∧
      ∀ j, (s.node j).prop.state = .term ∧ (s.node j).recv.state = .term := by
  obtain ⟨s, hr, hp⟩ : ∃ s, SysReachable pairRing s ∧ ∀ j, (s.node j).app = .finished ∧
      (s.node j).prop.pc = .returned ∧ (s.node j).recv.state = .term ∧
      (s.node j).timer = .exited :=
    Lts.Reachable.exists_of_run shutDownBoth (by decide +kernel)
  have hq : Quiescent pairRing s := quiescent_of_finished hp
  exact ⟨s, hr, hq, ring_shutdown_no_deadlock pairRing_isRing (by decide) hr hq⟩

end ring

end QuiltDB
