import QuiltDB.Properties.Links

/-!
# table 一つから見た system

table `t` に関わるものだけを取り出した状態 `TabSys` と、その一歩 `TabStep`。system の一歩は、
`t` から見ればいつも `TabStep` の一歩である（`SysStep.tabStep`）。

update の流れについての不変量は、すべてこの小さな遷移系の上で示す。
-/

namespace QuiltDB

variable {V : Type}

/-! ## table に関わるもの -/

/-- 下流へ流れる message のうち、`t` の buffer。 -/
def PropRecvMsg.ofTable (t : TableId) : PropRecvMsg V → Option (UpdateBuffer V)
  | .eprUpdateBuffer t' b => if t' = t then some b else none
  | _ => none

/-- receiver が forward する message のうち、`t` の buffer。 -/
def PropagatorMsg.ofTable (t : TableId) : PropagatorMsg V → Option (UpdateBuffer V)
  | .epUpdateBuffer t' b => if t' = t then some b else none
  | _ => none

/-- application の message のうち、`t` の log。 -/
def PropagatorMsg.logOf (t : TableId) : PropagatorMsg V → Option (Key × V)
  | .epUpdateLog t' key delta => if t' = t then some (key, delta) else none
  | _ => none

/-- propagator が receiver に送る message のうち、`t` の batch。 -/
def ReceiverMsg.ofTable (t : TableId) : ReceiverMsg V → Option (UpdateBuffer V)
  | .eMyUpdates t' b => if t' = t then some b else none
  | _ => none

/-- `t` の batch を登録していて、まだ送っていない buffer。 -/
def PropagatorPc.ofTable (t : TableId) : PropagatorPc V → Option (UpdateBuffer V)
  | .waitAck t' b _ => if t' = t then some b else none
  | _ => none

/-- `t` についての出来事か。 -/
def Event.isOf (t : TableId) : Event V → Bool
  | .inc _ t' .. => t' == t
  | .logHandled _ t' .. => t' == t
  | .myUpdatesSent _ t' _ => t' == t
  | .registered _ t' .. => t' == t
  | .ackReceived _ t' => t' == t
  | .sent _ t' _ => t' == t
  | .termAckSent _ => false
  | .received _ t' _ => t' == t
  | .recorded _ t' .. => t' == t

/-- 出来事の起きた node。 -/
def Event.nodeId : Event V → NodeId
  | .inc id .. => id
  | .logHandled id .. => id
  | .myUpdatesSent id .. => id
  | .registered id .. => id
  | .ackReceived id _ => id
  | .sent id .. => id
  | .termAckSent id => id
  | .received id .. => id
  | .recorded id .. => id

/-- node `id` と table `t` の出来事だけを見る関数。 -/
def Event.Local {α : Type} (id : NodeId) (t : TableId) (f : Event V → Option α) : Prop :=
  ∀ e, f e ≠ none → e.nodeId = id ∧ e.isOf t = true

section events

variable {α : Type} {id : NodeId} {t : TableId} {f : Event V → Option α}

/-- 他の table の出来事を落としても、見えるものは同じである。 -/
theorem Event.Local.filterMap_filter (h : Event.Local id t f) (tr : List (Event V)) :
    (tr.filter (Event.isOf t)).filterMap f = tr.filterMap f := by
  rw [List.filterMap_filter]
  refine List.filterMap_congr fun e _ => ?_
  split
  · rfl
  · next hne =>
    by_contra hf
    exact hne (h e (Ne.symm hf)).2

/-- 他の node の出来事には、見えるものが無い。 -/
theorem Event.Local.filterMap_other (h : Event.Local id t f) {ev : List (Event V)}
    (hev : ∀ e ∈ ev, e.nodeId ≠ id) : ev.filterMap f = [] := by
  refine List.filterMap_eq_nil_iff.mpr fun e he => ?_
  by_contra hne
  exact hev e he (h e hne).1

end events

/-- node 一つの中で table `t` に関わるもの。 -/
structure TabView (V : Type) where
  pRun : Bool
  rRun : Bool
  pt : PropTable V
  /-- 登録の返事を待っている間の、これから送る buffer。 -/
  pend : Option (UpdateBuffer V)
  /-- `EMyUpdates` で送って、まだ読まれていない batch。 -/
  reg : List (UpdateBuffer V)
  /-- `my_updates` -/
  my : Option (List (UpdateBuffer V))
  /-- receiver から propagator へ渡す途中の buffer。 -/
  fwd : List (UpdateBuffer V)
  /-- application から propagator へ渡す途中の log。 -/
  logs : List (Key × V)
  storage : Storage V

def NodeState.tabView (t : TableId) (ns : NodeState V) : TabView V where
  pRun := decide (ns.prop.state = .run)
  rRun := decide (ns.recv.state = .run)
  pt := ns.prop.tab t
  pend := ns.prop.pc.ofTable t
  reg := ns.pairQ.filterMap (ReceiverMsg.ofTable t)
  my := ns.recv.myUpdates t
  fwd := ns.updQ.filterMap (PropagatorMsg.ofTable t)
  logs := ns.appQ.filterMap fun e => e.2.logOf t
  storage := ns.storage t

/-! ## node の一歩 -/

open Propagator in
/--
node の一歩を `t` から見た場合分け。

引数は順に、受け取った buffer、後の状態、下流へ送る buffer、出来事である。
-/
inductive TabEff [Zero V] (c : NodeConfig V) (t : TableId) (v : TabView V) :
    Option (UpdateBuffer V) → TabView V → List (UpdateBuffer V) → List (Event V) → Prop
  | skip : TabEff c t v none v [] []
  | inc {key delta tc} : c.tableDir.lookup t = some tc →
      TabEff c t v none
        { v with
          storage := incRaw tc.vaddFunc v.storage key delta
          logs := if v.pRun then v.logs ++ [(NodeState.logKey key, delta)] else v.logs }
        [] [.inc c.myId t key delta]
  | log {l₁ l₂ key delta} : v.pRun = true → v.pend = none →
      (0 < c.nanosec → ∃ tc, c.tableDir.lookup t = some tc) → v.logs = l₁ ++ (key, delta) :: l₂ →
      TabEff c t v none { v with logs := l₁ ++ l₂, pt := addLog c t v.pt key delta }
        [] [.logHandled c.myId t key delta]
  | dropLog {l₁ l₂ e} : v.pRun = false → v.logs = l₁ ++ e :: l₂ →
      TabEff c t v none { v with logs := l₁ ++ l₂ } [] []
  | stop : v.pRun = true → v.pend = none →
      TabEff c t v none { v with pRun := false, pt := { v.pt with updateStore := ∅ } } [] []
  | ask {o buff peers myBuff tc} : v.pRun = true → v.pend = none → v.reg = [] → 0 < c.nanosec →
      o.Valid v.pt → v.pt.updateStore.entries ≠ [] → buildBuffer c v.pt o = .ok (buff, peers) →
      c.tableDir.lookup t = some tc → tc.loop = true → v.pt.myUpdateStore.entries ≠ [] →
      buildMyBuffer c v.pt o.mine = .ok myBuff →
      TabEff c t v none
        { v with
          pt := { v.pt with
            updateStore := ∅, tablePeersUpdateRange := peers, myUpdateStore := ∅ }
          pend := some buff
          reg := [myBuff] }
        [] [.myUpdatesSent c.myId t myBuff]
  | send {o buff peers} : v.pRun = true → v.pend = none → 0 < c.nanosec → o.Valid v.pt →
      v.pt.updateStore.entries ≠ [] → buildBuffer c v.pt o = .ok (buff, peers) →
      (∀ tc, c.tableDir.lookup t = some tc → tc.loop = true → v.pt.myUpdateStore.entries = []) →
      TabEff c t v none
        { v with pt := closeMyRange { v.pt with
            updateStore := ∅, tablePeersUpdateRange := peers } }
        [buff] [.sent c.myId t buff]
  | reply {buff} : v.pRun = true → v.pend = some buff → v.reg = [] →
      TabEff c t v none { v with pend := none, pt := closeMyRange v.pt }
        [buff] [.ackReceived c.myId t, .sent c.myId t buff]
  | register {b} : v.pend ≠ none → v.reg = [b] →
      TabEff c t v none
        { v with
          reg := []
          my := if v.rRun then some (v.my.getD [] ++ [b]) else v.my }
        [] [.registered c.myId t b v.rRun]
  | recvStop : v.rRun = true →
      TabEff c t v none { v with rRun := false, my := v.my.map fun _ => [] } [] []
  | discard {b} : v.rRun = false → TabEff c t v (some b) v [] []
  | noPeer {b} : v.rRun = true → Receiver.carriesNoPeer c.myId b = true →
      TabEff c t v (some b) v [] [.received c.myId t b]
  | process {b b' r r' tc} : v.rRun = true → Receiver.carriesNoPeer c.myId b = false →
      c.tableDir.lookup t = some tc → r.myUpdates t = v.my →
      Receiver.dedup c r t (.ofConfig tc) b = .ok (r', b') →
      TabEff c t v (some b)
        { v with
          my := r'.myUpdates t
          storage := if tc.applyUpdates then
              b'.iterUpdates.foldl (fun s kv => incRaw tc.vaddFunc s kv.1 kv.2) v.storage
            else v.storage
          fwd := v.fwd ++ if tc.forwardUpdates then [b'] else [] }
        [] [.received c.myId t b]
  | record {b rest tc peers} : v.pRun = true → v.pend = none → v.fwd = b :: rest →
      c.tableDir.lookup t = some tc →
      recordRanges v.pt.tablePeersUpdateRange b.iterNodeRanges = .ok peers →
      TabEff c t v none
        { v with
          fwd := rest
          pt := { v.pt with
            updateStore := b.iterUpdates.foldl (fun m kv => addUpdate tc.vaddFunc m kv.1 kv.2)
              v.pt.updateStore
            tablePeersUpdateRange := peers } }
        [] (b.iterNodeRanges.map fun r => .recorded c.myId t r.1 r.2)
  | dropBuffer {b rest} : v.pRun = false → v.fwd = b :: rest →
      TabEff c t v none { v with fwd := rest } [] []

section effect

variable [Zero V] {c : NodeConfig V} {t : TableId} {v v' : TabView V} {ib : Option (UpdateBuffer V)}
  {push : List (UpdateBuffer V)} {ev : List (Event V)}

theorem TabEff.nodeId_eq (h : TabEff c t v ib v' push ev) : ∀ e ∈ ev, e.nodeId = c.myId := by
  cases h with
  | record =>
    intro e he
    obtain ⟨r, -, rfl⟩ := List.mem_map.mp he
    rfl
  | skip | inc | log | dropLog | stop | ask | send | reply | register | recvStop | discard | noPeer
  | process | dropBuffer => simp [Event.nodeId]

/-- 他の node の一歩に、`k` の出来事は無い。 -/
theorem TabEff.nodeId_ne {Node : Type} [DecidableEq Node] {C : SysConfig Node V} {j k : Node}
    (h : TabEff (C.nodeConfig j) t v ib v' push ev) (hk : k ≠ j) :
    ∀ e ∈ ev, e.nodeId ≠ C.id k := by
  intro e he
  rw [h.nodeId_eq e he]
  exact fun heq => hk (C.id_injective heq).symm

end effect

/-! ## node の一歩はどれかの場合である -/

/-- 届いた message のうち、`t` の buffer。 -/
def NodeInput.ofTable (t : TableId) : NodeInput V → Option (UpdateBuffer V)
  | .tcp msg => msg.ofTable t
  | _ => none

section tabEff

variable {t : TableId}

/-- `EPInternalTerminate` は log ではないので、log の列は変わらない。 -/
theorem logs_take_term {thr : Nat} {q rest : List (Nat × PropagatorMsg V)}
    (h : NodeState.takeApp thr q = some (.epInternalTerminate, rest)) :
    rest.filterMap (fun e => e.2.logOf t) = q.filterMap fun e => e.2.logOf t := by
  obtain ⟨l₁, l₂, rfl, rfl, -⟩ := takeApp_some h
  simp [PropagatorMsg.logOf]

/-- 読んだ log が `t` のものなら列から一つ抜け、そうでなければ変わらない。 -/
theorem logs_take_log {thr : Nat} {q rest : List (Nat × PropagatorMsg V)} {t' : TableId}
    {key : Key} {delta : V}
    (h : NodeState.takeApp thr q = some (.epUpdateLog t' key delta, rest)) :
    (t' = t ∧ ∃ l₁ l₂, (q.filterMap fun e => e.2.logOf t) = l₁ ++ (key, delta) :: l₂ ∧
      (rest.filterMap fun e => e.2.logOf t) = l₁ ++ l₂) ∨
    (t' ≠ t ∧ (rest.filterMap fun e => e.2.logOf t) = q.filterMap fun e => e.2.logOf t) := by
  obtain ⟨l₁, l₂, rfl, rfl, -⟩ := takeApp_some h
  by_cases ht : t' = t
  · refine Or.inl ⟨ht, l₁.filterMap (fun e => e.2.logOf t), l₂.filterMap fun e => e.2.logOf t, ?_, ?_⟩
    · simp [PropagatorMsg.logOf, ht]
    · simp
  · exact Or.inr ⟨ht, by simp [PropagatorMsg.logOf, ht]⟩

theorem filter_recorded (id : NodeId) (t' : TableId) (rs : List (NodeId × UpdateRange)) :
    (rs.map fun r => (.recorded id t' r.1 r.2 : Event V)).filter (Event.isOf t)
      = if t' = t then rs.map fun r => .recorded id t' r.1 r.2 else [] := by
  induction rs with
  | nil => simp
  | cons r rs ih =>
    rw [List.map_cons, List.filter_cons, ih]
    by_cases ht : t' = t <;> simp [Event.isOf, ht]

variable [Zero V] {c : NodeConfig V} {ns ns' : NodeState V} {out : NodeOut V} {i : NodeInput V}

theorem TabEff.of_eq {v v₁ v' v₁' : TabView V} {ib ib₁ : Option (UpdateBuffer V)}
    {p p₁ : List (UpdateBuffer V)} {ev ev₁ : List (Event V)} (h : TabEff c t v₁ ib₁ v₁' p₁ ev₁)
    (hv : v = v₁) (hi : ib = ib₁) (hv' : v' = v₁') (hp : p = p₁) (he : ev = ev₁) :
    TabEff c t v ib v' p ev := by
  subst hv hi hv' hp he
  exact h

/-- timer の分岐の中の一歩。 -/
theorem Control.tabEff_flush (hc : Control c ns) {o : FlushOrder V}
    (h : NodeStep c ns (.self (.flushTable o)) ns' out) :
    TabEff c t (ns.tabView t) none (ns'.tabView t) (out.push.filterMap (PropRecvMsg.ofTable t))
      (out.events.filter (Event.isOf t)) := by
  cases h with
  | flushSkip hpc =>
    refine TabEff.skip.of_eq rfl rfl ?_ rfl rfl
    simp [NodeState.tabView, hpc, PropagatorPc.ofTable]
  | @flushRegister _ t' todo buff peers myBuff hpc hv hst hb hloop hmy hmb =>
    have hrun := hc.prop.run_of_store hst
    have hn : 0 < c.nanosec :=
      hc.active (by rw [hpc]; rintro ⟨⟩) (by rw [hpc]; rintro ⟨⟩)
    obtain ⟨-, -, hpq, -⟩ := hc.pair.run_idle hrun (by rw [hpc]; rintro _ _ _ ⟨⟩)
    obtain ⟨tc, htc, hl⟩ := hloop
    by_cases ht : t' = t
    · subst ht
      have heff := TabEff.ask (v := ns.tabView t') (by simpa [NodeState.tabView] using hrun)
        (by simp [NodeState.tabView, hpc, PropagatorPc.ofTable]) (by simp [NodeState.tabView, hpq])
        hn hv hst hb htc hl hmy hmb
      refine heff.of_eq rfl rfl ?_ rfl ?_
      · simp [NodeState.tabView, hpq, ReceiverMsg.ofTable, PropagatorPc.ofTable]
      · simp [Event.isOf]
    · refine TabEff.skip.of_eq rfl rfl ?_ rfl ?_
      · simp [NodeState.tabView, hpc, PropagatorPc.ofTable, ReceiverMsg.ofTable, ht,
          Function.update_of_ne (Ne.symm ht)]
      · simp [Event.isOf, ht]
  | @flushSend _ t' todo buff peers hpc hv hst hb hloop hd =>
    have hrun := hc.prop.run_of_store hst
    have hn : 0 < c.nanosec :=
      hc.active (by rw [hpc]; rintro ⟨⟩) (by rw [hpc]; rintro ⟨⟩)
    by_cases ht : t' = t
    · subst ht
      have heff := TabEff.send (v := ns.tabView t') (by simpa [NodeState.tabView] using hrun)
        (by simp [NodeState.tabView, hpc, PropagatorPc.ofTable]) hn hv hst hb hloop
      refine heff.of_eq rfl rfl ?_ ?_ ?_
      · simp [NodeState.tabView, PropagatorPc.ofTable, hpc]
      · simp [PropRecvMsg.ofTable]
      · simp [Event.isOf]
    · refine TabEff.skip.of_eq rfl rfl ?_ ?_ ?_
      · simp [NodeState.tabView, hpc, PropagatorPc.ofTable, Function.update_of_ne (Ne.symm ht)]
      · simp [PropRecvMsg.ofTable, ht]
      · simp [Event.isOf, ht]

omit [Zero V] in
/-- RUN を出た後の終了の判定は、table には関わらない。 -/
theorem tabView_exitTest (ns : NodeState V) {p : Propagator V} (hpc : p.pc = .poll) (hs : p.state ≠ .run) :
    NodeState.tabView t { ns with prop := p.exitTest }
      = NodeState.tabView t { ns with prop := p } := by
  rcases p.exitTest_cases with ⟨-, he⟩ | ⟨-, he⟩
  · rw [he]
    simp [NodeState.tabView, hpc, hs, PropagatorPc.ofTable]
  · rw [he]

/-- `Inc` は、その table の storage と queue だけを変える。 -/
theorem tabEff_inc {thr : Nat} {t' : TableId} {key : Key} {delta : V}
    (h : NodeStep c ns (.self (.inc thr t' key delta)) ns' out) :
    TabEff c t (ns.tabView t) none (ns'.tabView t) (out.push.filterMap (PropRecvMsg.ofTable t))
      (out.events.filter (Event.isOf t)) := by
  cases h with
  | @inc _ _ _ _ tc htc =>
    by_cases ht : t' = t
    · subst ht
      have heff : TabEff c t' (ns.tabView t') none _ [] [.inc c.myId t' key delta] := .inc htc
      refine heff.of_eq rfl rfl ?_ rfl ?_
      · by_cases hr : ns.prop.state = .run <;>
          simp [NodeState.tabView, NodeState.inc, hr, PropagatorMsg.logOf]
      · simp [Event.isOf]
    · refine TabEff.skip.of_eq rfl rfl ?_ rfl ?_
      · by_cases hr : ns.prop.state = .run <;>
          simp [NodeState.tabView, NodeState.inc, hr, PropagatorMsg.logOf, ht,
            Function.update_of_ne (Ne.symm ht)]
      · simp [Event.isOf, ht]

/-- 登録の返事を受けて buffer を送る一歩。待っていた table の buffer だけが出る。 -/
theorem Control.tabEff_reply (hc : Control c ns) (h : NodeStep c ns (.self .myUpdatesReply) ns' out) :
    TabEff c t (ns.tabView t) none (ns'.tabView t) (out.push.filterMap (PropRecvMsg.ofTable t))
      (out.events.filter (Event.isOf t)) := by
  cases h with
  | @myUpdatesReply t' buff todo rest hpc hq hd =>
    have hrun := hc.pair.run_of_wait hpc
    obtain ⟨-, -, hpair, -⟩ := hc.pair.pop_ack hpc hq
    by_cases ht : t' = t
    · subst ht
      have hpend : (ns.tabView t').pend = some buff := by
        simp [NodeState.tabView, hpc, PropagatorPc.ofTable]
      have heff := TabEff.reply (c := c) (t := t') (v := ns.tabView t')
        (by simpa [NodeState.tabView] using hrun) hpend (by simp [NodeState.tabView, hpair])
      refine heff.of_eq rfl rfl ?_ ?_ ?_
      · simp [NodeState.tabView, PropagatorPc.ofTable]
      · simp [PropRecvMsg.ofTable]
      · simp [Event.isOf]
    · refine TabEff.skip.of_eq rfl rfl ?_ ?_ ?_
      · simp [NodeState.tabView, hpc, PropagatorPc.ofTable, ht, Function.update_of_ne (Ne.symm ht)]
      · simp [PropRecvMsg.ofTable, ht]
      · simp [Event.isOf, ht]

/-- receiver が終了の合図を読む一歩。 -/
theorem Control.tabEff_recvTerm (hc : Control c ns) (h : NodeStep c ns (.self .recvTerm) ns' out) :
    TabEff c t (ns.tabView t) none (ns'.tabView t) (out.push.filterMap (PropRecvMsg.ofTable t))
      (out.events.filter (Event.isOf t)) := by
  cases h with
  | recvTerm hs hq =>
    have hrun := hc.term.run_of_queued hq
    have heff := TabEff.recvStop (c := c) (t := t) (v := ns.tabView t)
      (by simpa [NodeState.tabView] using hrun)
    refine heff.of_eq rfl rfl ?_ rfl rfl
    cases hr : ns.recv.haveReceivedPropPairTerm <;>
      simp [NodeState.tabView, Receiver.onInternalTerminate, PropagatorMsg.ofTable]

/-- propagator が application の message を読む一歩。log は一つ減り、終了の合図は列を変えない。 -/
theorem Control.tabEff_pullApp (hc : Control c ns) {thr : Nat}
    (h : NodeStep c ns (.self (.pullApp thr)) ns' out) :
    TabEff c t (ns.tabView t) none (ns'.tabView t) (out.push.filterMap (PropRecvMsg.ofTable t))
      (out.events.filter (Event.isOf t)) := by
  cases h with
  | @pullLog thr t' key delta rest hpc htake hs htc =>
    rcases logs_take_log (t := t) htake with ⟨ht, l₁, l₂, h1, h2⟩ | ⟨ht, h1⟩
    · subst ht
      have heff := TabEff.log (c := c) (t := t') (v := ns.tabView t')
        (by simpa [NodeState.tabView] using hs)
        (by simp [NodeState.tabView, hpc, PropagatorPc.ofTable]) htc h1
      refine heff.of_eq rfl rfl ?_ rfl ?_
      · simp [NodeState.tabView, h2]
      · simp [Event.isOf]
    · refine TabEff.skip.of_eq rfl rfl ?_ rfl ?_
      · simp [NodeState.tabView, h1, Function.update_of_ne (Ne.symm ht)]
      · simp [Event.isOf, ht]
  -- RUN を出た後の log は読み捨てる
  | @dropLog thr t' key delta rest hpc htake hs =>
    rcases logs_take_log (t := t) htake with ⟨ht, l₁, l₂, h1, h2⟩ | ⟨ht, h1⟩
    · have heff := TabEff.dropLog (c := c) (t := t) (v := ns.tabView t)
        (by simpa [NodeState.tabView] using hs) h1
      refine heff.of_eq rfl rfl ?_ rfl rfl
      simp [NodeState.tabView, h2]
    · refine TabEff.skip.of_eq rfl rfl ?_ rfl rfl
      simp [NodeState.tabView, h1]
  | pullTerm hpc htake | pullTermReply hpc htake =>
    obtain ⟨-, hrun, -⟩ := hc.take_term htake
    have heff := TabEff.stop (c := c) (t := t) (v := ns.tabView t)
      (by simpa [NodeState.tabView] using hrun)
      (by simp [NodeState.tabView, hpc, PropagatorPc.ofTable])
    refine heff.of_eq rfl rfl ?_ rfl rfl
    simp [NodeState.tabView, logs_take_term htake, ReceiverMsg.ofTable, Propagator.clearStores]

/-- propagator が paired receiver の message を読む一歩。 -/
theorem Control.tabEff_pullRecv (hc : Control c ns) (h : NodeStep c ns (.self .pullRecv) ns' out) :
    TabEff c t (ns.tabView t) none (ns'.tabView t) (out.push.filterMap (PropRecvMsg.ofTable t))
      (out.events.filter (Event.isOf t)) := by
  cases h with
  | @record t' buff rest tc peers hpc hq htc hs hr =>
    by_cases ht : t' = t
    · subst ht
      have hfwd : (ns.tabView t').fwd = buff :: rest.filterMap (PropagatorMsg.ofTable t') := by
        simp [NodeState.tabView, hq, PropagatorMsg.ofTable]
      have heff := TabEff.record (v := ns.tabView t') (by simpa [NodeState.tabView] using hs)
        (by simp [NodeState.tabView, hpc, PropagatorPc.ofTable]) hfwd htc hr
      refine heff.of_eq rfl rfl ?_ rfl ?_
      · simp [NodeState.tabView]
      · rw [filter_recorded, if_pos rfl]
    · refine TabEff.skip.of_eq rfl rfl ?_ rfl ?_
      · simp [NodeState.tabView, hq, PropagatorMsg.ofTable, ht, Function.update_of_ne (Ne.symm ht)]
      · rw [filter_recorded, if_neg ht]
  | @dropBuffer t' buff rest hpc hq hs =>
    by_cases ht : t' = t
    · have hfwd : (ns.tabView t).fwd = buff :: rest.filterMap (PropagatorMsg.ofTable t) := by
        simp [NodeState.tabView, hq, PropagatorMsg.ofTable, ht]
      have heff := TabEff.dropBuffer (c := c) (t := t) (v := ns.tabView t)
        (by simpa [NodeState.tabView] using hs) hfwd
      refine heff.of_eq rfl rfl ?_ rfl rfl
      simp [NodeState.tabView]
    · refine TabEff.skip.of_eq rfl rfl ?_ rfl rfl
      simp [NodeState.tabView, hq, PropagatorMsg.ofTable, ht]
  | @pullRecvAck rest hpc hq =>
    have hs := (hc.ack_state hq).2.2.2
    have he : NodeState.tabView t
        { ns with updQ := rest, prop := ns.prop.onRecvInternalTerminateACK } = _ :=
      tabView_exitTest { ns with updQ := rest }
        (p := { ns.prop with haveStoppedRecvThr := true }) hpc hs
    refine TabEff.skip.of_eq rfl rfl (he.trans ?_) rfl rfl
    simp [NodeState.tabView, hq, List.filterMap_cons, PropagatorMsg.ofTable]

/-- receiver が paired propagator の message を読む一歩。 -/
theorem Control.tabEff_recvPair (hc : Control c ns) (h : NodeStep c ns (.self .recvPair) ns' out) :
    TabEff c t (ns.tabView t) none (ns'.tabView t) (out.push.filterMap (PropRecvMsg.ofTable t))
      (out.events.filter (Event.isOf t)) := by
  cases h with
  | @register t' b rest hs hq =>
    obtain ⟨-, ⟨b', todo, hpc⟩, -, -, rfl, -⟩ := hc.pair.pop_updates hq
    by_cases ht : t' = t
    · subst ht
      have heff := TabEff.register (c := c) (t := t') (v := ns.tabView t') (b := b)
        (by simp [NodeState.tabView, hpc, PropagatorPc.ofTable])
        (by simp [NodeState.tabView, hq, ReceiverMsg.ofTable])
      refine heff.of_eq rfl rfl ?_ rfl ?_
      · by_cases hr : ns.recv.state = .run <;>
          simp [NodeState.tabView, Receiver.onMyUpdates, hr]
      · simp [Event.isOf, NodeState.tabView]
    · refine TabEff.skip.of_eq rfl rfl ?_ rfl ?_
      · by_cases hr : ns.recv.state = .run <;>
          simp [NodeState.tabView, Receiver.onMyUpdates, hr, hq, ReceiverMsg.ofTable, ht,
            Function.update_of_ne (Ne.symm ht)]
      · simp [Event.isOf, ht]
  | pairTermRun hs hq =>
    refine TabEff.skip.of_eq rfl rfl ?_ rfl rfl
    simp [NodeState.tabView, hq, List.filterMap_cons, ReceiverMsg.ofTable]
  | pairTermStop hs hq =>
    refine TabEff.skip.of_eq rfl rfl ?_ rfl rfl
    have hne : ns.recv.state ≠ .run := by rw [hs]; rintro ⟨⟩
    have hne' : (Receiver.exitTest { ns.recv with haveRepliedPropPairTerm := true }).state ≠ .run :=
      Receiver.exitTest_state_ne_run hne
    have hmy : (Receiver.exitTest { ns.recv with haveRepliedPropPairTerm := true }).myUpdates
        = ns.recv.myUpdates := by rw [Receiver.exitTest_eq]
    simp [NodeState.tabView, hq, List.filterMap_cons, ReceiverMsg.ofTable, PropagatorMsg.ofTable, hne,
      hne', hmy]

/-- receiver が上流から届いた message を処理する一歩。 -/
theorem Control.tabEff_tcp (hc : Control c ns) {msg : PropRecvMsg V}
    (h : NodeStep c ns (.tcp msg) ns' out) :
    TabEff c t (ns.tabView t) (msg.ofTable t) (ns'.tabView t)
      (out.push.filterMap (PropRecvMsg.ofTable t)) (out.events.filter (Event.isOf t)) := by
  cases h with
  | @tcpDiscard t' buff _ hs =>
    by_cases ht : t' = t
    · have heff := TabEff.discard (c := c) (t := t) (v := ns.tabView t) (b := buff)
        (by simpa [NodeState.tabView] using hs)
      exact heff.of_eq rfl (by simp [PropRecvMsg.ofTable, ht]) rfl rfl rfl
    · exact TabEff.skip.of_eq rfl (by simp [PropRecvMsg.ofTable, ht]) rfl rfl rfl
  | @tcpNoPeer t' buff hs hno =>
    by_cases ht : t' = t
    · subst ht
      have heff := TabEff.noPeer (c := c) (t := t') (v := ns.tabView t') (b := buff)
        (by simpa [NodeState.tabView] using hs) hno
      exact heff.of_eq rfl (by simp [PropRecvMsg.ofTable]) rfl rfl
        (by simp [Event.isOf])
    · exact TabEff.skip.of_eq rfl (by simp [PropRecvMsg.ofTable, ht]) rfl rfl
        (by simp [Event.isOf, ht])
  | @tcpProcess t' buff tc mu buff' hs hno htc hd hcbk =>
    by_cases ht : t' = t
    · subst ht
      have heff := TabEff.process (c := c) (t := t') (v := ns.tabView t') (b := buff)
        (by simpa [NodeState.tabView] using hs) hno htc rfl hd
      refine heff.of_eq rfl (by simp [PropRecvMsg.ofTable]) ?_ rfl
        (by simp [Event.isOf])
      -- table の設定で、storage に足すかどうかと propagator に渡すかどうかが決まる
      cases ha : tc.applyUpdates <;> cases hf : tc.forwardUpdates <;>
        simp [NodeState.tabView, PropagatorMsg.ofTable]
    · refine TabEff.skip.of_eq rfl (by simp [PropRecvMsg.ofTable, ht]) ?_ rfl
        (by simp [Event.isOf, ht])
      have hmu : mu t = ns.recv.myUpdates t := Receiver.dedup_other hd (Ne.symm ht)
      cases ha : tc.applyUpdates <;> cases hf : tc.forwardUpdates <;>
        simp [NodeState.tabView, PropagatorMsg.ofTable, hmu, ht, Function.update_of_ne (Ne.symm ht)]
  | @tcpAck id hs =>
    refine TabEff.skip.of_eq rfl rfl ?_ rfl rfl
    have hst := hc.recv.onTerminateACK_state id
    have hmy : (ns.recv.onTerminateACK id).myUpdates = ns.recv.myUpdates := by
      rw [Receiver.onTerminateACK, Receiver.exitTest_eq]
    simp [NodeState.tabView, hst, hmy]


/-- propagator が下流の終了を知る一歩は、どの table にも関わらない。 -/
theorem tabEff_pub {msg : PropRecvMsg V} (h : NodeStep c ns (.pub msg) ns' out) :
    TabEff c t (ns.tabView t) none (ns'.tabView t) (out.push.filterMap (PropRecvMsg.ofTable t))
      (out.events.filter (Event.isOf t)) := by
  cases h with
  | subTerm => exact TabEff.skip
  | subTermReply hpc hs =>
    have hs' : ns.prop.state ≠ .run := by rw [hs]; rintro ⟨⟩
    exact TabEff.skip.of_eq rfl rfl (tabView_exitTest ns hpc hs') rfl rfl

/-- **node の一歩は、table `t` から見れば `TabEff` のどれかである。** -/
theorem Control.tabEff (hc : Control c ns) (h : NodeStep c ns i ns' out) :
    TabEff c t (ns.tabView t) (i.ofTable t) (ns'.tabView t)
      (out.push.filterMap (PropRecvMsg.ofTable t)) (out.events.filter (Event.isOf t)) := by
  cases i with
  | tcp msg => exact hc.tabEff_tcp h
  | pub msg => exact tabEff_pub h
  | self l =>
    cases l with
    | inc => exact tabEff_inc h
    | flushTable => exact hc.tabEff_flush h
    | myUpdatesReply => exact hc.tabEff_reply h
    | pullApp => exact hc.tabEff_pullApp h
    | pullRecv => exact hc.tabEff_pullRecv h
    | recvPair => exact hc.tabEff_recvPair h
    | recvTerm => exact hc.tabEff_recvTerm h
    -- 残りは timer と application の合図で、table には関わらない
    | signalTermProp =>
      cases h
      refine TabEff.skip.of_eq rfl rfl ?_ rfl rfl
      simp [NodeState.tabView, PropagatorMsg.logOf]
    | signalTermRecv | waitTermProp | waitTermRecv | timerFire | timerCmd =>
      cases h
      exact TabEff.skip
    | timerTrigger =>
      cases h with
      | timerTrigger hpc =>
        refine TabEff.skip.of_eq rfl rfl ?_ rfl rfl
        simp [NodeState.tabView, hpc, PropagatorPc.ofTable]
    | flushEnd =>
      cases h with
      | flushEnd hpc =>
        refine TabEff.skip.of_eq rfl rfl ?_ rfl rfl
        simp only [NodeState.tabView, Propagator.flushEnd, hpc]
        split <;> rfl
    | timerStopped =>
      cases h with
      | timerStopped hpc =>
        have hs : ns.prop.state ≠ .run := by rw [hc.prop.waitStop hpc]; rintro ⟨⟩
        have he : NodeState.tabView t { ns with prop := ns.prop.onTimerStopped } = _ :=
          tabView_exitTest ns (p := { ns.prop with haveStoppedTimerThr := true, pc := .poll }) rfl hs
        refine TabEff.skip.of_eq rfl rfl (he.trans ?_) rfl rfl
        simp [NodeState.tabView, hpc, PropagatorPc.ofTable]

end tabEff

/-! ## system の一歩 -/

/-- table `t` に関わるものだけを残した system の状態。 -/
structure TabSys (Node V : Type) where
  view : Node → TabView V
  chan : Node → List (UpdateBuffer V)
  trace : List (Event V)

section system

variable {Node : Type}

def SysState.tab (t : TableId) (s : SysState Node V) : TabSys Node V where
  view := fun j => (s.node j).tabView t
  chan := fun u => (s.tcp u).filterMap (PropRecvMsg.ofTable t)
  trace := s.trace.filter (Event.isOf t)

variable [DecidableEq Node]

/--
二種類の一歩。node が自分で動くか、上流から届いた buffer を受け取る。

`Q d b` は、RUN の receiver `d` が buffer `b` を受け取る時に仮定する条件である。
-/
inductive TabStep [Zero V] (C : SysConfig Node V) (t : TableId)
    (Q : Node → UpdateBuffer V → Prop) (S : TabSys Node V) : TabSys Node V → Prop
  | self {j v' push ev} : TabEff (C.nodeConfig j) t (S.view j) none v' push ev →
      TabStep C t Q S
        { view := Function.update S.view j v'
          chan := Function.update S.chan j (S.chan j ++ push)
          trace := S.trace ++ ev }
  | recv {u d b rest v' ev} : C.down u = some d → S.chan u = b :: rest →
      ((S.view d).rRun = true → Q d b) →
      TabEff (C.nodeConfig d) t (S.view d) (some b) v' [] ev →
      TabStep C t Q S
        { view := Function.update S.view d v'
          chan := Function.update S.chan u rest
          trace := S.trace ++ ev }

/-- handshake の直後の状態。 -/
def TabSys.start [Zero V] : TabSys Node V where
  view := fun _ =>
    { pRun := true, rRun := true,
      pt := { updateStore := ∅, tablePeersUpdateRange := ∅,
              myUpdateRange := { st := 0, end_ := -1 }, myUpdateStore := ∅ },
      pend := none, reg := [], my := none, fwd := [], logs := [], storage := fun _ => 0 }
  chan := fun _ => []
  trace := []

/-- 着ける状態。 -/
def TabReach [Zero V] (C : SysConfig Node V) (t : TableId) (Q : Node → UpdateBuffer V → Prop) :
    TabSys Node V → Prop :=
  Relation.ReflTransGen (TabStep C t Q) TabSys.start

section reach

variable [Zero V] {C : SysConfig Node V} {t : TableId} {Q : Node → UpdateBuffer V → Prop}
  {S : TabSys Node V}

theorem TabReach.invariant {I : TabSys Node V → Prop} (h0 : I TabSys.start)
    (hstep : ∀ S S', TabReach C t Q S → TabStep C t Q S S' → I S → I S')
    (h : TabReach C t Q S) : I S := by
  induction h with
  | refl => exact h0
  | tail hr hs ih => exact hstep _ _ hr hs ih

theorem TabReach.mono {Q' : Node → UpdateBuffer V → Prop} (hQ : ∀ d b, Q d b → Q' d b)
    (h : TabReach C t Q S) : TabReach C t Q' S := by
  induction h with
  | refl => exact .refl
  | tail _ hs ih =>
    refine ih.tail ?_
    cases hs with
    | self he => exact .self he
    | recv hd hc hq he => exact .recv hd hc (fun hr => hQ _ _ (hq hr)) he

/-- node `j` が受け取る buffer は、上流の channel にあり、RUN なら条件 `Q` を満たす。 -/
def TabSys.Delivers (C : SysConfig Node V) (Q : Node → UpdateBuffer V → Prop) (S : TabSys Node V)
    (j : Node) (ib : Option (UpdateBuffer V)) : Prop :=
  ∀ b, ib = some b → (∃ u, C.down u = some j ∧ b ∈ S.chan u) ∧ ((S.view j).rRun = true → Q j b)

/--
node ごとの性質 `I` と channel の buffer の性質 `J` が、一歩の後も成り立つこと。

動いた node とそれが送った buffer は `hstep` で、他の node は `hframe` で示す。
-/
theorem TabStep.forall_node {S' : TabSys Node V} (h : TabStep C t Q S S')
    {I : List (Event V) → Node → TabView V → Prop}
    {J : List (Event V) → Node → UpdateBuffer V → Prop}
    (hI : ∀ j, I S.trace j (S.view j)) (hJ : ∀ u, ∀ b ∈ S.chan u, J S.trace u b)
    (hstep : ∀ j ib v' push ev, S.Delivers C Q j ib →
      TabEff (C.nodeConfig j) t (S.view j) ib v' push ev →
      I (S.trace ++ ev) j v' ∧ ∀ b ∈ push, J (S.trace ++ ev) j b)
    (hframe : ∀ j k ib v' push ev, k ≠ j → TabEff (C.nodeConfig j) t (S.view j) ib v' push ev →
      I S.trace k (S.view k) → I (S.trace ++ ev) k (S.view k))
    (hmono : ∀ u b ev, J S.trace u b → J (S.trace ++ ev) u b) :
    (∀ j, I S'.trace j (S'.view j)) ∧ ∀ u, ∀ b ∈ S'.chan u, J S'.trace u b := by
  cases h with
  | @self j v' push ev he =>
    obtain ⟨hn, hp⟩ := hstep j none v' push ev (by rintro _ ⟨⟩) he
    refine ⟨fun k => ?_, fun u b hb => ?_⟩
    · by_cases hk : k = j
      · subst hk
        simpa using hn
      · simpa [Function.update_of_ne hk] using hframe j k _ _ _ _ hk he (hI k)
    · by_cases hu : u = j
      · subst hu
        simp only [Function.update_self, List.mem_append] at hb
        exact hb.elim (fun hb => hmono u b ev (hJ u b hb)) (hp b)
      · simp only [Function.update_of_ne hu] at hb
        exact hmono u b ev (hJ u b hb)
  | @recv u d b rest v' ev hd hc hq he =>
    have hib : S.Delivers C Q d (some b) := by
      rintro _ ⟨⟩
      exact ⟨⟨u, hd, by rw [hc]; exact List.mem_cons_self⟩, hq⟩
    obtain ⟨hn, -⟩ := hstep d (some b) v' [] ev hib he
    refine ⟨fun k => ?_, fun w q hq => ?_⟩
    · by_cases hk : k = d
      · subst hk
        simpa using hn
      · simpa [Function.update_of_ne hk] using hframe d k _ _ _ _ hk he (hI k)
    · by_cases hw : w = u
      · subst hw
        simp only [Function.update_self] at hq
        exact hmono w q ev (hJ w q (by rw [hc]; exact List.mem_cons_of_mem _ hq))
      · simp only [Function.update_of_ne hw] at hq
        exact hmono w q ev (hJ w q hq)

/-- 一つの node `j` だけについての性質。他の node の出来事で変わらなければよい。 -/
theorem TabStep.at_node {S' : TabSys Node V} (h : TabStep C t Q S S') {j : Node}
    {I : List (Event V) → TabView V → Prop} (hI : I S.trace (S.view j))
    (hstep : ∀ ib v' push ev, S.Delivers C Q j ib →
      TabEff (C.nodeConfig j) t (S.view j) ib v' push ev → I (S.trace ++ ev) v')
    (hframe : ∀ ev, (∀ e ∈ ev, e.nodeId ≠ C.id j) → I (S.trace ++ ev) (S.view j)) :
    I S'.trace (S'.view j) := by
  have hall := h.forall_node (I := fun tr k v => k = j → I tr v) (J := fun _ _ _ => True)
    (fun k hk => hk ▸ hI) (fun _ _ _ => trivial)
    (fun k ib v' push ev hib he => ⟨fun hk => by subst hk; exact hstep ib v' push ev hib he,
      fun _ _ => trivial⟩)
    (fun k i _ _ _ ev hne he _ hi => by
      subst hi
      exact hframe ev (he.nodeId_ne hne))
    (fun _ _ _ _ => trivial)
  exact hall.1 j rfl

end reach

/-! ## system の run は table の run である -/

variable [Zero V] {C : SysConfig Node V} {s s' : SysState Node V} {l : SysLabel Node V}
  {t : TableId}

omit [Zero V] in
theorem tabView_update {f : Node → NodeState V} {j : Node} {ns' : NodeState V} :
    (fun k => (Function.update f j ns' k).tabView t)
      = Function.update (fun k => (f k).tabView t) j (ns'.tabView t) := by
  funext k
  by_cases hk : k = j
  · subst hk; simp
  · simp [Function.update_of_ne hk]

omit [Zero V] in
theorem chan_update {f : Node → List (PropRecvMsg V)} {u : Node} {q : List (PropRecvMsg V)} :
    (fun k => (Function.update f u q k).filterMap (PropRecvMsg.ofTable t))
      = Function.update (fun k => (f k).filterMap (PropRecvMsg.ofTable t)) u
          (q.filterMap (PropRecvMsg.ofTable t)) := by
  funext k
  by_cases hk : k = u
  · subst hk; simp
  · simp [Function.update_of_ne hk]

omit [Zero V] in
/-- 書き戻した状態を `t` から見る。 -/
theorem tab_put {j : Node} {ns' : NodeState V} {out : NodeOut V} :
    (s.put C j (ns', out)).tab t =
      { view := Function.update (s.tab t).view j (ns'.tabView t)
        chan := Function.update (s.tab t).chan j
          ((s.tab t).chan j ++ out.push.filterMap (PropRecvMsg.ofTable t))
        trace := (s.tab t).trace ++ out.events.filter (Event.isOf t) } := by
  simp only [SysState.tab, SysState.put, tabView_update, chan_update, List.filterMap_append,
    List.filter_append]

theorem TabStep.self_nil {Q : Node → UpdateBuffer V → Prop} {S : TabSys Node V} {j : Node}
    {v' : TabView V} {ev : List (Event V)}
    (h : TabEff (C.nodeConfig j) t (S.view j) none v' [] ev) :
    TabStep C t Q S
      { view := Function.update S.view j v', chan := S.chan, trace := S.trace ++ ev } := by
  have hs := TabStep.self (Q := Q) h
  rwa [List.append_nil, Function.update_eq_self] at hs

/-- **system の一歩は、table `t` から見ても一歩である。** -/
theorem SysStep.tabStep {Q : Node → UpdateBuffer V → Prop}
    (hc : ∀ j, Control (C.nodeConfig j) (s.node j))
    (hQ : ∀ u d b rest, l = .tcp u → C.down u = some d →
      s.tcp u = .eprUpdateBuffer t b :: rest → (s.node d).recv.state = .run → Q d b)
    (h : SysStep C s l s') : TabStep C t Q (s.tab t) (s'.tab t) := by
  cases h with
  | @node j l ns' out hn =>
    rw [tab_put]
    exact .self ((hc j).tabEff hn)
  | @termSub j msg rest ns' out hq hn =>
    rw [tab_put]
    exact .self ((hc j).tabEff hn)
  | @tcp u d msg rest ns' out hd hq hn =>
    have hpush : out.push = [] := by
      cases (hc d).linkEff hn with
      | quiet _ _ _ _ h => exact h
      | ack _ _ _ h => exact h
    have heff := (hc d).tabEff (t := t) hn
    rw [tab_put, hpush]
    rw [hpush] at heff
    simp only [List.filterMap_nil, List.append_nil, Function.update_eq_self] at heff ⊢
    have hview : (SysState.tab t { s with tcp := Function.update s.tcp u rest }).view
        = (s.tab t).view := rfl
    have htrace : (SysState.tab t { s with tcp := Function.update s.tcp u rest }).trace
        = (s.tab t).trace := rfl
    have hchan : (SysState.tab t { s with tcp := Function.update s.tcp u rest }).chan
        = Function.update (s.tab t).chan u (rest.filterMap (PropRecvMsg.ofTable t)) := chan_update
    rw [hview, htrace, hchan]
    cases hm : msg.ofTable t with
    | none =>
      have hsame : Function.update (s.tab t).chan u (rest.filterMap (PropRecvMsg.ofTable t))
          = (s.tab t).chan := by
        have : rest.filterMap (PropRecvMsg.ofTable t) = (s.tab t).chan u := by
          simp [SysState.tab, hq, hm]
        rw [this, Function.update_eq_self]
      rw [hsame]
      rw [NodeInput.ofTable, hm] at heff
      exact .self_nil heff
    | some b =>
      have hmsg : msg = .eprUpdateBuffer t b := by
        cases msg with
        | eprUpdateBuffer t' b' =>
          simp only [PropRecvMsg.ofTable] at hm
          split at hm
          · next ht => rw [ht, Option.some.inj hm]
          · cases hm
        | eprTerminate => cases hm
        | eprTerminateACK id => cases hm
      rw [NodeInput.ofTable, hm] at heff
      refine .recv hd ?_ ?_ heff
      · simp [SysState.tab, hq, hm]
      · intro hr
        exact hQ u d b rest rfl hd (hmsg ▸ hq) (by simpa [SysState.tab, NodeState.tabView] using hr)

variable [DecidableEq V]

/-- system の着ける状態は、table `t` から見ても着ける。 -/
theorem SysReachableUnder.tabReach {P : SysState Node V → SysLabel Node V → Prop}
    {Q : Node → UpdateBuffer V → Prop}
    (hQ : ∀ s u d b rest, P s (.tcp u) → C.down u = some d →
      s.tcp u = .eprUpdateBuffer t b :: rest → (s.node d).recv.state = .run → Q d b)
    (h : SysReachableUnder C P s) : TabReach C t Q (s.tab t) := by
  refine h.sys_invariant (I := fun s => TabReach C t Q (s.tab t)) .refl ?_
  intro s l s' hr hp hs hi
  refine hi.tail (hs.tabStep (fun j => SysReachable.control hr.reachable j) ?_)
  rintro u d b rest rfl hd hq hrun
  exact hQ s u d b rest hp hd hq hrun

omit [Zero V] [DecidableEq V] in
/-- 一歩が RUN の receiver に table `t` の buffer を渡すなら、その buffer は `q` を満たす。 -/
def delivers (C : SysConfig Node V) (t : TableId) (q : NodeId → UpdateBuffer V → Bool)
    (s : SysState Node V) : SysLabel Node V → Bool
  | .tcp u =>
    match C.down u, s.tcp u with
    | some d, .eprUpdateBuffer t' b :: _ =>
      if t' = t ∧ (s.node d).recv.state = .run then q (C.id d) b else true
    | _, _ => true
  | _ => true

theorem SysReachableUnder.tabReach_delivers {q : NodeId → UpdateBuffer V → Bool}
    (h : SysReachableUnder C (fun s l => delivers C t q s l = true) s) :
    TabReach C t (fun d b => q (C.id d) b = true) (s.tab t) := by
  refine SysReachableUnder.tabReach ?_ h
  intro s u d b rest hp hd hq hrun
  simpa [delivers, hd, hq, hrun] using hp

theorem SysReachable.tabReach (h : SysReachable C s) (t : TableId) :
    TabReach C t (fun _ _ => True) (s.tab t) :=
  SysReachableUnder.tabReach (fun _ _ _ _ _ _ _ _ _ => trivial) h

end system

end QuiltDB
