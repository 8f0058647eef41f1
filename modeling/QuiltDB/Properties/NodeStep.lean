import QuiltDB.Comm.Node
import QuiltDB.Properties.Handlers

/-!
# node の一歩の場合分け

`nodeStep` が進んだ時に node の状態がどう変わり、外へ何が出るかを、関係 `NodeStep` として
一度だけ書き下す。queue に入る message の種類は送り手で決まるので（`Kinds`）、
読んだ message の種類ごとに一つの場合になる。

不変量の証明はすべてこの関係の場合分けで行う。
-/

namespace QuiltDB

variable {V : Type}

/-! ## queue に入る message の種類 -/

/-- application が送る message。 -/
def PropagatorMsg.fromApp : PropagatorMsg V → Bool
  | .epUpdateLog .. => true
  | .epInternalTerminate => true
  | _ => false

/-- receiver が `internal_update_push_sock` に送る message。 -/
def PropagatorMsg.fromRecv : PropagatorMsg V → Bool
  | .epUpdateBuffer .. => true
  | .epRecvInternalTerminateACK => true
  | _ => false

/-- propagator が receiver に送る message。 -/
def ReceiverMsg.fromProp : ReceiverMsg V → Bool
  | .eMyUpdates .. => true
  | .eprInternalTerminate => true
  | _ => false

/-- どの queue にも、送り手が送る種類の message しか無い。 -/
structure Kinds (ns : NodeState V) : Prop where
  appQ : ∀ e ∈ ns.appQ, e.2.fromApp = true
  updQ : ∀ m ∈ ns.updQ, m.fromRecv = true
  pairQ : ∀ m ∈ ns.pairQ, m.fromProp = true
  termQ : ∀ m ∈ ns.termQ, m = .erInternalTerminate

theorem takeApp_some {thr : Nat} {q rest : List (Nat × PropagatorMsg V)} {msg : PropagatorMsg V}
    (h : NodeState.takeApp thr q = some (msg, rest)) :
    ∃ l₁ l₂, q = l₁ ++ (thr, msg) :: l₂ ∧ rest = l₁ ++ l₂ ∧ ∀ e ∈ l₁, e.1 ≠ thr := by
  unfold NodeState.takeApp at h
  rw [Option.map_eq_some_iff] at h
  obtain ⟨e, hf, he⟩ := h
  obtain ⟨hp, l₁, l₂, rfl, hl⟩ := List.find?_eq_some_iff_append.mp hf
  have hthr : e.1 = thr := by simpa using hp
  obtain ⟨rfl, rfl⟩ := Prod.mk.inj he
  have hl' : ∀ x ∈ l₁, x.1 ≠ thr := fun x hx => by simpa using hl x hx
  refine ⟨l₁, l₂, by rw [← hthr], ?_, hl'⟩
  rw [List.eraseP_append_right _ (fun x hx => by simpa using hl' x hx), List.eraseP_cons]
  simp [hthr]

theorem ofProp_eq_ok {ns ns' : NodeState V} {out : NodeOut V}
    {res : Except Fault (Propagator V × PropOut V)}
    (h : some (ns.ofProp res) = some (.ok (ns', out))) :
    ∃ p po, res = .ok (p, po) ∧
      ns' = { ns with prop := p, pairQ := ns.pairQ ++ po.pair, cmdQ := ns.cmdQ ++ po.cmd } ∧
      out = { push := po.push, events := po.events } := by
  cases res with
  | error e => cases h
  | ok res =>
    cases h
    exact ⟨res.1, res.2, rfl, rfl, rfl⟩

theorem ofRecv_eq_ok {ns ns' : NodeState V} {out : NodeOut V}
    {res : Except Fault (Receiver V × RecvOut V)}
    (h : some (ns.ofRecv res) = some (.ok (ns', out))) :
    ∃ r ro, res = .ok (r, ro) ∧
      ns' = { ns with recv := r, ackQ := ns.ackQ ++ ro.ack, updQ := ns.updQ ++ ro.upd } ∧
      out = { pub := ro.pub, events := ro.events } := by
  cases res with
  | error e => cases h
  | ok res =>
    cases h
    exact ⟨res.1, res.2, rfl, rfl, rfl⟩

variable [Zero V]

/-! ## node の一歩 -/

open NodeState Propagator in
/-- 進んだ一歩の場合分け。 -/
inductive NodeStep (c : NodeConfig V) (ns : NodeState V) :
    NodeInput V → NodeState V → NodeOut V → Prop
  -- application
  | inc {thr t key delta tc} : c.tableDir.lookup t = some tc →
      (thr = 0 → ns.app = .running) →
      NodeStep c ns (.self (.inc thr t key delta)) (ns.inc c tc.vaddFunc thr t key delta).1
        { events := [.inc c.myId t key delta] }
  | signalTermProp : ns.app = .running → ns.prop.state = .run →
      NodeStep c ns (.self .signalTermProp)
        { ns with app := .signaledProp, appQ := ns.appQ ++ [(0, .epInternalTerminate)] } {}
  | signalTermRecv : ns.app = .signaledProp → ns.recv.state = .run →
      NodeStep c ns (.self .signalTermRecv)
        { ns with app := .signaledRecv, termQ := ns.termQ ++ [.erInternalTerminate] } {}
  | waitTermProp : ns.app = .signaledRecv → ns.prop.pc = .returned →
      NodeStep c ns (.self .waitTermProp) { ns with app := .joinedProp } {}
  | waitTermRecv : ns.app = .joinedProp → ns.recv.state = .term →
      NodeStep c ns (.self .waitTermRecv) { ns with app := .finished } {}
  -- timer
  | timerFire : ns.timer = .sleeping →
      NodeStep c ns (.self .timerFire)
        { ns with timer := .waitCmd, trigQ := ns.trigQ ++ [.eTimerTrigger] } {}
  | timerCmd {nanosec rest} : ns.timer = .waitCmd → ns.cmdQ = nanosec :: rest →
      NodeStep c ns (.self .timerCmd)
        { ns with timer := if nanosec ≤ 0 then .exited else .sleeping, cmdQ := rest } {}
  -- propagator の timer の分岐
  | timerTrigger {order rest} : ns.prop.pc = .poll → ns.trigQ = .eTimerTrigger :: rest →
      0 < c.nanosec → order.Perm c.tableDir.keys →
      NodeStep c ns (.self (.timerTrigger order))
        { ns with
          trigQ := rest
          prop := { ns.prop with pc := .flush order }
          cmdQ := ns.cmdQ ++ [if ns.prop.state = .run then c.nanosec else 0] } {}
  | flushSkip {o t todo} : ns.prop.pc = .flush (t :: todo) →
      (ns.prop.tab t).updateStore.entries = [] →
      NodeStep c ns (.self (.flushTable o))
        { ns with prop := { ns.prop with pc := .flush todo } } {}
  | flushRegister {o t todo buff peers myBuff} : ns.prop.pc = .flush (t :: todo) →
      o.Valid (ns.prop.tab t) → (ns.prop.tab t).updateStore.entries ≠ [] →
      buildBuffer c (ns.prop.tab t) o = .ok (buff, peers) →
      (∃ tc, c.tableDir.lookup t = some tc ∧ tc.loop = true) →
      (ns.prop.tab t).myUpdateStore.entries ≠ [] →
      buildMyBuffer c (ns.prop.tab t) o.mine = .ok myBuff →
      NodeStep c ns (.self (.flushTable o))
        { ns with
          prop := { ns.prop with
            tab := Function.update ns.prop.tab t { ns.prop.tab t with
              updateStore := ∅, tablePeersUpdateRange := peers, myUpdateStore := ∅ }
            pairPushSock := true
            pc := .waitAck t buff todo }
          pairQ := ns.pairQ ++ [.eMyUpdates t myBuff] }
        { events := [.myUpdatesSent c.myId t myBuff] }
  | flushSend {o t todo buff peers} : ns.prop.pc = .flush (t :: todo) →
      o.Valid (ns.prop.tab t) → (ns.prop.tab t).updateStore.entries ≠ [] →
      buildBuffer c (ns.prop.tab t) o = .ok (buff, peers) →
      (∀ tc, c.tableDir.lookup t = some tc → tc.loop = true →
        (ns.prop.tab t).myUpdateStore.entries = []) →
      c.hasDownstream = true →
      NodeStep c ns (.self (.flushTable o))
        { ns with
          prop := { ns.prop with
            tab := Function.update ns.prop.tab t (closeMyRange { ns.prop.tab t with
              updateStore := ∅, tablePeersUpdateRange := peers })
            pc := .flush todo } }
        { push := [.eprUpdateBuffer t buff], events := [.sent c.myId t buff] }
  | myUpdatesReply {t buff todo rest} : ns.prop.pc = .waitAck t buff todo →
      ns.ackQ = .eMyUpdatesACK :: rest → c.hasDownstream = true →
      NodeStep c ns (.self .myUpdatesReply)
        { ns with
          ackQ := rest
          prop := { ns.prop with
            tab := Function.update ns.prop.tab t (closeMyRange (ns.prop.tab t))
            pc := .flush todo } }
        { push := [.eprUpdateBuffer t buff],
          events := [.ackReceived c.myId t, .sent c.myId t buff] }
  | flushEnd : ns.prop.pc = .flush [] →
      NodeStep c ns (.self .flushEnd) { ns with prop := ns.prop.flushEnd } {}
  | timerStopped : ns.prop.pc = .waitStop → ns.timer = .exited →
      NodeStep c ns (.self .timerStopped) { ns with prop := ns.prop.onTimerStopped } {}
  -- propagator の `update_pull_sock`
  | pullLog {thr t key delta rest} : ns.prop.pc = .poll →
      takeApp thr ns.appQ = some (.epUpdateLog t key delta, rest) → ns.prop.state = .run →
      (0 < c.nanosec → ∃ tc, c.tableDir.lookup t = some tc) →
      NodeStep c ns (.self (.pullApp thr))
        { ns with
          appQ := rest
          prop := { ns.prop with
            tab := Function.update ns.prop.tab t (addLog c t (ns.prop.tab t) key delta) } }
        { events := [.logHandled c.myId t key delta] }
  | dropLog {thr t key delta rest} : ns.prop.pc = .poll →
      takeApp thr ns.appQ = some (.epUpdateLog t key delta, rest) → ns.prop.state ≠ .run →
      NodeStep c ns (.self (.pullApp thr)) { ns with appQ := rest } {}
  | pullTerm {thr rest} : ns.prop.pc = .poll →
      takeApp thr ns.appQ = some (.epInternalTerminate, rest) →
      ns.prop.haveReceivedDsTerm = false →
      NodeStep c ns (.self (.pullApp thr))
        { ns with
          appQ := rest
          prop := { ns.prop with
            state := .termPrep, pairPushSock := true, tab := ns.prop.clearStores }
          pairQ := ns.pairQ ++ [.eprInternalTerminate] } {}
  | pullTermReply {thr rest} : ns.prop.pc = .poll →
      takeApp thr ns.appQ = some (.epInternalTerminate, rest) →
      ns.prop.haveReceivedDsTerm = true → c.hasDownstream = true →
      NodeStep c ns (.self (.pullApp thr))
        { ns with
          appQ := rest
          prop := { ns.prop with
            state := .termPrep, haveRepliedDsTerm := true, pairPushSock := true
            tab := ns.prop.clearStores }
          pairQ := ns.pairQ ++ [.eprInternalTerminate] }
        { push := [.eprTerminateACK c.myId], events := [.termAckSent c.myId] }
  | record {t buff rest tc peers} : ns.prop.pc = .poll →
      ns.updQ = .epUpdateBuffer t buff :: rest → c.tableDir.lookup t = some tc →
      ns.prop.state = .run →
      recordRanges (ns.prop.tab t).tablePeersUpdateRange buff.iterNodeRanges = .ok peers →
      NodeStep c ns (.self .pullRecv)
        { ns with
          updQ := rest
          prop := { ns.prop with
            tab := Function.update ns.prop.tab t { ns.prop.tab t with
              updateStore := buff.iterUpdates.foldl (fun m kv => addUpdate tc.vaddFunc m kv.1 kv.2)
                (ns.prop.tab t).updateStore
              tablePeersUpdateRange := peers } } }
        { events := buff.iterNodeRanges.map fun r => .recorded c.myId t r.1 r.2 }
  | dropBuffer {t buff rest} : ns.prop.pc = .poll →
      ns.updQ = .epUpdateBuffer t buff :: rest → ns.prop.state ≠ .run →
      NodeStep c ns (.self .pullRecv) { ns with updQ := rest } {}
  | pullRecvAck {rest} : ns.prop.pc = .poll →
      ns.updQ = .epRecvInternalTerminateACK :: rest →
      NodeStep c ns (.self .pullRecv)
        { ns with updQ := rest, prop := ns.prop.onRecvInternalTerminateACK } {}
  -- propagator の `term_sub_sock`
  | subTerm : ns.prop.pc = .poll → ns.prop.state ≠ .termPrep →
      NodeStep c ns (.pub .eprTerminate)
        { ns with prop := { ns.prop with haveReceivedDsTerm := true } } {}
  | subTermReply : ns.prop.pc = .poll → ns.prop.state = .termPrep → c.hasDownstream = true →
      NodeStep c ns (.pub .eprTerminate)
        { ns with prop := exitTest { ns.prop with
            haveReceivedDsTerm := true, haveRepliedDsTerm := true } }
        { push := [.eprTerminateACK c.myId], events := [.termAckSent c.myId] }
  -- receiver の `internal_recv_pull_sock`
  | register {t buff rest} : ns.recv.state ≠ .term → ns.pairQ = .eMyUpdates t buff :: rest →
      NodeStep c ns (.self .recvPair)
        { ns with
          pairQ := rest
          recv := (ns.recv.onMyUpdates c t buff).1
          ackQ := ns.ackQ ++ [.eMyUpdatesACK] }
        { events := [.registered c.myId t buff (decide (ns.recv.state = .run))] }
  | pairTermRun {rest} : ns.recv.state = .run → ns.pairQ = .eprInternalTerminate :: rest →
      NodeStep c ns (.self .recvPair)
        { ns with pairQ := rest, recv := { ns.recv with haveReceivedPropPairTerm := true } } {}
  | pairTermStop {rest} : ns.recv.state = .termSelf → ns.pairQ = .eprInternalTerminate :: rest →
      NodeStep c ns (.self .recvPair)
        { ns with
          pairQ := rest
          recv := Receiver.exitTest { ns.recv with haveRepliedPropPairTerm := true }
          updQ := ns.updQ ++ [.epRecvInternalTerminateACK] } {}
  | recvTerm {rest} : ns.recv.state ≠ .term → ns.termQ = .erInternalTerminate :: rest →
      NodeStep c ns (.self .recvTerm)
        { ns with
          termQ := rest
          recv := (ns.recv.onInternalTerminate c).1
          updQ := ns.updQ ++ if ns.recv.haveReceivedPropPairTerm then [.epRecvInternalTerminateACK]
            else [] }
        { pub := if 0 < c.numExpectedPropagators then [.eprTerminate] else [] }
  -- receiver の `update_pull_sock`
  | tcpDiscard {t buff} : ns.recv.state ≠ .term → ns.recv.state ≠ .run →
      NodeStep c ns (.tcp (.eprUpdateBuffer t buff)) ns {}
  | tcpNoPeer {t buff} : ns.recv.state = .run → Receiver.carriesNoPeer c.myId buff = true →
      NodeStep c ns (.tcp (.eprUpdateBuffer t buff)) ns
        { events := [.received c.myId t buff] }
  | tcpProcess {t buff tc mu buff'} : ns.recv.state = .run →
      Receiver.carriesNoPeer c.myId buff = false → c.tableDir.lookup t = some tc →
      Receiver.dedup c ns.recv t (.ofConfig tc) buff =
        .ok ({ ns.recv with myUpdates := mu }, buff') →
      tc.doUserCbk = false →
      NodeStep c ns (.tcp (.eprUpdateBuffer t buff))
        { ns with
          recv := { ns.recv with myUpdates := mu }
          storage := if tc.applyUpdates then
              Function.update ns.storage t (buff'.iterUpdates.foldl
                (fun s kv => incRaw tc.vaddFunc s kv.1 kv.2) (ns.storage t))
            else ns.storage
          updQ := ns.updQ ++ if tc.forwardUpdates then [.epUpdateBuffer t buff'] else [] }
        { events := [.received c.myId t buff] }
  | tcpAck {id} : ns.recv.state ≠ .term →
      NodeStep c ns (.tcp (.eprTerminateACK id))
        { ns with recv := ns.recv.onTerminateACK id } {}

variable {c : NodeConfig V} {ns ns' : NodeState V} {out : NodeOut V}

/-- application から読んだ message の処理。 -/
theorem nodeStep_pullApp {thr : Nat} {msg : PropagatorMsg V} {rest : List (Nat × PropagatorMsg V)}
    (hk : Kinds ns) (hpc : ns.prop.pc = .poll)
    (ht : NodeState.takeApp thr ns.appQ = some (msg, rest))
    (h : some (NodeState.ofProp { ns with appQ := rest } (ns.prop.handleUpdate c msg))
      = some (.ok (ns', out))) : NodeStep c ns (.self (.pullApp thr)) ns' out := by
  obtain ⟨p, po, hp, rfl, rfl⟩ := ofProp_eq_ok h
  have hkind : msg.fromApp = true := by
    obtain ⟨l₁, l₂, hq, -⟩ := takeApp_some ht
    exact hk.appQ (thr, msg) (by rw [hq]; simp)
  cases msg with
  | epUpdateLog t key delta =>
    rcases Propagator.onUpdateLog_ok_cases hp with ⟨hs, rfl, rfl⟩ | ⟨hs, htc, rfl, rfl⟩
    · simpa using NodeStep.dropLog hpc ht hs
    · simpa using NodeStep.pullLog hpc ht hs htc
  | epInternalTerminate =>
    rcases Propagator.onInternalTerminate_ok_cases hp with ⟨hr, rfl, rfl⟩ | ⟨hr, hd, rfl, rfl⟩
    · simpa using NodeStep.pullTerm hpc ht hr
    · simpa using NodeStep.pullTermReply hpc ht hr hd
  | _ => cases hkind

/-- receiver から読んだ message の処理。 -/
theorem nodeStep_pullRecv {msg : PropagatorMsg V} {rest : List (PropagatorMsg V)}
    (hk : Kinds ns) (hpc : ns.prop.pc = .poll) (hq : ns.updQ = msg :: rest)
    (h : some (NodeState.ofProp { ns with updQ := rest } (ns.prop.handleUpdate c msg))
      = some (.ok (ns', out))) : NodeStep c ns (.self .pullRecv) ns' out := by
  obtain ⟨p, po, hp, rfl, rfl⟩ := ofProp_eq_ok h
  have hkind : msg.fromRecv = true := hk.updQ msg (by rw [hq]; simp)
  cases msg with
  | epUpdateBuffer t buff =>
    obtain ⟨tc, htc, ⟨hs, rfl, rfl⟩ | ⟨hs, peers, hr, rfl, rfl⟩⟩ :=
      Propagator.onUpdateBuffer_ok_cases hp
    · simpa using NodeStep.dropBuffer hpc hq hs
    · simpa using NodeStep.record hpc hq htc hs hr
  | epRecvInternalTerminateACK =>
    cases hp
    simpa using NodeStep.pullRecvAck hpc hq
  | _ => cases hkind

/-- paired propagator から読んだ message の処理。 -/
theorem nodeStep_recvPair {msg : ReceiverMsg V} {rest : List (ReceiverMsg V)} (hk : Kinds ns)
    (hs : ns.recv.state ≠ .term) (hq : ns.pairQ = msg :: rest)
    (h : some (NodeState.ofRecv { ns with pairQ := rest } (ns.recv.handleInternal c msg))
      = some (.ok (ns', out))) : NodeStep c ns (.self .recvPair) ns' out := by
  obtain ⟨r, ro, hr, rfl, rfl⟩ := ofRecv_eq_ok h
  have hkind : msg.fromProp = true := hk.pairQ msg (by rw [hq]; simp)
  cases msg with
  | eMyUpdates t buff =>
    cases hr
    simpa [Receiver.onMyUpdates] using NodeStep.register (c := c) hs hq
  | eprInternalTerminate =>
    rcases Receiver.onPropInternalTerminate_ok_cases hr with ⟨hst, rfl, rfl⟩ | ⟨hst, rfl, rfl⟩
    · simpa using NodeStep.pairTermRun hst hq
    · simpa using NodeStep.pairTermStop hst hq
  | erInternalTerminate => cases hkind

/-- TCP で届いた update の処理。 -/
theorem nodeStep_tcpBuffer [DecidableEq V] {t : TableId} {buff : UpdateBuffer V}
    (h : nodeStep c ns (.tcp (.eprUpdateBuffer t buff)) = some (.ok (ns', out))) :
    NodeStep c ns (.tcp (.eprUpdateBuffer t buff)) ns' out := by
  simp only [nodeStep] at h
  split at h
  · cases h
  · next hne =>
    simp only [Receiver.handleTcp, Receiver.onUpdateBuffer] at h
    by_cases hs : ns.recv.state = .run
    · rw [if_neg (not_not.mpr hs)] at h
      cases hc : Receiver.carriesNoPeer c.myId buff with
      | true =>
        simp only [hc, if_true] at h
        cases h
        simpa [NodeState.putRecv] using NodeStep.tcpNoPeer hs hc
      | false =>
        simp only [hc, Bool.false_eq_true, if_false, NodeConfig.internalTable] at h
        cases htc : c.tableDir.lookup t with
        | none => simp [htc] at h
        | some tc =>
          simp only [htc, Option.map_some] at h
          cases hd : Receiver.dedup c ns.recv t (.ofConfig tc) buff with
          | error e => simp [hd] at h
          | ok res =>
            obtain ⟨mu, hmu⟩ := Receiver.dedup_ok_cases hd
            simp only [hd] at h
            cases hcbk : tc.doUserCbk with
            | true => simp [InternalTable.ofConfig, Receiver.userCallback, hcbk] at h
            | false =>
              simp only [InternalTable.ofConfig, Receiver.userCallback, hcbk, Bool.false_eq_true,
                if_false] at h
              cases h
              rw [hmu]
              have hd' : Receiver.dedup c ns.recv t (.ofConfig tc) buff =
                  .ok ({ ns.recv with myUpdates := mu }, res.2) := by rw [hd, ← hmu]
              simp only [List.append_nil]
              exact NodeStep.tcpProcess hs hc htc hd' hcbk
    · rw [if_pos hs] at h
      cases h
      simpa [NodeState.putRecv] using NodeStep.tcpDiscard hne hs

/-- **進んだ一歩は必ず `NodeStep` のどれかである。** -/
theorem nodeStep_cases [DecidableEq V] (hk : Kinds ns) {i : NodeInput V}
    (h : nodeStep c ns i = some (.ok (ns', out))) : NodeStep c ns i ns' out := by
  cases i with
  | self l =>
    simp only [nodeStep] at h
    cases l with
    | inc thr t key delta =>
      simp only [nodeStepSelf] at h
      split at h
      · cases h
      · next tc htc =>
        split at h
        · cases h
        · next hg =>
          cases h
          exact NodeStep.inc htc fun ht => not_not.mp fun hc => hg ⟨ht, hc⟩
    | signalTermProp =>
      simp only [nodeStepSelf] at h
      split at h
      · next ha =>
        split at h
        · next hs => cases h; exact NodeStep.signalTermProp ha hs
        · cases h
      · cases h
    | signalTermRecv =>
      simp only [nodeStepSelf] at h
      split at h
      · next ha =>
        split at h
        · next hs => cases h; exact NodeStep.signalTermRecv ha hs
        · cases h
      · cases h
    | waitTermProp =>
      simp only [nodeStepSelf] at h
      split at h
      · next ha => cases h; exact NodeStep.waitTermProp ha.1 ha.2
      · cases h
    | waitTermRecv =>
      simp only [nodeStepSelf] at h
      split at h
      · next ha => cases h; exact NodeStep.waitTermRecv ha.1 ha.2
      · cases h
    | timerFire =>
      simp only [nodeStepSelf] at h
      split at h
      · next ha => cases h; exact NodeStep.timerFire ha
      · cases h
    | timerCmd =>
      simp only [nodeStepSelf] at h
      split at h
      · next ht hq => cases h; exact NodeStep.timerCmd ht hq
      · cases h
    | timerTrigger order =>
      simp only [nodeStepSelf] at h
      split at h
      · next hpc hq =>
        split at h
        · next hg =>
          cases h
          simpa [NodeState.putProp, Propagator.onTimerTrigger] using
            NodeStep.timerTrigger hpc hq hg.1 hg.2
        · cases h
      · cases h
    | flushTable o =>
      simp only [nodeStepSelf] at h
      split at h
      · next t todo hpc =>
        split at h
        · next hv =>
          obtain ⟨p, po, hp, rfl, rfl⟩ := ofProp_eq_ok h
          rcases Propagator.flushTable_ok_cases hp with ⟨he, rfl, rfl⟩ |
            ⟨hne, b, ps, hb, ⟨hl, hmy, mb, hm, rfl, rfl⟩ | ⟨hl, hd, rfl, rfl⟩⟩
          · simpa using NodeStep.flushSkip hpc he
          · simpa using NodeStep.flushRegister hpc hv hne hb hl hmy hm
          · simpa using NodeStep.flushSend hpc hv hne hb hl hd
        · cases h
      · cases h
    | myUpdatesReply =>
      simp only [nodeStepSelf] at h
      split at h
      · next t buff todo msg rest hpc hq =>
        obtain ⟨p, po, hp, rfl, rfl⟩ := ofProp_eq_ok h
        obtain ⟨rfl, hd, rfl, rfl⟩ := Propagator.onMyUpdatesReply_ok_cases hp
        simpa using NodeStep.myUpdatesReply hpc hq hd
      · cases h
    | flushEnd =>
      simp only [nodeStepSelf] at h
      split at h
      · next hpc => cases h; simpa [NodeState.putProp] using NodeStep.flushEnd hpc
      · cases h
    | timerStopped =>
      simp only [nodeStepSelf] at h
      split at h
      · next hg => cases h; simpa [NodeState.putProp] using NodeStep.timerStopped hg.1 hg.2
      · cases h
    | pullApp thr =>
      simp only [nodeStepSelf] at h
      split at h
      · next msg rest hpc ht => exact nodeStep_pullApp hk hpc ht h
      · cases h
    | pullRecv =>
      simp only [nodeStepSelf] at h
      split at h
      · next msg rest hpc hq => exact nodeStep_pullRecv hk hpc hq h
      · cases h
    | recvPair =>
      simp only [nodeStepSelf] at h
      split at h
      · cases h
      · next msg rest hq =>
        split at h
        · cases h
        · next hs => exact nodeStep_recvPair hk hs hq h
    | recvTerm =>
      simp only [nodeStepSelf] at h
      split at h
      · cases h
      · next msg rest hq =>
        split at h
        · cases h
        · next hs =>
          have hm : msg = .erInternalTerminate := hk.termQ msg (by rw [hq]; simp)
          subst hm
          cases h
          simpa [NodeState.putRecv, Receiver.onInternalTerminate] using
            NodeStep.recvTerm (c := c) hs hq
  | tcp msg =>
    cases msg with
    | eprUpdateBuffer t buff => exact nodeStep_tcpBuffer h
    | eprTerminate =>
      simp only [nodeStep, Receiver.handleTcp] at h
      split at h <;> cases h
    | eprTerminateACK id =>
      simp only [nodeStep, Receiver.handleTcp] at h
      split at h
      · cases h
      · next hs =>
        cases h
        have hack : NodeStep c ns (.tcp (.eprTerminateACK id)) _ _ := .tcpAck hs
        simpa [NodeState.putRecv] using hack
  | pub msg =>
    simp only [nodeStep] at h
    split at h
    · next hpc =>
      obtain ⟨p, po, hp, rfl, rfl⟩ := ofProp_eq_ok h
      cases msg with
      | eprTerminate =>
        rcases Propagator.onTerminate_ok_cases hp with ⟨hs, rfl, rfl⟩ | ⟨hs, hd, rfl, rfl⟩
        · simpa using NodeStep.subTerm hpc hs
        · simpa using NodeStep.subTermReply hpc hs hd
      | eprUpdateBuffer t buff => cases hp
      | eprTerminateACK id => cases hp
    · cases h

/-! ## message の種類は保たれる -/

theorem Kinds.start (c : NodeConfig V) : Kinds (NodeState.start c) := by
  constructor <;> simp [NodeState.start]

theorem Kinds.step {i : NodeInput V} (h : NodeStep c ns i ns' out) (hk : Kinds ns) :
    Kinds ns' := by
  obtain ⟨ha, hu, hp, ht⟩ := hk
  cases h with
  | @inc thr t key delta tc htc _ =>
    refine ⟨?_, hu, hp, ht⟩
    intro e he
    simp only [NodeState.inc] at he
    split at he
    · rcases List.mem_append.mp he with he | he
      · exact ha e he
      · rw [List.mem_singleton.mp he]; rfl
    · exact ha e he
  | signalTermProp =>
    refine ⟨?_, hu, hp, ht⟩
    intro e he
    rcases List.mem_append.mp he with he | he
    · exact ha e he
    · rw [List.mem_singleton.mp he]; rfl
  | signalTermRecv =>
    refine ⟨ha, hu, hp, ?_⟩
    intro m hm
    rcases List.mem_append.mp hm with hm | hm
    · exact ht m hm
    · exact List.mem_singleton.mp hm
  | flushRegister =>
    refine ⟨ha, hu, ?_, ht⟩
    intro m hm
    rcases List.mem_append.mp hm with hm | hm
    · exact hp m hm
    · rw [List.mem_singleton.mp hm]; rfl
  | pullLog _ htake | dropLog _ htake =>
    obtain ⟨l₁, l₂, hq, rfl, -⟩ := takeApp_some htake
    exact ⟨fun e he => ha e (hq ▸ by simp at he ⊢; tauto), hu, hp, ht⟩
  | pullTerm _ htake | pullTermReply _ htake =>
    obtain ⟨l₁, l₂, hq, rfl, -⟩ := takeApp_some htake
    refine ⟨fun e he => ha e (hq ▸ by simp at he ⊢; tauto), hu, ?_, ht⟩
    intro m hm
    rcases List.mem_append.mp hm with hm | hm
    · exact hp m hm
    · rw [List.mem_singleton.mp hm]; rfl
  | record _ hq | dropBuffer _ hq | pullRecvAck _ hq =>
    exact ⟨ha, fun m hm => hu m (hq ▸ List.mem_cons_of_mem _ hm), hp, ht⟩
  | register _ hq | pairTermRun _ hq =>
    exact ⟨ha, hu, fun m hm => hp m (hq ▸ List.mem_cons_of_mem _ hm), ht⟩
  | pairTermStop _ hq =>
    refine ⟨ha, ?_, fun m hm => hp m (hq ▸ List.mem_cons_of_mem _ hm), ht⟩
    intro m hm
    rcases List.mem_append.mp hm with hm | hm
    · exact hu m hm
    · rw [List.mem_singleton.mp hm]; rfl
  | recvTerm _ hq =>
    refine ⟨ha, ?_, hp, fun m hm => ht m (hq ▸ List.mem_cons_of_mem _ hm)⟩
    intro m hm
    rcases List.mem_append.mp hm with hm | hm
    · exact hu m hm
    · split at hm
      · rw [List.mem_singleton.mp hm]; rfl
      · cases hm
  | @tcpProcess t buff tc mu buff' =>
    refine ⟨ha, ?_, hp, ht⟩
    intro m hm
    rcases List.mem_append.mp hm with hm | hm
    · exact hu m hm
    · split at hm
      · rw [List.mem_singleton.mp hm]; rfl
      · cases hm
  | _ => exact ⟨ha, hu, hp, ht⟩

end QuiltDB
