import QuiltDB.Properties.Contiguity
import QuiltDB.Properties.PropHistory
import QuiltDB.Properties.RegisterFirst

/-!
# 異常終了の在りか

source には `CHECK` や NULL の socket で落ちうる所が十八種ある。どの結び方の、どの run でも、実際に落ちるのは
`AbortSite` に挙げた所だけである。

* 容量から作る buffer、queue に入る message の種類、終了の合図の順は、いつでも `CHECK` を満たす。
* 落ちうるのは、下流の無い node の送信、受け取った table・自分の range・callback、peer の range の続き方だけである。

`abort_sites` は、run のどの一歩についても、落ちるならこのどれかであることを示す。
-/

namespace QuiltDB

variable {V : Type}

/-! ## 登録してある table -/

/-- table `t` を登録してある。 -/
def NodeConfig.Knows (c : NodeConfig V) (t : TableId) : Prop := ∃ tc, c.tableDir.lookup t = some tc

/-- for loop が、これから送る table。 -/
def PropagatorPc.tables : PropagatorPc V → List TableId
  | .flush todo => todo
  | .waitAck t _ todo => t :: todo
  | _ => []

/-- node の中の message も for loop も、登録してある table だけを扱う。 -/
structure Known (c : NodeConfig V) (ns : NodeState V) : Prop where
  logs : ∀ thr t key delta, (thr, .epUpdateLog t key delta) ∈ ns.appQ → c.Knows t
  fwd : ∀ t b, .epUpdateBuffer t b ∈ ns.updQ → c.Knows t
  flush : ∀ t ∈ ns.prop.pc.tables, c.Knows t

theorem knows_of_mem_keys {c : NodeConfig V} {t : TableId} (h : t ∈ c.tableDir.keys) : c.Knows t :=
  Option.isSome_iff_exists.mp (AList.lookup_isSome.mpr (AList.mem_keys.mpr h))

/-- 終了の判定の後に、送る table は残っていない。 -/
theorem not_mem_exitTest_tables {p : Propagator V} {t : TableId} (ht : t ∈ p.exitTest.pc.tables)
    (h : p.pc = .poll) : False := by
  rcases p.exitTest_cases with ⟨-, he⟩ | ⟨-, he⟩
  · rw [he] at ht
    cases ht
  · rw [he, h] at ht
    cases ht

section node

variable {c : NodeConfig V} {ns ns' : NodeState V} {i : NodeInput V} {out : NodeOut V}

/-- 読んだ message も残りの message も、queue にあったものである。 -/
theorem mem_of_takeApp {thr : Nat} {q rest : List (Nat × PropagatorMsg V)} {msg : PropagatorMsg V}
    (ht : NodeState.takeApp thr q = some (msg, rest)) :
    (thr, msg) ∈ q ∧ ∀ e ∈ rest, e ∈ q := by
  obtain ⟨l₁, l₂, rfl, rfl, -⟩ := takeApp_some ht
  refine ⟨List.mem_append_right _ List.mem_cons_self, fun e hm => ?_⟩
  rw [List.mem_append, List.mem_cons]
  rw [List.mem_append] at hm
  exact hm.imp_right Or.inr

theorem Known.rest_fwd (h : Known c ns) {msg : PropagatorMsg V} {rest : List (PropagatorMsg V)}
    (hq : ns.updQ = msg :: rest) : ∀ t b, .epUpdateBuffer t b ∈ rest → c.Knows t := by
  intro t b hm
  refine h.fwd t b ?_
  rw [hq]
  exact List.mem_cons_of_mem _ hm

variable [Zero V]

theorem Known.step (h : NodeStep c ns i ns' out) (hk : Known c ns) : Known c ns' := by
  obtain ⟨hlogs, hfwd, hflush⟩ := hk
  cases h with
  | @inc thr t key delta tc htc =>
    refine ⟨fun thr' t' key' delta' hm => ?_, hfwd, hflush⟩
    simp only [NodeState.inc] at hm
    split at hm
    · rcases List.mem_append.mp hm with hm | hm
      · exact hlogs _ _ _ _ hm
      · cases List.mem_singleton.mp hm
        exact ⟨tc, htc⟩
    · exact hlogs _ _ _ _ hm
  | signalTermProp =>
    refine ⟨fun thr t key delta hm => ?_, hfwd, hflush⟩
    rcases List.mem_append.mp hm with hm | hm
    · exact hlogs _ _ _ _ hm
    · cases List.mem_singleton.mp hm
  | timerTrigger _ _ _ ho =>
    exact ⟨hlogs, hfwd, fun t ht => knows_of_mem_keys (ho.mem_iff.mp ht)⟩
  | flushSkip hpc | flushSend hpc | myUpdatesReply hpc =>
    rw [hpc] at hflush
    exact ⟨hlogs, hfwd, fun t ht => hflush t (List.mem_cons_of_mem _ ht)⟩
  | flushRegister hpc =>
    rw [hpc] at hflush
    exact ⟨hlogs, hfwd, hflush⟩
  | flushEnd =>
    refine ⟨hlogs, hfwd, fun t ht => ?_⟩
    simp only [Propagator.flushEnd] at ht
    split at ht <;> cases ht
  | timerStopped => exact ⟨hlogs, hfwd, fun t ht => (not_mem_exitTest_tables ht rfl).elim⟩
  | pullLog hpc ht | dropLog hpc ht | pullTerm hpc ht | pullTermReply hpc ht =>
    exact ⟨fun thr t key delta hm => hlogs thr t key delta ((mem_of_takeApp ht).2 _ hm), hfwd, hflush⟩
  | record hpc hq | dropBuffer hpc hq =>
    exact ⟨hlogs, Known.rest_fwd ⟨hlogs, hfwd, hflush⟩ hq, hflush⟩
  | pullRecvAck hpc hq =>
    exact ⟨hlogs, Known.rest_fwd ⟨hlogs, hfwd, hflush⟩ hq,
      fun t ht => (not_mem_exitTest_tables ht hpc).elim⟩
  | subTermReply hpc => exact ⟨hlogs, hfwd, fun t ht => (not_mem_exitTest_tables ht hpc).elim⟩
  | pairTermStop =>
    refine ⟨hlogs, fun t b hm => ?_, hflush⟩
    rcases List.mem_append.mp hm with hm | hm
    · exact hfwd t b hm
    · cases List.mem_singleton.mp hm
  | recvTerm =>
    refine ⟨hlogs, fun t b hm => ?_, hflush⟩
    rcases List.mem_append.mp hm with hm | hm
    · exact hfwd t b hm
    · split at hm
      · cases List.mem_singleton.mp hm
      · cases hm
  | tcpProcess _ _ htc =>
    refine ⟨hlogs, fun t b hm => ?_, hflush⟩
    rcases List.mem_append.mp hm with hm | hm
    · exact hfwd t b hm
    · split at hm
      · cases List.mem_singleton.mp hm
        exact ⟨_, htc⟩
      · cases hm
  | _ => exact ⟨hlogs, hfwd, hflush⟩

/-- 下流へ送る buffer も、登録してある table のものである。 -/
theorem Known.push (h : NodeStep c ns i ns' out) (hk : Known c ns) {t : TableId}
    {b : UpdateBuffer V} (hm : .eprUpdateBuffer t b ∈ out.push) : c.Knows t := by
  cases h with
  | flushSend hpc | myUpdatesReply hpc =>
    cases List.mem_singleton.mp hm
    exact hk.flush t (by rw [hpc]; exact List.mem_cons_self)
  | pullTermReply | subTermReply => cases List.mem_singleton.mp hm
  | _ => cases hm

/-! ## 送る buffer の材料 -/

omit [Zero V] in
/-- 送る buffer も登録する buffer も作れるので、tick で落ちるのは下流の無い時だけである。 -/
theorem Ranges.flush_error {p : Propagator V} (hr : Ranges c p) (hid : 0 ≤ c.myId) {t : TableId}
    {todo : List TableId} {o : FlushOrder V} {e : Fault} (ho : o.Valid (p.tab t))
    (h : p.flushTable c t todo o = .error e) :
    e = .nullPropPushSock ∧ c.hasDownstream = false ∧ (p.tab t).updateStore.entries ≠ [] := by
  obtain ⟨buff, peers, hb, -⟩ := Propagator.buildBuffer_ok ho hid (hr.tab t).peers
  unfold Propagator.flushTable at h
  dsimp only at h
  split at h
  · cases h
  · next hne =>
    have hst : (p.tab t).updateStore.entries ≠ [] := fun heq => hne (by rw [heq]; rfl)
    rw [hb] at h
    dsimp only at h
    split at h
    · next hloop =>
      have hmy : (p.tab t).myUpdateStore.entries ≠ [] := by
        rintro heq
        rw [heq] at hloop
        exact absurd hloop (by simp)
      obtain ⟨_, _, -, -, hmb, -⟩ := Propagator.buildMyBuffer_ok hid ho.2.2 ((hr.tab t).mine hmy)
      rw [hmb] at h
      cases h
    · obtain ⟨he, hd⟩ := finishFlush_fails h
      exact ⟨he, hd, hst⟩

/-- 下流の終了の合図は、`term_sub_sock` からしか届かない。 -/
theorem NodeStep.dsTerm_eq (h : NodeStep c ns i ns' out) (hi : ∀ m, i ≠ .pub m) :
    ns'.prop.haveReceivedDsTerm = ns.prop.haveReceivedDsTerm := by
  have hexit : ∀ p : Propagator V, p.exitTest.haveReceivedDsTerm = p.haveReceivedDsTerm := by
    intro p
    rw [Propagator.exitTest_eq]
  cases h with
  | timerStopped => exact hexit _
  | pullRecvAck => exact hexit _
  | subTerm | subTermReply => exact absurd rfl (hi _)
  | _ => rfl

end node

/-! ## system -/

section system

variable {Node : Type} [DecidableEq Node] [Zero V] [DecidableEq V] {C : SysConfig Node V}
  {s : SysState Node V} {j : Node}

theorem SysReachable.known (h : SysReachable C s) (j : Node) :
    Known (C.nodeConfig j) (s.node j) := by
  refine h.node_invariant (I := Known) (fun j => ?_) (fun j ns i ns' out hn => Known.step hn) j
  exact ⟨by rintro _ _ _ _ ⟨⟩, by rintro _ _ ⟨⟩, by rintro _ ⟨⟩⟩

omit [DecidableEq V] in
/-- channel の message は、前からあったものか、動いた node が送ったものである。 -/
theorem SysStep.tcp_mem {s' : SysState Node V} {l : SysLabel Node V} (h : SysStep C s l s') :
    ∃ j i ns' out, NodeStep (C.nodeConfig j) (s.node j) i ns' out ∧
      ∀ u m, m ∈ s'.tcp u → m ∈ s.tcp u ∨ (u = j ∧ m ∈ out.push) := by
  have hput : ∀ (s₀ : SysState Node V) j (ns' : NodeState V) (out : NodeOut V),
      (∀ u m, m ∈ s₀.tcp u → m ∈ s.tcp u) →
      ∀ u m, m ∈ (s₀.put C j (ns', out)).tcp u → m ∈ s.tcp u ∨ (u = j ∧ m ∈ out.push) := by
    intro s₀ j ns' out hsub u m hm
    by_cases hu : u = j
    · subst hu
      rw [put_tcp_self] at hm
      exact (List.mem_append.mp hm).imp (hsub _ m) fun hm => ⟨rfl, hm⟩
    · rw [put_tcp_of_ne hu] at hm
      exact .inl (hsub u m hm)
  cases h with
  | node hn => exact ⟨_, _, _, _, hn, hput s _ _ _ fun _ _ hm => hm⟩
  | @tcp u d msg rest ns' out hd hq hn =>
    refine ⟨_, _, _, _, hn, hput _ _ _ _ fun w m hm => ?_⟩
    dsimp only at hm
    by_cases hw : w = u
    · subst hw
      rw [Function.update_self] at hm
      rw [hq]
      exact List.mem_cons_of_mem _ hm
    · rwa [Function.update_of_ne hw] at hm
  | termSub _ hn => exact ⟨_, _, _, _, hn, hput _ _ _ _ fun _ _ hm => hm⟩

/-- channel を流れる buffer は、送った node に登録してある table のものである。 -/
theorem SysReachable.known_tcp (h : SysReachable C s) {u : Node} {t : TableId}
    {b : UpdateBuffer V} (hm : .eprUpdateBuffer t b ∈ s.tcp u) : (C.nodeConfig u).Knows t := by
  refine h.sys_invariant (I := fun s => ∀ u t b, .eprUpdateBuffer t b ∈ s.tcp u →
    (C.nodeConfig u).Knows t) (by rintro _ _ _ ⟨⟩) ?_ u t b hm
  intro s l s' hr hs hi u t b hm
  obtain ⟨j, i, ns', out, hn, hmem⟩ := hs.tcp_mem
  rcases hmem u _ hm with hold | ⟨rfl, hnew⟩
  · exact hi u t b hold
  · exact Known.push hn (hr.known u) hnew

theorem SysReachable.ranges (h : SysReachable C s) (j : Node) :
    Ranges (C.nodeConfig j) (s.node j).prop := by
  obtain ⟨hist, hh, heq⟩ := h.propReachable j
  exact heq ▸ PropReachable.ranges (C.id_nonneg j) hh

/-- 下流の無い propagator は、下流の終了の合図を受けない。 -/
theorem SysReachable.sink_dsTerm (h : SysReachable C s) (hd : C.down j = none) :
    (s.node j).prop.haveReceivedDsTerm = false := by
  refine h.sys_invariant (I := fun s => ∀ j, C.down j = none →
    (s.node j).prop.haveReceivedDsTerm = false) (fun _ _ => rfl) ?_ j hd
  intro s l s' hr hs hi j hd
  have hrel : ∀ {k : Node} {N : Node → NodeState V} {ns' : NodeState V},
      N = Function.update s.node k ns' →
      ns'.prop.haveReceivedDsTerm = (s.node k).prop.haveReceivedDsTerm →
      (N j).prop.haveReceivedDsTerm = false := fun hN heq =>
    (update_rel (R := fun a b => b.prop.haveReceivedDsTerm = a.prop.haveReceivedDsTerm)
      (fun _ => rfl) heq hN j).trans (hi j hd)
  cases hs with
  | node hn => exact hrel rfl (hn.dsTerm_eq (by rintro m ⟨⟩))
  | tcp _ _ hn => exact hrel rfl (hn.dsTerm_eq (by rintro m ⟨⟩))
  | @termSub k msg rest ns' out hq hn =>
    by_cases hk : j = k
    · subst hk
      rw [(hr.links.sink j hd).2] at hq
      cases hq
    · rw [put_node_of_ne hk]
      exact hi j hd

end system

/-! ## 落ちる所 -/

/-- 戻ってきた自分の range を除く所の落ち方。`loop_` を立てた table の queue は空にならない。 -/
def Fault.ofRemoval (loop : Bool) : Fault → Bool
  | .notContained | .seqNumMismatch | .updateNotFound => true
  | .myUpdatesNotFound | .frontOfEmptyQueue => !loop
  | _ => false

section system

variable {Node : Type} [DecidableEq Node]

/-- 落ちる一歩と、その落ち方。 -/
inductive AbortSite (C : SysConfig Node V) (s : SysState Node V) : SysLabel Node V → Fault → Prop
  /-- 下流の無い node の tick が、空でない store を送る。 -/
  | sendNull {j o t todo} : C.down j = none → (s.node j).prop.pc = .flush (t :: todo) →
      ((s.node j).prop.tab t).updateStore.entries ≠ [] →
      AbortSite C s (.node j (.flushTable o)) .nullPropPushSock
  /-- 下流の無い node が、登録の返事を受けて送る。 -/
  | replyNull {j t b todo} : C.down j = none → (s.node j).prop.pc = .waitAck t b todo →
      AbortSite C s (.node j .myUpdatesReply) .nullPropPushSock
  /-- peer の range が、記録した所から続かない。 -/
  | notContiguous {j t b rest id} : (s.node j).updQ = .epUpdateBuffer t b :: rest →
      (s.node j).prop.state = .run →
      Propagator.recordRanges ((s.node j).prop.tab t).tablePeersUpdateRange b.iterNodeRanges
        = .error (.notContiguous id) →
      AbortSite C s (.node j .pullRecv) (.notContiguous id)
  /-- 受け取った buffer の table が、下流に登録していない。 -/
  | table {u d t b rest} : C.down u = some d → s.tcp u = .eprUpdateBuffer t b :: rest →
      (s.node d).recv.state = .run → (C.tableDir d).lookup t = none →
      AbortSite C s (.tcp u) .tableDoesNotExist
  /-- 戻ってきた自分の range が、queue の batch と合わない。 -/
  | removal {u d t b rest tc rng e} : C.down u = some d → s.tcp u = .eprUpdateBuffer t b :: rest →
      (s.node d).recv.state = .run → (C.tableDir d).lookup t = some tc →
      b.getNodeRange (C.id d) = some rng → e.ofRemoval tc.loop = true → AbortSite C s (.tcp u) e
  /-- `InternalTable` が写していない callback を呼ぶ。 -/
  | callback {u d t b rest tc} : C.down u = some d → s.tcp u = .eprUpdateBuffer t b :: rest →
      (s.node d).recv.state = .run → (C.tableDir d).lookup t = some tc → tc.doUserCbk = true →
      AbortSite C s (.tcp u) .uninitializedCallback

variable [Zero V] [DecidableEq V] {C : SysConfig Node V} {s : SysState Node V} {j : Node} {e : Fault}

omit [Zero V] [DecidableEq V] in
theorem hasDownstream_false_iff {u : Node} :
    (C.nodeConfig u).hasDownstream = false ↔ C.down u = none := by
  rw [← Bool.not_eq_true, hasDownstream_iff, Option.eq_none_iff_forall_ne_some]
  simp

/-- `SignalTerm` は失敗しない。 -/
theorem Control.signal_ok {c : NodeConfig V} {ns : NodeState V} (hc : Control c ns) :
    nodeStepSelf c ns .signalTermProp ≠ some (.error e) ∧
      nodeStepSelf c ns .signalTermRecv ≠ some (.error e) := by
  constructor
  · intro h
    simp only [nodeStepSelf] at h
    split at h
    · next happ =>
      cases hc.app with
      | running _ hs => simp [hs] at h
      | signaled hne | handled hne => exact hne happ
    · cases h
  · intro h
    simp only [nodeStepSelf] at h
    split at h
    · next happ =>
      cases hc.term with
      | running _ hs => simp [hs] at h
      | signaled _ hne | handled _ hne => exact hne happ
    · cases h

omit [Zero V] [DecidableEq V] in
theorem NodeState.ofRecv_error {ns : NodeState V} {x : Except Fault (Receiver V × RecvOut V)}
    (h : ns.ofRecv x = .error e) : x = .error e := by
  cases x with
  | error e' => exact congrArg _ (Except.error.inj h)
  | ok a => cases h

/-- application から読んだ message の処理は落ちない。 -/
theorem SysReachable.pullApp_ok (h : SysReachable C s) {thr : Nat} {msg : PropagatorMsg V}
    {rest : List (Nat × PropagatorMsg V)}
    (ht : NodeState.takeApp thr (s.node j).appQ = some (msg, rest)) :
    (s.node j).prop.handleUpdate (C.nodeConfig j) msg ≠ .error e := by
  intro herr
  have hmem := (mem_of_takeApp ht).1
  have hkind : msg.fromApp = true := (h.control j).kinds.appQ _ hmem
  cases msg with
  | epUpdateLog t key delta =>
    obtain ⟨tc, htc⟩ := (h.known j).logs _ _ _ _ hmem
    simp only [Propagator.handleUpdate, Propagator.onUpdateLog, htc] at herr
    split at herr
    · cases herr
    · split at herr <;> cases herr
  | epInternalTerminate =>
    cases hr : (s.node j).prop.haveReceivedDsTerm with
    | false => simp [Propagator.handleUpdate, Propagator.onInternalTerminate, hr] at herr
    | true =>
      have hd : (C.nodeConfig j).hasDownstream = true := by
        rw [← Bool.not_eq_false]
        intro hno
        rw [h.sink_dsTerm (hasDownstream_false_iff.mp hno)] at hr
        cases hr
      simp [Propagator.handleUpdate, Propagator.onInternalTerminate, Propagator.replyTerminate, hr,
        hd] at herr
  | _ => cases hkind

/-- receiver から読んだ message の処理で落ちるのは、range が続かない時だけである。 -/
theorem SysReachable.pullRecv_error (h : SysReachable C s) {msg : PropagatorMsg V}
    {rest : List (PropagatorMsg V)} (hq : (s.node j).updQ = msg :: rest)
    (herr : (s.node j).prop.handleUpdate (C.nodeConfig j) msg = .error e) :
    AbortSite C s (.node j .pullRecv) e := by
  have hmem : msg ∈ (s.node j).updQ := by
    rw [hq]
    exact List.mem_cons_self
  have hkind : msg.fromRecv = true := (h.control j).kinds.updQ _ hmem
  cases msg with
  | epUpdateBuffer t b =>
    obtain ⟨tc, htc⟩ := (h.known j).fwd t b hmem
    simp only [Propagator.handleUpdate, Propagator.onUpdateBuffer, htc] at herr
    split at herr
    · cases herr
    · next hrun =>
      split at herr
      · next e' hrec =>
        cases herr
        obtain ⟨id, rfl⟩ := recordRanges_fails hrec
        exact .notContiguous hq (not_not.mp hrun) hrec
      · cases herr
  | epRecvInternalTerminateACK => cases herr
  | _ => cases hkind

/-- paired propagator から読んだ message の処理は落ちない。 -/
theorem SysReachable.recvPair_ok (h : SysReachable C s) {msg : ReceiverMsg V}
    (hs : (s.node j).recv.state ≠ .term) :
    (s.node j).recv.handleInternal (C.nodeConfig j) msg ≠ .error e := by
  intro herr
  cases msg with
  | eMyUpdates t b => cases herr
  | erInternalTerminate => cases herr
  | eprInternalTerminate =>
    simp only [Receiver.handleInternal, Receiver.onPropInternalTerminate] at herr
    split at herr
    · cases herr
    · cases herr
    · next hne hne' =>
      cases hst : (s.node j).recv.state with
      | init => exact (h.control j).recv.ne_init hst
      | run => exact hne hst
      | termSelf => exact hne' hst
      | term => exact hs hst

/-- node の中の一歩で落ちる所。 -/
theorem SysReachable.self_error (h : SysReachable C s) {k : NodeLabel V}
    (he : nodeStepSelf (C.nodeConfig j) (s.node j) k = some (.error e)) :
    AbortSite C s (.node j k) e := by
  have hc := h.control j
  cases k with
  | signalTermProp => exact absurd he hc.signal_ok.1
  | signalTermRecv => exact absurd he hc.signal_ok.2
  | inc =>
    simp only [nodeStepSelf] at he
    split at he
    · cases he
    · split at he <;> cases he
  | waitTermProp | waitTermRecv | timerFire | timerCmd | flushEnd | timerStopped =>
    simp only [nodeStepSelf] at he
    split at he <;> cases he
  | timerTrigger =>
    simp only [nodeStepSelf] at he
    split at he
    · split at he <;> cases he
    · cases he
  | flushTable o =>
    simp only [nodeStepSelf] at he
    split at he
    · next t todo hpc =>
      split at he
      · next ho =>
        have herr := NodeState.ofProp_error (Option.some.inj he)
        obtain ⟨rfl, hd, hst⟩ := (h.ranges j).flush_error (C.id_nonneg j) ho herr
        exact .sendNull (hasDownstream_false_iff.mp hd) hpc hst
      · cases he
    · cases he
  | myUpdatesReply =>
    have hreply := h.reply_ok j
    simp only [sysStep, nodeStep, he] at hreply
    simp only [nodeStepSelf] at he
    split at he
    · next t b todo msg rest hpc hq =>
      have herr := NodeState.ofProp_error (Option.some.inj he)
      unfold Propagator.onMyUpdatesReply at herr
      split at herr
      · split at herr
        · next e' hf =>
          cases herr
          obtain ⟨rfl, hd⟩ := finishFlush_fails hf
          exact .replyNull (hasDownstream_false_iff.mp hd) hpc
        · cases herr
      · cases herr
        exact absurd rfl hreply
    · cases he
  | pullApp thr =>
    simp only [nodeStepSelf] at he
    split at he
    · next msg rest hpc ht =>
      exact absurd (NodeState.ofProp_error (Option.some.inj he)) (h.pullApp_ok ht)
    · cases he
  | pullRecv =>
    simp only [nodeStepSelf] at he
    split at he
    · next msg rest hpc hq => exact h.pullRecv_error hq (NodeState.ofProp_error (Option.some.inj he))
    · cases he
  | recvPair | recvTerm =>
    simp only [nodeStepSelf] at he
    split at he
    · cases he
    · split at he
      · cases he
      · next hs => exact absurd (NodeState.ofRecv_error (Option.some.inj he)) (h.recvPair_ok hs)

omit [DecidableEq Node] [Zero V] [DecidableEq V] in
/-- 登録した batch には自分の range と update があるので、その先の `CHECK` でしか落ちない。 -/
theorem Receiver.removeMyUpdates_error {myId : NodeId} {vsub : V → V → V} {recvRange : UpdateRange}
    {queue : List (UpdateBuffer V)} {seqNum : Int} {b : UpdateBuffer V}
    (hq : ∀ q ∈ queue, (∃ r, q.getNodeRange myId = some r) ∧ q.updates ≠ [])
    (h : removeMyUpdates myId vsub recvRange queue seqNum b = .error e) :
    e.ofRemoval false = true := by
  induction queue generalizing seqNum b with
  | nil =>
    cases h
    rfl
  | cons q queue ih =>
    obtain ⟨⟨r, hr⟩, hne⟩ := hq q List.mem_cons_self
    have hit : q.startIteration ≠ none := by
      simp [UpdateBuffer.startIteration, hne]
    rw [removeMyUpdates, hr] at h
    dsimp only at h
    split at h
    · cases h
      rfl
    · split at h
      · cases h
        rfl
      · split at h
        · next hnone => exact absurd hnone hit
        · split at h
          · next e' hsub =>
            cases h
            by_cases heq : e = .updateNotFound
            · rw [heq]
              rfl
            · exact absurd hsub (subtractUpdates_error heq)
          · split at h
            · exact ih (fun q hm => hq q (List.mem_cons_of_mem _ hm)) h
            · cases h

/-- 自分の range を除く所で落ちるのは、自分の range が載っている時だけである。 -/
theorem SysReachable.dedup_error (h : SysReachable C s) {t : TableId} {it : InternalTable V}
    {b : UpdateBuffer V}
    (herr : Receiver.dedup (C.nodeConfig j) (s.node j).recv t it b = .error e) :
    (∃ rng, b.getNodeRange (C.id j) = some rng) ∧ e.ofRemoval false = true := by
  unfold Receiver.dedup at herr
  split at herr
  · cases herr
  · next rng hrng =>
    refine ⟨⟨rng, hrng⟩, ?_⟩
    split at herr
    · cases herr
      rfl
    · next queue hqueue =>
      split at herr
      · next e' hrem =>
        cases herr
        refine Receiver.removeMyUpdates_error (fun q hm => ?_) hrem
        have hmy : ((s.tab t).view j).my = some queue := hqueue
        obtain ⟨⟨r, hpk, -⟩, hne⟩ := ((h.tabReach t).shape.node j).my q (by rw [hmy]; exact hm)
        exact ⟨⟨r, hpk.getNodeRange_mem List.mem_cons_self⟩, hne⟩
      · cases herr

/-- channel を流れる message は、buffer か `EPRTerminateACK` である。 -/
theorem SysReachable.tcp_kind (h : SysReachable C s) {u d : Node} (hd : C.down u = some d) :
    .eprTerminate ∉ s.tcp u := by
  intro hm
  have hbuf : ∀ l : List (PropRecvMsg V), (∀ m ∈ l, ∃ t b, m = .eprUpdateBuffer t b) →
      .eprTerminate ∉ l := by
    intro l hl hm
    obtain ⟨t, b, heq⟩ := hl _ hm
    cases heq
  cases h.links.ack u d hd with
  | before _ _ hq => exact hbuf _ hq hm
  | sent _ _ hq hl =>
    rw [hq] at hm
    rcases List.mem_append.mp hm with hm | hm
    · exact hbuf _ hl hm
    · cases List.mem_singleton.mp hm
  | acked _ _ hq =>
    rw [hq] at hm
    cases hm

/-- `loop_` を立てた table では、queue が無いことも空のこともない。 -/
theorem SysReachable.removal_loop (h : SysReachable C s) {u d : Node} {t : TableId}
    {b : UpdateBuffer V} {rest : List (PropRecvMsg V)} {tc : TableConfig V}
    (htc : (C.tableDir d).lookup t = some tc) (hd : C.down u = some d)
    (hq : s.tcp u = .eprUpdateBuffer t b :: rest) (he : sysStep C s (.tcp u) = some (.error e))
    (hrem : e.ofRemoval false = true) : e.ofRemoval tc.loop = true := by
  cases hloop : tc.loop with
  | false => exact hrem
  | true =>
    obtain ⟨hfront, hnone⟩ := h.queue_ok htc hloop hd hq he
    cases e with
    | notContained | seqNumMismatch | updateNotFound => rfl
    | frontOfEmptyQueue => exact absurd rfl hfront
    | myUpdatesNotFound => exact absurd rfl hnone
    | _ => cases hrem

omit [Zero V] [DecidableEq V] [DecidableEq Node] in
theorem Receiver.userCallback_cbk {tc : TableConfig V} {t : TableId} {b : UpdateBuffer V}
    (h : userCallback (.ofConfig tc) t b = .error e) : tc.doUserCbk = true := by
  unfold userCallback at h
  split at h
  · next hcbk => exact hcbk
  · cases h

/-- 上流から届いた message の処理で落ちる所。 -/
theorem SysReachable.tcp_error (h : SysReachable C s) {u : Node}
    (he : sysStep C s (.tcp u) = some (.error e)) : AbortSite C s (.tcp u) e := by
  have hstep := he
  simp only [sysStep] at he
  split at he
  · next d msg rest hd hq =>
    obtain ⟨x, hx, hmap⟩ := Option.map_eq_some_iff.mp he
    have hxe : x = .error e := except_map_error hmap
    subst hxe
    simp only [nodeStep] at hx
    split at hx
    · cases hx
    · split at hx
      · next e' herr =>
        cases hx
        cases msg with
        | eprTerminate => exact absurd (by rw [hq]; exact List.mem_cons_self) (h.tcp_kind hd)
        | eprTerminateACK id => cases herr
        | eprUpdateBuffer t b =>
          simp only [Receiver.handleTcp, Receiver.onUpdateBuffer] at herr
          split at herr
          · cases herr
          · next hrun =>
            have hrun' : (s.node d).recv.state = .run := not_not.mp hrun
            split at herr
            · cases herr
            · cases htc : (C.tableDir d).lookup t with
              | none =>
                have hit : (C.nodeConfig d).internalTable t = none := congrArg (Option.map _) htc
                rw [hit] at herr
                cases herr
                exact .table hd hq hrun' htc
              | some tc =>
                have hit : (C.nodeConfig d).internalTable t = some (.ofConfig tc) :=
                  congrArg (Option.map _) htc
                rw [hit] at herr
                dsimp only at herr
                split at herr
                · next e' hdd =>
                  cases herr
                  obtain ⟨⟨rng, hrng⟩, hrem⟩ := h.dedup_error hdd
                  exact .removal hd hq hrun' htc hrng (h.removal_loop htc hd hq hstep hrem)
                · split at herr
                  · next e' hcbk =>
                    cases herr
                    cases Receiver.userCallback_error hcbk
                    exact .callback hd hq hrun' htc (Receiver.userCallback_cbk hcbk)
                  · cases herr
      · cases hx
  · cases he

/-- 下流の publish した message の処理は落ちない。 -/
theorem SysReachable.termSub_ok (h : SysReachable C s) :
    sysStep C s (.termSub j) ≠ some (.error e) := by
  intro he
  simp only [sysStep] at he
  split at he
  · cases he
  · next msg rest hq =>
    obtain ⟨x, hx, hmap⟩ := Option.map_eq_some_iff.mp he
    have hxe : x = .error e := except_map_error hmap
    subst hxe
    cases hd : C.down j with
    | none =>
      rw [(h.links.sink j hd).2] at hq
      cases hq
    | some d =>
      have hdown : (C.nodeConfig j).hasDownstream = true := hasDownstream_iff.mpr ⟨d, hd⟩
      have hmsg : msg = .eprTerminate := by
        cases h.links.pub j d hd with
        | published _ _ hpub =>
          rw [hq] at hpub
          exact (List.cons.inj hpub).1
        | before _ _ hpub | heard _ _ hpub =>
          rw [hq] at hpub
          cases hpub
      simp only [nodeStep] at hx
      split at hx
      · have herr := NodeState.ofProp_error (Option.some.inj hx)
        rw [hmsg] at herr
        simp only [Propagator.handleTermSub, Propagator.onTerminate, Propagator.replyTerminate, hdown,
          if_true] at herr
        split at herr <;> cases herr
      · cases hx

theorem SysReachable.abort_site (h : SysReachable C s) {l : SysLabel Node V}
    (he : sysStep C s l = some (.error e)) : AbortSite C s l e := by
  cases l with
  | node j k =>
    obtain ⟨x, hx, hmap⟩ := Option.map_eq_some_iff.mp he
    have hxe : x = .error e := except_map_error hmap
    subst hxe
    exact h.self_error hx
  | tcp u => exact h.tcp_error he
  | termSub j => exact absurd he h.termSub_ok

/--
**落ちうる所は `AbortSite` だけである。**

どの結び方の、どの run の、どの一歩でも、`CHECK` に落ちるか NULL の socket を使うなら、それは `AbortSite` のどれかである。
容量・message の種類・返事・終了の合図についての `CHECK` は、どれも落ちない。
-/
theorem abort_sites (h : SysReachable C s) {l : SysLabel Node V}
    (he : sysStep C s l = some (.error e)) :
    AbortSite C s l e ∧ e ≠ .appendFailed ∧ e ≠ .nodeRangeFailed ∧ e ≠ .myUpdateRangeEmpty ∧
      e ≠ .unexpectedMyUpdatesReply ∧ e ≠ .unrecognizedMessage ∧ e ≠ .badReceiverState ∧
      e ≠ .signalTermFailed ∧ e ≠ .myRangeNotFound ∧ e ≠ .startIterationFailed := by
  have hsite := h.abort_site he
  refine ⟨hsite, ?_⟩
  cases hsite with
  | removal _ _ _ _ _ hrem =>
    cases e with
    | notContained | seqNumMismatch | updateNotFound | myUpdatesNotFound | frontOfEmptyQueue => simp
    | _ => cases hrem
  | _ => simp

end system

/-- 一本道の端の node 2 が `Inc` をして tick を迎えた所で、`abort_sites` を使う。 -/
theorem abort_sites_pathTopology : ∃ s, SysReachable pathTopology s ∧
    sysStep pathTopology s (.node 2 .myUpdatesReply) = some (.error .nullPropPushSock) ∧
    AbortSite pathTopology s (.node 2 .myUpdatesReply) .nullPropPushSock := by
  obtain ⟨s, hr, hfail⟩ : ∃ s, SysReachable pathTopology s ∧
      failsWith .nullPropPushSock (sysStep pathTopology s (.node 2 .myUpdatesReply)) = true :=
    Lts.Reachable.exists_of_run (incLabels 2 1 1 ++ [.node 2 .timerFire,
      .node 2 (.timerTrigger [0]), .node 2 (.flushTable ⟨[(1, 1)], [], [(1, 1)]⟩),
      .node 2 .recvPair]) (by decide +kernel)
  have he := eq_of_failsWith hfail
  exact ⟨s, hr, he, (abort_sites hr he).1⟩

end QuiltDB
