import QuiltDB.Properties.Control

/-!
# 隣り合う node の間の不変量

下流の receiver が publish する `EPRTerminate` と、propagator がそれに返す `EPRTerminateACK` が、
二つの node の flag とどう対応するか。

一歩が node の外に及ぼすものを `LinkEff` に分け、link ごとの不変量はこの場合分けで示す。
-/

namespace QuiltDB

variable {V : Type}

/-! ## 一歩が外に及ぼすもの -/

/-- propagator の、下流に関わる flag が変わらない。 -/
def SameProp (ns ns' : NodeState V) : Prop :=
  ns'.prop.haveReceivedDsTerm = ns.prop.haveReceivedDsTerm ∧
    ns'.prop.haveRepliedDsTerm = ns.prop.haveRepliedDsTerm

/-- receiver の、上流に関わる状態が変わらない。 -/
def SameRecv (ns ns' : NodeState V) : Prop :=
  (ns'.recv.state = .run ↔ ns.recv.state = .run) ∧ ns'.recv.peerPropInfo = ns.recv.peerPropInfo

theorem SameProp.refl (ns : NodeState V) : SameProp ns ns := ⟨rfl, rfl⟩

theorem SameRecv.refl (ns : NodeState V) : SameRecv ns ns := ⟨Iff.rfl, rfl⟩

/-- 終了の protocol から見た一歩の種類。 -/
inductive LinkEff (c : NodeConfig V) (ns ns' : NodeState V) : NodeInput V → NodeOut V → Prop
  | quiet {i out} : (∀ m, i ≠ .pub m) → (∀ id, i ≠ .tcp (.eprTerminateACK id)) →
      SameProp ns ns' → SameRecv ns ns' → out.push = [] → out.pub = [] → LinkEff c ns ns' i out
  | push {l out t b} : c.hasDownstream = true → ns.prop.haveRepliedDsTerm = false →
      SameProp ns ns' → SameRecv ns ns' → out.push = [.eprUpdateBuffer t b] → out.pub = [] →
      LinkEff c ns ns' (.self l) out
  | reply {l out} : c.hasDownstream = true → ns.prop.haveReceivedDsTerm = true →
      ns.prop.haveRepliedDsTerm = false → ns'.prop.haveReceivedDsTerm = true →
      ns'.prop.haveRepliedDsTerm = true → SameRecv ns ns' →
      out.push = [.eprTerminateACK c.myId] → out.pub = [] → LinkEff c ns ns' (.self l) out
  | subTerm {out} : ns'.prop.haveReceivedDsTerm = true →
      ns'.prop.haveRepliedDsTerm = ns.prop.haveRepliedDsTerm → SameRecv ns ns' →
      out.push = [] → out.pub = [] → LinkEff c ns ns' (.pub .eprTerminate) out
  | subReply {out} : c.hasDownstream = true → ns'.prop.haveReceivedDsTerm = true →
      ns'.prop.haveRepliedDsTerm = true → SameRecv ns ns' →
      out.push = [.eprTerminateACK c.myId] → out.pub = [] →
      LinkEff c ns ns' (.pub .eprTerminate) out
  | publish {l out} : SameProp ns ns' → ns.recv.state = .run → ns'.recv.state ≠ .run →
      ns'.recv.peerPropInfo = ns.recv.peerPropInfo → out.push = [] →
      out.pub = (if 0 < c.numExpectedPropagators then [.eprTerminate] else []) →
      LinkEff c ns ns' (.self l) out
  | ack {id out} : SameProp ns ns' → (ns'.recv.state = .run ↔ ns.recv.state = .run) →
      ns'.recv.peerPropInfo = ns.recv.peerPropInfo.insert id true → out.push = [] →
      out.pub = [] → LinkEff c ns ns' (.tcp (.eprTerminateACK id)) out

theorem sameProp_exitTest {ns : NodeState V} {p : Propagator V}
    (h1 : p.haveReceivedDsTerm = ns.prop.haveReceivedDsTerm)
    (h2 : p.haveRepliedDsTerm = ns.prop.haveRepliedDsTerm) :
    p.exitTest.haveReceivedDsTerm = ns.prop.haveReceivedDsTerm ∧
      p.exitTest.haveRepliedDsTerm = ns.prop.haveRepliedDsTerm := by
  rw [Propagator.exitTest_eq]
  exact ⟨h1, h2⟩

variable {c : NodeConfig V} {ns ns' : NodeState V} {out : NodeOut V} {i : NodeInput V}

/-- RUN の間は下流に返事をしていない。 -/
theorem Control.not_replied (hc : Control c ns) (hd : c.hasDownstream = true)
    (hs : ns.prop.state = .run) : ns.prop.haveRepliedDsTerm = false := by
  rw [← Bool.not_eq_true]
  exact fun h => ((hc.prop.reply hd).mp h).2 hs

section linkEff

variable [Zero V]

theorem Control.linkEff (h : NodeStep c ns i ns' out) (hc : Control c ns) :
    LinkEff c ns ns' i out := by
  cases h with
  | timerStopped =>
    exact .quiet (by rintro _ ⟨⟩) (by rintro _ ⟨⟩) (sameProp_exitTest rfl rfl)
      (.refl _) rfl rfl
  | @flushSend o t todo buff peers hpc _ hst _ _ hd =>
    have hrun := hc.prop.run_of_store hst
    exact .push hd (hc.not_replied hd hrun) (.refl _) (.refl _) rfl rfl
  | myUpdatesReply hpc _ hd =>
    have hrun := hc.pair.run_of_wait hpc
    exact .push hd (hc.not_replied hd hrun) (.refl _) (.refl _) rfl rfl
  | pullTermReply _ ht hr hd =>
    obtain ⟨-, hrun, -⟩ := hc.take_term ht
    exact .reply hd hr (hc.not_replied hd hrun) hr rfl (.refl _) rfl rfl
  | pullRecvAck =>
    exact .quiet (by rintro _ ⟨⟩) (by rintro _ ⟨⟩) (sameProp_exitTest rfl rfl)
      (.refl _) rfl rfl
  | subTerm => exact .subTerm rfl rfl (.refl _) rfl rfl
  | subTermReply _ _ hd =>
    refine .subReply hd ?_ ?_ (.refl _) rfl rfl
    · rw [Propagator.exitTest_eq]
    · rw [Propagator.exitTest_eq]
  | @register t b =>
    refine .quiet (by rintro _ ⟨⟩) (by rintro _ ⟨⟩) (.refl _) ?_ rfl rfl
    obtain ⟨mu, hmu⟩ := ns.recv.onMyUpdates_cases (c := c) t b
    rw [hmu]
    exact ⟨Iff.rfl, rfl⟩
  | pairTermStop hs =>
    refine .quiet (by rintro _ ⟨⟩) (by rintro _ ⟨⟩) (.refl _) ?_ rfl rfl
    have hne : ns.recv.state ≠ .run := by rw [hs]; rintro ⟨⟩
    refine ⟨iff_of_false (Receiver.exitTest_state_ne_run hne) hne, ?_⟩
    rw [Receiver.exitTest_eq]
  | recvTerm hs hq =>
    have hrun := hc.term.run_of_queued hq
    exact .publish (.refl _) hrun (by rintro ⟨⟩) rfl rfl rfl
  | tcpAck =>
    refine .ack (.refl _) (hc.recv.onTerminateACK_state _) ?_ rfl rfl
    unfold Receiver.onTerminateACK
    rw [Receiver.exitTest_eq]
  | _ =>
    exact .quiet (by rintro _ ⟨⟩) (by rintro _ ⟨⟩) ⟨rfl, rfl⟩ ⟨Iff.rfl, rfl⟩ rfl rfl

end linkEff

/-! ## link の不変量 -/

/-- `d` の receiver が publish した `EPRTerminate` と、それを読む propagator の flag。 -/
inductive PubInv (st : ReceiverState) (recvd : Bool) (q : List (PropRecvMsg V)) : Prop
  | before : st = .run → recvd = false → q = [] → PubInv st recvd q
  | published : st ≠ .run → recvd = false → q = [.eprTerminate] → PubInv st recvd q
  | heard : st ≠ .run → recvd = true → q = [] → PubInv st recvd q

/-- `EPRTerminateACK` は propagator が下流に送る最後の message である。 -/
inductive AckInv (id : NodeId) (replied : Bool) (flag : Option Bool) (q : List (PropRecvMsg V)) :
    Prop
  | before : replied = false → flag = some false → (∀ m ∈ q, ∃ t b, m = .eprUpdateBuffer t b) →
      AckInv id replied flag q
  | sent {l : List (PropRecvMsg V)} : replied = true → flag = some false →
      q = l ++ [.eprTerminateACK id] → (∀ m ∈ l, ∃ t b, m = .eprUpdateBuffer t b) →
      AckInv id replied flag q
  | acked : replied = true → flag = some true → q = [] → AckInv id replied flag q

theorem PubInv.congr {st st' : ReceiverState} {recvd recvd' : Bool} {q q' : List (PropRecvMsg V)}
    (h : PubInv st recvd q) (hs : st' = .run ↔ st = .run) (hr : recvd' = recvd) (hq : q' = q) :
    PubInv st' recvd' q' := by
  subst hr hq
  cases h with
  | before h1 h2 h3 => exact .before (hs.mpr h1) h2 h3
  | published h1 h2 h3 => exact .published (fun h => h1 (hs.mp h)) h2 h3
  | heard h1 h2 h3 => exact .heard (fun h => h1 (hs.mp h)) h2 h3

theorem AckInv.congr {id : NodeId} {replied replied' : Bool} {flag flag' : Option Bool}
    {q q' : List (PropRecvMsg V)} (h : AckInv id replied flag q) (hr : replied' = replied)
    (hf : flag' = flag) (hq : q' = q) : AckInv id replied' flag' q' := by
  subst hr hf hq
  exact h

/-- ACK を送る前なら、update を送ってもよい。 -/
theorem AckInv.push {id : NodeId} {flag : Option Bool} {q : List (PropRecvMsg V)} {t : TableId}
    {b : UpdateBuffer V} (h : AckInv id false flag q) :
    AckInv id false flag (q ++ [.eprUpdateBuffer t b]) := by
  cases h with
  | before h1 h2 h3 =>
    refine .before h1 h2 ?_
    intro m hm
    rcases List.mem_append.mp hm with hm | hm
    · exact h3 m hm
    · exact ⟨t, b, List.mem_singleton.mp hm⟩
  | sent h => cases h
  | acked h => cases h

theorem AckInv.reply {id : NodeId} {flag : Option Bool} {q : List (PropRecvMsg V)}
    (h : AckInv id false flag q) : AckInv id true flag (q ++ [.eprTerminateACK id]) := by
  cases h with
  | before _ h2 h3 => exact .sent rfl h2 rfl h3
  | sent h => cases h
  | acked h => cases h

theorem AckInv.pop_buffer {id : NodeId} {replied : Bool} {flag : Option Bool}
    {rest : List (PropRecvMsg V)} {t : TableId} {b : UpdateBuffer V}
    (h : AckInv id replied flag (.eprUpdateBuffer t b :: rest)) : AckInv id replied flag rest := by
  cases h with
  | before h1 h2 h3 => exact .before h1 h2 fun m hm => h3 m (List.mem_cons_of_mem _ hm)
  | @sent l h1 h2 h3 h4 =>
    cases l with
    | nil => cases (List.cons.inj h3).1
    | cons m l =>
      exact .sent h1 h2 (List.cons.inj h3).2 fun m hm => h4 m (List.mem_cons_of_mem _ hm)
  | acked _ _ h => cases h

/-- ACK を読む時、残りの message は無い。 -/
theorem AckInv.pop_ack {id id' : NodeId} {replied : Bool} {flag : Option Bool}
    {rest : List (PropRecvMsg V)} (h : AckInv id replied flag (.eprTerminateACK id' :: rest)) :
    id' = id ∧ replied = true ∧ rest = [] := by
  cases h with
  | before _ _ h =>
    obtain ⟨t, b, h⟩ := h _ List.mem_cons_self
    cases h
  | @sent l h1 _ h3 h4 =>
    cases l with
    | nil =>
      obtain ⟨h, hr⟩ := List.cons.inj h3
      cases h
      exact ⟨rfl, h1, hr⟩
    | cons m l =>
      obtain ⟨t, b, h⟩ := h4 m List.mem_cons_self
      rw [h] at h3
      cases (List.cons.inj h3).1
  | acked _ _ h => cases h

section links

variable {Node : Type} [DecidableEq Node] {C : SysConfig Node V} {s s' : SysState Node V}
  {l : SysLabel Node V} {j : Node}

/-- どの link も不変量を満たす。 -/
structure Links (C : SysConfig Node V) (s : SysState Node V) : Prop where
  sink : ∀ u, C.down u = none → s.tcp u = [] ∧ s.pub u = []
  pub : ∀ u d, C.down u = some d →
    PubInv (s.node d).recv.state (s.node u).prop.haveReceivedDsTerm (s.pub u)
  ack : ∀ u d, C.down u = some d → AckInv (C.id u) (s.node u).prop.haveRepliedDsTerm
    ((s.node d).recv.peerPropInfo.lookup (C.id u)) (s.tcp u)
  peers : ∀ d id b, (s.node d).recv.peerPropInfo.lookup id = some b →
    ∃ u, C.down u = some d ∧ C.id u = id

variable {N : Node → NodeState V}

theorem SameProp.of_update (h : SameProp (s.node j) ns')
    (hN : N = Function.update s.node j ns') (k : Node) : SameProp (s.node k) (N k) :=
  update_rel SameProp.refl h hN k

theorem SameRecv.of_update (h : SameRecv (s.node j) ns')
    (hN : N = Function.update s.node j ns') (k : Node) : SameRecv (s.node k) (N k) :=
  update_rel SameRecv.refl h hN k

/-! ### 一歩で保たれること -/

/-- `EPRTerminate` が読める間は、下流に返事をしていない。 -/
theorem Links.not_replied_of_pub (hl : Links C s)
    (hc : ∀ j, Control (C.nodeConfig j) (s.node j)) {u : Node} {m : PropRecvMsg V}
    {rest : List (PropRecvMsg V)} (hq : s.pub u = m :: rest) :
    (s.node u).prop.haveRepliedDsTerm = false := by
  cases hd : C.down u with
  | none =>
    have h := (hl.sink u hd).2
    rw [hq] at h
    cases h
  | some d =>
    rw [← Bool.not_eq_true]
    intro hr
    have hrec := (((hc u).prop.reply (hasDownstream_iff.mpr ⟨d, hd⟩)).mp hr).1
    cases hl.pub u d hd with
    | before _ h => rw [hrec] at h; cases h
    | published _ h => rw [hrec] at h; cases h
    | heard _ _ h => rw [hq] at h; cases h

variable [Zero V]

/-- `EPRTerminate` を読む一歩。 -/
theorem Control.sub_eff (hc : Control c ns) {msg : PropRecvMsg V}
    (h : NodeStep c ns (.pub msg) ns' out) :
    SameRecv ns ns' ∧ ns'.prop.haveReceivedDsTerm = true ∧ out.pub = [] ∧
      msg = .eprTerminate := by
  cases hc.linkEff h with
  | quiet h => exact absurd rfl (h _)
  | subTerm h1 _ h2 _ h4 => exact ⟨h2, h1, h4, rfl⟩
  | subReply _ h1 _ h2 _ h4 => exact ⟨h2, h1, h4, rfl⟩

theorem Links.pub_step (hl : Links C s) (hc : ∀ j, Control (C.nodeConfig j) (s.node j))
    (h : SysStep C s l s') {u d : Node} (hd : C.down u = some d) :
    PubInv (s'.node d).recv.state (s'.node u).prop.haveReceivedDsTerm (s'.pub u) := by
  have hp := hl.pub u d hd
  cases h with
  | @node j l ns' out hn =>
    have hN : (s.put C j (ns', out)).node = Function.update s.node j ns' := rfl
    cases (hc j).linkEff hn with
    | quiet _ _ h1 h2 _ h4 | push _ _ h1 h2 _ h4 =>
      exact hp.congr (h2.of_update hN d).1 (h1.of_update hN u).1 (by rw [put_pub_of_nil h4])
    | reply _ h1 _ h2 _ h3 _ h4 =>
      refine hp.congr (h3.of_update hN d).1 ?_ (by rw [put_pub_of_nil h4])
      exact update_rel
        (R := fun ns ns' => ns'.prop.haveReceivedDsTerm = ns.prop.haveReceivedDsTerm)
        (fun _ => rfl) (h2.trans h1.symm) hN u
    | publish h1 h2 h3 _ _ h4 =>
      by_cases hj : d = j
      · subst hj
        have hq : (s.put C d (ns', out)).pub u = s.pub u ++ [.eprTerminate] := by
          simp [SysState.put, hd, h4, numExpected_pos hd]
        rw [put_node_self, (h1.of_update hN u).1, hq]
        cases hp with
        | before _ h5 h6 => exact .published h3 h5 (by simp [h6])
        | published h => exact absurd h2 h
        | heard h => exact absurd h2 h
      · refine hp.congr (by rw [put_node_of_ne hj]) (h1.of_update hN u).1 ?_
        simp only [SysState.put, hd, Option.some.injEq, hj, if_false]
  | @tcp u₀ d₀ msg rest ns' out _ _ hn =>
    have hN : (SysState.put C { s with tcp := Function.update s.tcp u₀ rest } d₀ (ns', out)).node
        = Function.update s.node d₀ ns' := rfl
    cases (hc d₀).linkEff hn with
    | quiet _ _ h1 h2 _ h4 =>
      exact hp.congr (h2.of_update hN d).1 (h1.of_update hN u).1 (by rw [put_pub_of_nil h4])
    | ack h1 h2 _ _ h4 =>
      refine hp.congr ?_ (h1.of_update hN u).1 (by rw [put_pub_of_nil h4])
      exact update_rel (R := fun ns ns' => ns'.recv.state = .run ↔ ns.recv.state = .run)
        (fun _ => Iff.rfl) h2 hN d
  | @termSub j msg rest ns' out hq hn =>
    have hN : (SysState.put C { s with pub := Function.update s.pub j rest } j (ns', out)).node
        = Function.update s.node j ns' := rfl
    obtain ⟨h1, h2, h3, rfl⟩ := (hc j).sub_eff hn
    rw [put_pub_of_nil h3]
    by_cases hj : u = j
    · subst hj
      rw [put_node_self]
      simp only [Function.update_self]
      cases hp with
      | before _ _ h => rw [hq] at h; cases h
      | published h5 _ h6 =>
        rw [hq] at h6
        exact .heard (fun h => h5 ((h1.of_update hN d).1.mp h)) h2 (List.cons.inj h6).2
      | heard _ _ h => rw [hq] at h; cases h
    · rw [put_node_of_ne hj]
      simp only [Function.update_of_ne hj]
      exact hp.congr (h1.of_update hN d).1 rfl rfl

theorem Links.ack_step (hl : Links C s) (hc : ∀ j, Control (C.nodeConfig j) (s.node j))
    (h : SysStep C s l s') {u d : Node} (hd : C.down u = some d) :
    AckInv (C.id u) (s'.node u).prop.haveRepliedDsTerm
      ((s'.node d).recv.peerPropInfo.lookup (C.id u)) (s'.tcp u) := by
  have ha := hl.ack u d hd
  cases h with
  | @node j l ns' out hn =>
    have hN : (s.put C j (ns', out)).node = Function.update s.node j ns' := rfl
    cases (hc j).linkEff hn with
    | quiet _ _ h1 h2 h3 _ =>
      exact ha.congr (h1.of_update hN u).2 (by rw [(h2.of_update hN d).2])
        (by rw [put_tcp_of_nil h3])
    | push _ h1 h2 h3 h4 _ =>
      rw [(h2.of_update hN u).2, (h3.of_update hN d).2]
      by_cases hj : u = j
      · subst hj
        rw [h1] at ha ⊢
        rw [put_tcp_self, h4]
        exact ha.push
      · rw [put_tcp_of_ne hj]
        exact ha
    | reply _ _ h1 _ h2 h3 h4 _ =>
      rw [(h3.of_update hN d).2]
      by_cases hj : u = j
      · subst hj
        rw [h1] at ha
        rw [put_node_self, put_tcp_self, h2, h4]
        exact ha.reply
      · rw [put_node_of_ne hj, put_tcp_of_ne hj]
        exact ha
    | publish h1 _ _ h2 h3 _ =>
      have hp := update_rel
        (R := fun ns ns' : NodeState V => ns'.recv.peerPropInfo = ns.recv.peerPropInfo)
        (fun _ => rfl) h2 hN d
      exact ha.congr (h1.of_update hN u).2 (by rw [hp]) (by rw [put_tcp_of_nil h3])
  | @tcp u₀ d₀ msg rest ns' out hd₀ hq hn =>
    have hN : (SysState.put C { s with tcp := Function.update s.tcp u₀ rest } d₀ (ns', out)).node
        = Function.update s.node d₀ ns' := rfl
    cases (hc d₀).linkEff hn with
    | quiet _ hna h1 h2 h3 _ =>
      rw [(h1.of_update hN u).2, (h2.of_update hN d).2, put_tcp_of_nil h3]
      by_cases hu : u = u₀
      · subst hu
        simp only [Function.update_self]
        rw [hq] at ha
        cases msg with
        | eprUpdateBuffer t b => exact ha.pop_buffer
        | eprTerminateACK id => exact absurd rfl (hna id)
        | eprTerminate => cases hn
      · simp only [Function.update_of_ne hu]
        exact ha
    | ack h1 _ h2 h3 _ =>
      -- ACK は最後の message なので、その link の queue は空になる
      obtain ⟨rfl, hrep, hrest⟩ := (hq ▸ hl.ack u₀ d₀ hd₀).pop_ack
      rw [(h1.of_update hN u).2, put_tcp_of_nil h3]
      by_cases hu : u = u₀
      · subst hu
        obtain rfl : d₀ = d := Option.some.inj (hd₀.symm.trans hd)
        rw [put_node_self, h2, AList.lookup_insert]
        simp only [Function.update_self]
        exact .acked hrep rfl hrest
      · simp only [Function.update_of_ne hu]
        refine ha.congr rfl ?_ rfl
        by_cases hj : d = d₀
        · subst hj
          rw [put_node_self, h2, AList.lookup_insert_ne fun h => hu (C.id_injective h)]
        · rw [put_node_of_ne hj]
  | @termSub j msg rest ns' out hq hn =>
    have hN : (SysState.put C { s with pub := Function.update s.pub j rest } j (ns', out)).node
        = Function.update s.node j ns' := rfl
    cases (hc j).linkEff hn with
    | quiet h => exact absurd rfl (h _)
    | subTerm _ h1 h2 h3 _ =>
      refine ha.congr ?_ (by rw [(h2.of_update hN d).2]) (by rw [put_tcp_of_nil h3])
      exact update_rel
        (R := fun ns ns' => ns'.prop.haveRepliedDsTerm = ns.prop.haveRepliedDsTerm)
        (fun _ => rfl) h1 hN u
    | subReply _ _ h2 h3 h4 _ =>
      rw [(h3.of_update hN d).2]
      by_cases hj : u = j
      · subst hj
        -- `EPRTerminate` が残っている間は、まだ返事をしていない
        have hrep := hl.not_replied_of_pub hc hq
        rw [hrep] at ha
        rw [put_node_self, put_tcp_self, h2, h4]
        exact ha.reply
      · rw [put_node_of_ne hj, put_tcp_of_ne hj]
        exact ha

theorem Links.start (C : SysConfig Node V) : Links C (SysState.start C) where
  sink := fun _ _ => ⟨rfl, rfl⟩
  pub := fun _ _ _ => .before rfl rfl rfl
  ack := by
    intro u d hd
    have hrep : (Propagator.start (C.nodeConfig u)).haveRepliedDsTerm = false := by
      simp [Propagator.start, hasDownstream_iff.mpr ⟨d, hd⟩]
    refine .before hrep ?_ (by rintro _ ⟨⟩)
    have hm : C.id u ∈ (C.nodeConfig d).expected := mem_expected.mpr ⟨u, hd, rfl⟩
    simp [SysState.start, NodeState.start, Receiver.start, Receiver.lookup_initPeers, hm]
  peers := by
    intro d id b h
    simp only [SysState.start, NodeState.start, Receiver.start, Receiver.lookup_initPeers] at h
    split at h
    · next hm => exact mem_expected.mp hm
    · cases h

/-- `peer_prop_info` に書くのは、上流の id だけである。 -/
theorem Links.peers_step (hl : Links C s) (hc : ∀ j, Control (C.nodeConfig j) (s.node j))
    (h : SysStep C s l s') {d : Node} {id : NodeId} {b : Bool}
    (hb : (s'.node d).recv.peerPropInfo.lookup id = some b) :
    ∃ u, C.down u = some d ∧ C.id u = id := by
  cases h with
  | @node j l ns' out hn =>
    have hp : ns'.recv.peerPropInfo = (s.node j).recv.peerPropInfo := by
      cases (hc j).linkEff hn with
      | quiet _ _ _ h2 | push _ _ _ h2 => exact h2.2
      | reply _ _ _ _ _ h2 => exact h2.2
      | publish _ _ _ h2 => exact h2
    have hd := update_rel
      (R := fun ns ns' : NodeState V => ns'.recv.peerPropInfo = ns.recv.peerPropInfo)
      (fun _ => rfl) hp (Eq.refl (s.put C j (ns', out)).node) d
    rw [hd] at hb
    exact hl.peers d id b hb
  | @tcp u₀ d₀ msg rest ns' out hd₀ hq hn =>
    by_cases hd : d = d₀
    · subst hd
      rw [put_node_self] at hb
      cases (hc d).linkEff hn with
      | quiet _ _ _ h2 =>
        rw [h2.2] at hb
        exact hl.peers d id b hb
      | ack _ _ h2 =>
        obtain ⟨rfl, -, -⟩ := (hq ▸ hl.ack u₀ d hd₀).pop_ack
        rw [h2] at hb
        by_cases hi : id = C.id u₀
        · exact ⟨u₀, hd₀, hi.symm⟩
        · rw [AList.lookup_insert_ne hi] at hb
          exact hl.peers d id b hb
    · rw [put_node_of_ne hd] at hb
      exact hl.peers d id b hb
  | @termSub j msg rest ns' out hq hn =>
    have hd := ((hc j).sub_eff hn).1.of_update (Eq.refl
      (SysState.put C { s with pub := Function.update s.pub j rest } j (ns', out)).node) d
    rw [hd.2] at hb
    exact hl.peers d id b hb

/-- 下流の無い node からは何も出ない。 -/
theorem Links.sink_step (hl : Links C s) (hc : ∀ j, Control (C.nodeConfig j) (s.node j))
    (h : SysStep C s l s') {u : Node} (hu : C.down u = none) : s'.tcp u = [] ∧ s'.pub u = [] := by
  obtain ⟨ht, hp⟩ := hl.sink u hu
  have hnd : ¬(C.nodeConfig u).hasDownstream = true := by
    rw [hasDownstream_iff, hu]
    rintro ⟨d, ⟨⟩⟩
  cases h with
  | @node j l ns' out hn =>
    refine ⟨?_, by simp [SysState.put, hu, hp]⟩
    by_cases hj : u = j
    · subst hj
      rw [put_tcp_self, ht]
      cases (hc u).linkEff hn with
      | quiet _ _ _ _ h => simp [h]
      | push h => exact absurd h hnd
      | reply h => exact absurd h hnd
      | publish _ _ _ _ h => simp [h]
    · rw [put_tcp_of_ne hj, ht]
  | @tcp u₀ d₀ msg rest ns' out hd₀ hq hn =>
    have hne : u ≠ u₀ := fun h => by rw [h, hd₀] at hu; cases hu
    refine ⟨?_, by simp [SysState.put, hu, hp]⟩
    have hpush : out.push = [] := by
      cases (hc d₀).linkEff hn with
      | quiet _ _ _ _ h => exact h
      | ack _ _ _ h => exact h
    rw [put_tcp_of_nil hpush]
    simp only [Function.update_of_ne hne]
    exact ht
  | @termSub j msg rest ns' out hq hn =>
    have hne : u ≠ j := fun h => by rw [h, hq] at hp; cases hp
    refine ⟨by rw [put_tcp_of_ne hne]; exact ht, ?_⟩
    simp [SysState.put, hu, Function.update_of_ne hne, hp]

variable [DecidableEq V]

theorem SysReachable.links (h : SysReachable C s) : Links C s := by
  refine h.sys_invariant (Links.start C) ?_
  intro s l s' hr hs hl
  have hc := fun j => hr.control j
  exact ⟨fun u hu => hl.sink_step hc hs hu, fun u d hd => hl.pub_step hc hs hd,
    fun u d hd => hl.ack_step hc hs hd, fun d id b hb => hl.peers_step hc hs hb⟩

end links

end QuiltDB
