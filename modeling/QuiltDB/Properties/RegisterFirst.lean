import QuiltDB.Properties.Queue

/-!
# 戻ってきた batch は queue にある

送られた batch は必ず登録されていて、一度しか戻ってこない。だから自分の range が戻ってきた時、
receiver が空の queue の先頭を取ることはない。
-/

namespace QuiltDB

open Segments

variable {V Node : Type}

/-! ## 落ち方 -/

theorem Receiver.removeMyUpdates_ne_notFound {myId : NodeId} {vsub : V → V → V}
    {recvRange : UpdateRange} {queue : List (UpdateBuffer V)} {seqNum : Int} {b : UpdateBuffer V} :
    removeMyUpdates myId vsub recvRange queue seqNum b ≠ .error .myUpdatesNotFound := by
  induction queue generalizing seqNum b with
  | nil => rintro ⟨⟩
  | cons q queue ih =>
    intro h
    rw [removeMyUpdates] at h
    split at h
    · cases h
    · split at h
      · cases h
      · split at h
        · cases h
        · split at h
          · cases h
          · split at h
            · next e hsub =>
              cases h
              exact subtractUpdates_error (by decide) hsub
            · split at h
              · exact ih h
              · cases h

/-- queue に関わる二つの落ち方では、自分の range が載っている。 -/
theorem Receiver.onUpdateBuffer_error {c : NodeConfig V} {storage : TableId → Storage V}
    {r : Receiver V} {t : TableId} {b : UpdateBuffer V} {e : Fault}
    (h : onUpdateBuffer c storage r t b = .error e)
    (he : e = .frontOfEmptyQueue ∨ e = .myUpdatesNotFound) :
    r.state = .run ∧ ∃ rng, b.getNodeRange c.myId = some rng ∧
      (r.myUpdates t = none ∨ ∃ queue vsub, r.myUpdates t = some queue ∧
        removeMyUpdates c.myId vsub rng queue rng.st b = .error .frontOfEmptyQueue) := by
  unfold onUpdateBuffer at h
  split at h
  · cases h
  · next hrun =>
    refine ⟨not_not.mp hrun, ?_⟩
    split at h
    · cases h
    · split at h
      · cases h
        rcases he with he | he <;> cases he
      · next it _ =>
        split at h
        · next e' hd =>
          cases h
          unfold dedup at hd
          split at hd
          · cases hd
          · next rng hrng =>
            refine ⟨rng, hrng, ?_⟩
            split at hd
            · next hnone => exact Or.inl hnone
            · next queue hq =>
              split at hd
              · next e'' hrem =>
                cases hd
                rcases he with rfl | rfl
                · exact Or.inr ⟨queue, it.vsubFunc, hq, hrem⟩
                · exact absurd hrem removeMyUpdates_ne_notFound
              · cases hd
        · dsimp only at h
          split at h
          · next e' hcbk =>
            cases h
            rw [userCallback_error hcbk] at he
            rcases he with he | he <;> cases he
          · cases h

/-! ## 受け取った buffer -/

section tab

variable [DecidableEq Node] [Zero V] {C : SysConfig Node V} {t : TableId} {j u : Node}
  {Q : Node → UpdateBuffer V → Prop} {S : TabSys Node V}

/-- 受け取った buffer は、どれも channel を流れる形をしている。 -/
theorem TabReach.received_ok (h : TabReach C t Q S) :
    ∀ b ∈ receivedBy (C.id j) t S.trace, ChanOk C b := by
  refine h.invariant (I := fun S => ∀ b ∈ receivedBy (C.id j) t S.trace, ChanOk C b)
    (by rintro _ ⟨⟩) ?_
  intro S S' hr hs hi
  refine hs.at_node (j := j) (I := fun tr _ => ∀ b ∈ receivedBy (C.id j) t tr, ChanOk C b) hi ?_ ?_
  · intro ib v' push ev hib he b hb
    rw [receivedBy_append, List.mem_append] at hb
    rcases hb with hb | hb
    · exact hi b hb
    · cases ib with
      | none =>
        rw [he.receivedBy_nil] at hb
        cases hb
      | some b' =>
        rcases he.recv_cases.2.2 with ⟨-, rfl⟩ | ⟨-, rfl⟩
        · have hbb : b = b' := by
            simpa [receivedBy, Event.recvBuffer, SysConfig.nodeConfig] using hb
          rw [hbb]
          exact hr.shape.of_delivers hib b' rfl
        · cases hb
  · intro ev hev b hb
    rw [receivedBy_append, receivedBy_other hev, List.append_nil] at hb
    exact hi b hb

/-- 戻ってきた range は、受け取った所より前にある。 -/
theorem TabReach.returned_le (h : TabReach C t Q S) (hf : NodeFlow (· ≤ ·) C t j S.trace j (S.view j)) :
    ∀ r ∈ returned (C.id j) t S.trace, r.end_ + 1 ≤ recvTop C t j S.trace j := by
  intro r hr
  obtain ⟨b, hb, hget⟩ := List.mem_filterMap.mp hr
  obtain ⟨k, hk⟩ := (h.received_ok b hb).packed
  have hseg : b.segOf (C.id j) = some r.seg :=
    UpdateBuffer.segOf_mem hk.nodup (hk.getNodeRange_some (C.id_nonneg j) hget)
  have hmem : r.seg ∈ recvSegs C t j S.trace j := List.mem_filterMap.mpr ⟨b, hb, hseg⟩
  exact (hf.recv.mem_bounds hmem).2.2

/--
自分の range を運ぶ buffer が届いた時、登録された batch のうち、その range の終わりに届くものが
queue に残っている。
-/
theorem TabReach.own_range_in_queue {tc : TableConfig V} (h : TabReach C t Q S)
    (htc : (C.tableDir j).lookup t = some tc) (hloop : tc.loop = true)
    (hrun : (S.view j).rRun = true) (hd : C.down u = some j) {b : UpdateBuffer V}
    {rest : List (UpdateBuffer V)} (hch : S.chan u = b :: rest) {rng : UpdateRange}
    (hrng : b.getNodeRange (C.id j) = some rng) :
    (S.view j).my ≠ none ∧ ∃ q ∈ (S.view j).my.getD [], ∀ r, q.getNodeRange (C.id j) = some r →
      rng.end_ ≤ r.end_ := by
  have hb : b ∈ S.chan u := by rw [hch]; exact List.mem_cons_self
  have hok := h.shape.chan u b hb
  obtain ⟨k, hk⟩ := hok.packed
  have hmem := hk.getNodeRange_some (C.id_nonneg j) hrng
  have hpend : rng.st ≤ rng.end_ := of_decide_eq_true (hok.ids _ hmem).2
  -- `j` の range が `j` に届くのは、`u` が `j` から着く時だけである
  have hfeed : C.Feeds j u := h.carry.chan u b hb _ hmem j rfl
  have hflow := h.flow_le (hfeed.singleFeed hd)
  have hlink := hflow.link u j hd hfeed
  rw [hch, List.cons_append, segsOf_cons, UpdateBuffer.segOf_mem hk.nodup hmem] at hlink
  have htop : recvTop C t j S.trace j ≤ rng.st := hlink.1
  have htop0 : 0 ≤ recvTop C t j S.trace j := (hflow.node j).recv.le
  have hbound := (h.cuts.node j).own_bound hok (h.cuts.chan u b hb) hrng
  have hend := (h.shape.node j).st_le_regEnd
  have hchain := (h.nodeReg htc hloop).chain (h.shape.node j) (h.cuts.node j)
  obtain ⟨⟨done, hsplit, hcame⟩, hentry, -⟩ := h.nodeQueue hrun
  -- 全ての batch が `rng` の終わりより前にあれば、登録の終わりもそうなってしまう
  have hcontra : ¬∀ q ∈ (S.view j).my.getD [], ∃ r, q.getNodeRange (C.id j) = some r ∧
      r.end_ < rng.end_ := by
    intro hall
    have hle : (S.view j).regEnd ≤ rng.end_ := by
      refine hchain.end_le (by omega) ?_
      intro s hs
      obtain ⟨r, hr, rfl⟩ := List.mem_map.mp hs
      obtain ⟨q, hq, hget⟩ := List.mem_filterMap.mp hr
      rw [hsplit, List.mem_append] at hq
      show r.end_ + 1 ≤ rng.end_
      rcases hq with hq | hq
      · obtain ⟨r₀, hr₀, r', hr', hc⟩ := hcame q hq
        rw [hget] at hr'
        obtain rfl := Option.some.inj hr'
        have h1 := h.returned_le (hflow.node j) r₀ hr₀
        simp only [UpdateRange.contains, Bool.and_eq_true, decide_eq_true_eq] at hc
        omega
      · obtain ⟨r', hr', hlt⟩ := hall q hq
        rw [hget] at hr'
        obtain rfl := Option.some.inj hr'
        omega
    omega
  constructor
  · refine hentry fun hnil => hcontra ?_
    rw [hnil] at hsplit
    rw [(List.append_eq_nil_iff.mp hsplit.symm).2]
    rintro _ ⟨⟩
  · by_contra hno
    refine hcontra fun q hq => ?_
    by_contra hq'
    refine hno ⟨q, hq, fun r hr => ?_⟩
    by_contra hlt
    exact hq' ⟨r, hr, by omega⟩

end tab

/-! ## 登録の一歩 -/

/-- 登録の出来事があるのは `EMyUpdates` を処理する一歩だけで、RUN なら batch が queue の後ろに入る。 -/
theorem NodeStep.registers [Zero V] {c : NodeConfig V} {ns ns' : NodeState V} {out : NodeOut V}
    {i : NodeInput V} {id : NodeId} {t : TableId} {b : UpdateBuffer V} {pushed : Bool}
    (h : NodeStep c ns i ns' out) (he : .registered id t b pushed ∈ out.events) :
    id = c.myId ∧ out.events = [.registered id t b (decide (ns.recv.state = .run))] ∧
      ns'.recv.myUpdates t = if ns.recv.state = .run then
        some ((ns.recv.myUpdates t).getD [] ++ [b]) else ns.recv.myUpdates t := by
  cases h with
  | @register t' b' rest =>
    simp only [List.mem_singleton, Event.registered.injEq] at he
    obtain ⟨rfl, rfl, rfl, rfl⟩ := he
    refine ⟨rfl, rfl, ?_⟩
    dsimp only [Receiver.onMyUpdates]
    split
    · exact Function.update_self ..
    · rfl
  | record =>
    obtain ⟨r, -, hr⟩ := List.mem_map.mp he
    cases hr
  | _ => simp at he

/-- `i` の receiver が batch `mb` を登録する一歩。RUN なら `my_updates` の後ろに入れ、RUN を出ていれば捨てる。 -/
structure Registers (C : SysConfig Node V) (i : Node) (t : TableId) (mb : UpdateBuffer V)
    (s s' : SysState Node V) : Prop where
  event : s'.trace =
    s.trace ++ [.registered (C.id i) t mb (decide ((s.node i).recv.state = .run))]
  queue : (s'.node i).recv.myUpdates t = if (s.node i).recv.state = .run then
    some (((s.node i).recv.myUpdates t).getD [] ++ [mb]) else (s.node i).recv.myUpdates t

/-! ## system -/

section system

variable [DecidableEq Node] [Zero V] [DecidableEq V] {C : SysConfig Node V} {s : SysState Node V}
  {t : TableId} {i : Node} {tc : TableConfig V}

/-- 履歴の途中にある登録は、それより前の登録の一歩で付け加えられた。 -/
theorem SysReachable.registered_origin (h : SysReachable C s) {pre post : List (Event V)}
    (htr : s.trace = pre ++ post) {mb : UpdateBuffer V} {pushed : Bool}
    (hmem : .registered (C.id i) t mb pushed ∈ pre) :
    ∃ s₁ l s₂, SysReachable C s₁ ∧ sysStep C s₁ l = some (.ok s₂) ∧ Registers C i t mb s₁ s₂ ∧
      Lts.Reachable (sysStep C) s₂ s ∧ s₂.trace <+: pre := by
  have hevents : ∀ s l s', SysReachable C s → sysStep C s l = some (.ok s') →
      ∃ j i ns' out, NodeStep (C.nodeConfig j) (s.node j) i ns' out ∧
        s'.node = Function.update s.node j ns' ∧ s'.trace = s.trace ++ out.events :=
    fun s l s' hr hs => (sysStep_cases hr.kinds hs).node_events
  obtain ⟨pre₁, pre₂, rfl⟩ := List.append_of_mem hmem
  rw [List.append_assoc, List.cons_append] at htr
  obtain ⟨s₁, l, s₂, ev₁, ev₂, hr, hs, hto, hpre, htrace⟩ :=
    Lts.Reachable.origin (f := SysState.trace) rfl (fun s l s' hr hs => by
      obtain ⟨_, _, _, _, -, -, heq⟩ := hevents s l s' hr hs
      exact heq ▸ List.prefix_append _ _) h htr
  obtain ⟨j, _, ns', out, hn, hnode, hout⟩ := hevents s₁ l s₂ hr hs
  have hsplit : out.events = ev₁ ++ .registered (C.id i) t mb pushed :: ev₂ := by
    rw [htrace, ← hpre, List.append_assoc] at hout
    exact (List.append_cancel_left hout).symm
  have hev : .registered (C.id i) t mb pushed ∈ out.events := by
    rw [hsplit]
    exact List.mem_append_right _ List.mem_cons_self
  obtain ⟨hid, hone, hqueue⟩ := hn.registers hev
  obtain rfl : i = j := C.id_injective hid
  refine ⟨s₁, l, s₂, hr, hs, ⟨by rw [hout, hone], ?_⟩, hto, ?_⟩
  · rw [hnode, Function.update_self, hqueue]
  -- この一歩の出来事は登録の一つだけなので、その後の履歴は `pre` の始めの部分である
  · rw [hone] at hsplit
    obtain rfl : ev₂ = [] := by
      cases ev₁ with
      | nil => exact (List.cons.inj hsplit).2.symm
      | cons e ev₁ => simp at hsplit
    rw [htrace]
    exact ⟨pre₂, by simp⟩

/-- 返事の `CHECK` は落ちない。 -/
theorem SysReachable.reply_ok (h : SysReachable C s) (i : Node) :
    sysStep C s (.node i .myUpdatesReply) ≠ some (.error .unexpectedMyUpdatesReply) := by
  intro he
  rw [sysStep, Option.map_eq_some_iff] at he
  obtain ⟨x, hx, he⟩ := he
  rw [nodeStep, nodeStepSelf] at hx
  split at hx
  · next t' buff todo msg rest hpc hq =>
    have hmsg : msg = .eMyUpdatesACK := by
      cases (h.control i).pair with
      | answered _ _ _ _ _ hack =>
        rw [hq] at hack
        exact (List.cons.inj hack).1
      | idle _ _ _ _ _ hack | asked _ _ _ _ _ hack | told _ _ _ _ _ hack | heard _ _ _ _ hack =>
        rw [hq] at hack
        cases hack
    rw [hmsg] at hx
    cases hx
    unfold Propagator.onMyUpdatesReply Propagator.finishFlush at he
    dsimp only at he
    split at he
    · next hfin =>
      cases he
      split at hfin <;> cases hfin
    · cases he
  · cases hx

/-- 自分の range が戻ってきた時、receiver は queue について落ちない。 -/
theorem SysReachable.queue_ok (h : SysReachable C s) (htc : (C.tableDir i).lookup t = some tc)
    (hloop : tc.loop = true) {u : Node} {b : UpdateBuffer V} {rest : List (PropRecvMsg V)}
    (hd : C.down u = some i) (hq : s.tcp u = .eprUpdateBuffer t b :: rest) {e : Fault}
    (he : sysStep C s (.tcp u) = some (.error e)) :
    e ≠ .frontOfEmptyQueue ∧ e ≠ .myUpdatesNotFound := by
  by_contra hno
  have hcase : e = .frontOfEmptyQueue ∨ e = .myUpdatesNotFound := by
    by_contra hne
    exact hno (not_or.mp hne)
  rw [sysStep, hd, hq] at he
  dsimp only at he
  rw [Option.map_eq_some_iff] at he
  obtain ⟨x, hx, he⟩ := he
  rw [nodeStep] at hx
  split at hx
  · cases hx
  · split at hx
    · next e' hh =>
      cases hx
      cases he
      obtain ⟨hrun, rng, hrng, hmy⟩ := Receiver.onUpdateBuffer_error hh hcase
      have hch : (s.tab t).chan u = b :: rest.filterMap (PropRecvMsg.ofTable t) := by
        simp [SysState.tab, hq, PropRecvMsg.ofTable]
      obtain ⟨hne, q, hqm, hle⟩ := (h.tabReach t).own_range_in_queue htc hloop
        (decide_eq_true hrun) hd hch hrng
      rcases hmy with hnone | ⟨queue, vsub, hqueue, hrem⟩
      · exact hne hnone
      · have hqm' : q ∈ queue := by
          have hmy' : ((s.tab t).view i).my = some queue := hqueue
          rwa [hmy', Option.getD_some] at hqm
        obtain ⟨r, hr, hlt⟩ := Receiver.removeMyUpdates_front hrem q hqm'
        have := hle r hr
        omega
    · cases hx
      cases he

/--
**登録してから送る。** `loop_` を立てた table では、

* 送られた batch は、それより前の一歩で receiver が処理し、RUN なら queue に入れ、RUN を出ていれば捨てている。
* `EMyUpdates` と返事は一つずつ対応し、返事の `CHECK` は落ちない。
* receiver が空の queue の先頭を取ることも、table の entry が無くて落ちることもない。
-/
theorem register_before_send (h : SysReachable C s) (htc : (C.tableDir i).lookup t = some tc)
    (hloop : tc.loop = true) :
    (∀ r, s.Carries t (C.id i) r → ∀ bat, r.contains bat = true →
      ∀ pre b post, s.trace = pre ++ .sent (C.id i) t b :: post →
        b.getNodeRange (C.id i) = some bat →
        ∃ mb s₁ l s₂, SysReachable C s₁ ∧ sysStep C s₁ l = some (.ok s₂) ∧
          Registers C i t mb s₁ s₂ ∧ Lts.Reachable (sysStep C) s₂ s ∧ s₂.trace <+: pre ∧
          mb.getNodeRange (C.id i) = some bat) ∧
      RoundState (C.id i) t ((s.node i).tabView t)
        (s.trace.filter (Event.isRound (C.id i) t)) ∧
      sysStep C s (.node i .myUpdatesReply) ≠ some (.error .unexpectedMyUpdatesReply) ∧
      ∀ u b rest e, C.down u = some i → s.tcp u = .eprUpdateBuffer t b :: rest →
        sysStep C s (.tcp u) = some (.error e) → e ≠ .frontOfEmptyQueue ∧ e ≠ .myUpdatesNotFound := by
  have hreg := (h.tabReach t).nodeReg htc hloop
  refine ⟨?_, ?_, h.reply_ok i, fun u b rest e hd hq he => h.queue_ok htc hloop hd hq he⟩
  · intro r _ bat _ pre b post htr hget
    have hsplit : (s.tab t).trace = pre.filter (Event.isOf t) ++
        .sent (C.id i) t b :: post.filter (Event.isOf t) := by
      show s.trace.filter (Event.isOf t) = _
      rw [htr, List.filter_append, List.filter_cons, if_pos (by simp [Event.isOf])]
    have hmem := hreg.order _ _ _ bat hsplit (by rw [Event.batch, if_pos ⟨rfl, rfl⟩]; exact hget)
    rw [regRanges, registered_filter] at hmem
    obtain ⟨mb, hmb, hrange⟩ := List.mem_filterMap.mp hmem
    obtain ⟨e, he, hbuf⟩ := List.mem_filterMap.mp hmb
    cases e with
    | registered k t' b' pushed =>
      simp only [Event.regBuffer] at hbuf
      split at hbuf
      · next hk =>
        cases hbuf
        obtain ⟨s₁, l, s₂, hr, hs, hstep, hto, hpre⟩ :=
          h.registered_origin htr (hk.1 ▸ hk.2 ▸ he)
        exact ⟨mb, s₁, l, s₂, hr, hs, hstep, hto, hpre, hrange⟩
      · cases hbuf
    | inc | logHandled | myUpdatesSent | sent | ackReceived | termAckSent | received
    | recorded => cases hbuf
  · have hr := hreg.rounds
    rw [show (s.tab t).trace = s.trace.filter (Event.isOf t) from rfl, List.filter_filter] at hr
    have heq : s.trace.filter (fun e => Event.isRound (C.id i) t e && Event.isOf t e)
        = s.trace.filter (Event.isRound (C.id i) t) := by
      refine List.filter_congr fun e _ => ?_
      cases e with
      | myUpdatesSent | registered | ackReceived =>
        simp only [Event.isRound, Event.isOf, Bool.and_assoc, Bool.and_self]
      | inc | logHandled | sent | termAckSent | received | recorded => rfl
    rw [heq] at hr
    exact hr

/-- node 0 の batch が channel にある所で、`register_before_send` を使う。 -/
theorem register_before_send_pairRing :
    ∃ s pre b, SysReachable pairRing s ∧ s.Carries 0 (pairRing.id 0) ⟨0, 0⟩ ∧
      s.trace = pre ++ [.sent (pairRing.id 0) 0 b] ∧
      ∃ mb s₁ l s₂, SysReachable pairRing s₁ ∧ sysStep pairRing s₁ l = some (.ok s₂) ∧
        Registers pairRing 0 0 mb s₁ s₂ ∧ Lts.Reachable (sysStep pairRing) s₂ s ∧
        s₂.trace <+: pre ∧ mb.getNodeRange (pairRing.id 0) = some ⟨0, 0⟩ := by
  let buff : UpdateBuffer (BitVec 32) :=
    { updateCapacity := 1, updates := [(1, 1)], slots := [⟨0, 0, 0⟩], updateIter := 0,
      nodeRangeIter := 0 }
  obtain ⟨s, hr, htcp, hlast⟩ : ∃ s, SysReachable pairRing s ∧ .eprUpdateBuffer 0 buff ∈ s.tcp 0 ∧
      s.trace.getLast? = some (.sent (pairRing.id 0) 0 buff) :=
    Lts.Reachable.exists_of_run (incLabels 0 1 1 ++ tickLabels 0 ⟨[(1, 1)], [], [(1, 1)]⟩)
      (by decide +kernel)
  have htc : (pairRing.tableDir 0).lookup 0 = some loopTable := rfl
  have hc : s.Carries 0 (pairRing.id 0) ⟨0, 0⟩ :=
    .channel htcp ⟨⟨0, 0, 0⟩, List.mem_singleton_self _, rfl, rfl⟩
  have htr : s.trace = s.trace.dropLast ++ [.sent (pairRing.id 0) 0 buff] :=
    (List.dropLast_append_getLast? _ hlast).symm
  exact ⟨s, s.trace.dropLast, buff, hr, hc, htr,
    (register_before_send hr htc rfl).1 _ hc ⟨0, 0⟩ rfl _ buff [] htr rfl⟩

end system

end QuiltDB
