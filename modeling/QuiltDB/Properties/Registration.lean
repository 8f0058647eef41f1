import QuiltDB.Properties.Batches

/-!
# 登録してから送る

`loop_` を立てた table では、propagator は batch を `EMyUpdates` で paired receiver に渡し、その返事を
受けてから下流へ送る。そのため、送られた batch は必ずそれより前に登録されている。
-/

namespace QuiltDB

variable {V Node : Type} [DecidableEq Node]

/-! ## 登録の履歴 -/

/-- receiver `id` が処理した `EMyUpdates` の buffer。 -/
def Event.regBuffer (id : NodeId) (t : TableId) : Event V → Option (UpdateBuffer V)
  | .registered k t' b _ => if k = id ∧ t' = t then some b else none
  | _ => none

/-- receiver `id` が処理した `EMyUpdates` の buffer の列。 -/
def registered (id : NodeId) (t : TableId) (trace : List (Event V)) : List (UpdateBuffer V) :=
  trace.filterMap (Event.regBuffer id t)

/-- 登録された buffer の運ぶ、自分の range の列。 -/
def regRanges (id : NodeId) (t : TableId) (trace : List (Event V)) : List UpdateRange :=
  (registered id t trace).filterMap fun b => b.getNodeRange id

/-- 送られた batch は、どれもその前に登録されている。 -/
def RegisteredBefore (id : NodeId) (t : TableId) (trace : List (Event V)) : Prop :=
  ∀ pre e post r, trace = pre ++ e :: post → Event.batch id t e = some r → r ∈ regRanges id t pre

/-- `EMyUpdates` の往復に関わる出来事か。 -/
def Event.isRound (id : NodeId) (t : TableId) : Event V → Bool
  | .myUpdatesSent k t' _ => k == id && t' == t
  | .registered k t' _ _ => k == id && t' == t
  | .ackReceived k t' => k == id && t' == t
  | _ => false

/-- 往復の列。`EMyUpdates` 一つに返事が一つずつ対応する。 -/
inductive Rounds (id : NodeId) (t : TableId) : List (Event V) → Prop
  | nil : Rounds id t []
  | round {l b pushed} : Rounds id t l →
      Rounds id t (l ++ [.myUpdatesSent id t b, .registered id t b pushed, .ackReceived id t])

/-- 往復の列の、途中かもしれない終わり。 -/
inductive RoundState (id : NodeId) (t : TableId) (v : TabView V) : List (Event V) → Prop
  | idle {l} : Rounds id t l → v.pend = none → RoundState id t v l
  | asked {l b} : Rounds id t l → v.pend ≠ none → v.reg = [b] →
      RoundState id t v (l ++ [.myUpdatesSent id t b])
  | answered {l b pushed} : Rounds id t l → v.pend ≠ none → v.reg = [] →
      RoundState id t v (l ++ [.myUpdatesSent id t b, .registered id t b pushed])

/-! ## 不変量 -/

/-- 登録されたが、まだ送られていない batch。 -/
def TabView.registering (v : TabView V) : List UpdateRange :=
  if v.pend.isSome && v.reg.isEmpty then [v.pt.myUpdateRange] else []

structure NodeReg (C : SysConfig Node V) (t : TableId) (trace : List (Event V)) (j : Node)
    (v : TabView V) : Prop where
  /-- 送っていない log があれば、登録する batch も空でない。 -/
  mine : 0 < C.nanosec j → v.pend = none → v.pt.myUpdateRange.pending = true →
    v.pt.myUpdateStore.entries ≠ []
  /-- 登録された batch は、送られた batch と送る直前の一つである。 -/
  regs : regRanges (C.id j) t trace = batches (C.id j) t trace ++ v.registering
  order : RegisteredBefore (C.id j) t trace
  rounds : RoundState (C.id j) t v (trace.filter (Event.isRound (C.id j) t))

variable {C : SysConfig Node V} {t : TableId} {j : Node} {v v' : TabView V}
  {tr ev : List (Event V)} {id : NodeId}

theorem regBuffer_local : Event.Local (V := V) id t (Event.regBuffer id t) := by
  intro e he
  cases e with
  | registered k t' b p =>
    have h : k = id ∧ t' = t := of_not_not fun hne => he (if_neg hne)
    exact ⟨h.1, beq_iff_eq.mpr h.2⟩
  | inc | logHandled | myUpdatesSent | sent | ackReceived | termAckSent | received
  | recorded => exact absurd rfl he

/-- table `t` の出来事だけを見ても、登録された batch の列は同じである。 -/
theorem registered_filter (id : NodeId) (t : TableId) (tr : List (Event V)) :
    registered id t (tr.filter (Event.isOf t)) = registered id t tr :=
  regBuffer_local.filterMap_filter tr

theorem regRanges_append (id : NodeId) (t : TableId) (tr ev : List (Event V)) :
    regRanges id t (tr ++ ev) = regRanges id t tr ++ regRanges id t ev := by
  simp [regRanges, registered]

/-- 新しく送る batch が登録済みなら、順序は保たれる。 -/
theorem RegisteredBefore.append (h : RegisteredBefore id t tr)
    (hev : ∀ r ∈ batches id t ev, r ∈ regRanges id t tr) : RegisteredBefore id t (tr ++ ev) := by
  intro pre e post r heq hr
  rcases List.append_eq_append_iff.mp heq with ⟨l, rfl, hl⟩ | ⟨l, htr, hl⟩
  · have hmem : r ∈ batches id t ev :=
      List.mem_filterMap.mpr ⟨e, by rw [hl]; simp, hr⟩
    rw [regRanges_append]
    exact List.mem_append_left _ (hev r hmem)
  · cases l with
    | nil =>
      rw [List.nil_append] at hl
      rw [List.append_nil] at htr
      have hmem : r ∈ batches id t ev :=
        List.mem_filterMap.mpr ⟨e, by rw [← hl]; simp, hr⟩
      exact htr ▸ hev r hmem
    | cons x l =>
      obtain ⟨rfl, -⟩ := List.cons.inj hl
      exact h pre _ l r htr hr

theorem RoundState.frame {l : List (Event V)} (h : RoundState id t v l) (hpend : v'.pend = v.pend)
    (hreg : v'.reg = v.reg) : RoundState id t v' l := by
  cases h with
  | idle hl hp => exact .idle hl (hpend.trans hp)
  | asked hl hp hr => exact .asked hl (hpend ▸ hp) (hreg.trans hr)
  | answered hl hp hr => exact .answered hl (hpend ▸ hp) (hreg.trans hr)

/-- 往復の間でなければ、どの往復も済んでいる。 -/
theorem RoundState.done {l : List (Event V)} (h : RoundState id t v l) (hpend : v.pend = none) :
    Rounds id t l := by
  cases h with
  | idle hl _ => exact hl
  | asked _ hp _ => exact absurd hpend hp
  | answered _ hp _ => exact absurd hpend hp

/-- 返事を受けると、往復が一つ済む。 -/
theorem RoundState.reply {l : List (Event V)} (h : RoundState id t v l) (hpend : v.pend ≠ none)
    (hreg : v.reg = []) : Rounds id t (l ++ [.ackReceived id t]) := by
  cases h with
  | idle _ hp => exact absurd hp hpend
  | asked _ _ hr =>
    rw [hreg] at hr
    cases hr
  | answered hl _ _ =>
    rw [List.append_assoc]
    exact hl.round

/-- receiver が処理すると、返事を待つだけになる。 -/
theorem RoundState.register {l : List (Event V)} {b : UpdateBuffer V} {pushed : Bool}
    (h : RoundState id t v l) (hpend : v.pend ≠ none) (hreg : v.reg = [b])
    (hpend' : v'.pend = v.pend) (hreg' : v'.reg = []) :
    RoundState id t v' (l ++ [.registered id t b pushed]) := by
  cases h with
  | idle _ hp => exact absurd hp hpend
  | asked hl _ hr =>
    rw [hreg] at hr
    obtain ⟨rfl, -⟩ := List.cons.inj hr
    rw [List.append_assoc]
    exact .answered hl (hpend' ▸ hpend) hreg'
  | answered _ _ hr =>
    rw [hreg] at hr
    cases hr

omit [DecidableEq Node] in
/-- 登録にも送信にも関わらない一歩。 -/
theorem NodeReg.quiet (h : NodeReg C t tr j v) (hpend : v'.pend = v.pend) (hreg : v'.reg = v.reg)
    (hring : v'.registering = v.registering)
    (hmine : 0 < C.nanosec j → v'.pend = none → v'.pt.myUpdateRange.pending = true →
      v'.pt.myUpdateStore.entries ≠ [])
    (hev : ∀ e ∈ ev, e.regBuffer (C.id j) t = none ∧ e.batch (C.id j) t = none ∧
      e.isRound (C.id j) t = false) : NodeReg C t (tr ++ ev) j v' := by
  have h1 : regRanges (C.id j) t ev = [] := by
    have : registered (C.id j) t ev = [] :=
      List.filterMap_eq_nil_iff.mpr fun e he => (hev e he).1
    rw [regRanges, this, List.filterMap_nil]
  have h2 : batches (C.id j) t ev = [] := List.filterMap_eq_nil_iff.mpr fun e he => (hev e he).2.1
  have h3 : ev.filter (Event.isRound (C.id j) t) = [] :=
    List.filter_eq_nil_iff.mpr fun e he => by rw [(hev e he).2.2]; exact Bool.false_ne_true
  refine ⟨hmine, ?_, ?_, ?_⟩
  · rw [regRanges_append, batches_append, h1, h2, List.append_nil, List.append_nil, hring]
    exact h.regs
  · refine h.order.append ?_
    rw [h2]
    rintro _ ⟨⟩
  · rw [List.filter_append, h3, List.append_nil]
    exact h.rounds.frame hpend hreg

/-! ## 一歩で保たれること -/

section step

variable [Zero V] {ib : Option (UpdateBuffer V)} {push : List (UpdateBuffer V)}

omit [DecidableEq Node] [Zero V] in
theorem NodeReg.frame (h : NodeReg C t tr j v) (hev : ∀ e ∈ ev, e.nodeId ≠ C.id j) :
    NodeReg C t (tr ++ ev) j v := by
  refine h.quiet rfl rfl rfl h.mine fun e he => ?_
  have hne := hev e he
  cases e with
  | sent k t' b => exact ⟨rfl, if_neg fun h => hne h.1, rfl⟩
  | registered k t' b p =>
    exact ⟨if_neg fun h => hne h.1, rfl, by simp [Event.isRound, show k ≠ C.id j from hne]⟩
  | myUpdatesSent k t' b => exact ⟨rfl, rfl, by simp [Event.isRound, show k ≠ C.id j from hne]⟩
  | ackReceived k t' => exact ⟨rfl, rfl, by simp [Event.isRound, show k ≠ C.id j from hne]⟩
  | inc | logHandled | termAckSent | received | recorded => exact ⟨rfl, rfl, rfl⟩

/-- log を足した後は、登録する batch が空でない。 -/
theorem addLog_mine {c : NodeConfig V} {pt : PropTable V} {key : Key} {delta : V}
    {tc : TableConfig V} (hn : 0 < c.nanosec) (htc : c.tableDir.lookup t = some tc)
    (hloop : tc.loop = true) : (Propagator.addLog c t pt key delta).myUpdateStore.entries ≠ [] := by
  rw [Propagator.addLog_eq hn htc]
  simp [hloop, Propagator.addUpdate, AList.insert]

theorem NodeReg.step (hs : NodeShape C j v) (h : NodeReg C t tr j v) {tc : TableConfig V}
    (htc : (C.tableDir j).lookup t = some tc) (hloop : tc.loop = true)
    (he : TabEff (C.nodeConfig j) t v ib v' push ev) : NodeReg C t (tr ++ ev) j v' := by
  cases he with
  | skip | inc | dropLog | stop | recvStop | discard | noPeer | process | dropBuffer =>
    exact h.quiet rfl rfl rfl h.mine (by simp [Event.regBuffer, Event.batch, Event.isRound])
  | record =>
    refine h.quiet rfl rfl rfl h.mine fun e he => ?_
    obtain ⟨r, -, rfl⟩ := List.mem_map.mp he
    exact ⟨rfl, rfl, rfl⟩
  | @log l₁ l₂ key delta _ hpend =>
    refine h.quiet rfl rfl ?_ (fun hn _ _ => addLog_mine hn htc hloop)
      (by simp [Event.regBuffer, Event.batch, Event.isRound])
    simp [TabView.registering, hpend]
  | @ask o buff peers myBuff tc' _ hpend hreg hn hv hst hb _ _ hmy hmb =>
    refine ⟨(by rintro _ ⟨⟩), ?_, h.order.append (by rintro _ ⟨⟩), ?_⟩
    · have h1 : regRanges (C.id j) t [.myUpdatesSent (C.nodeConfig j).myId t myBuff] = [] := rfl
      have h2 : batches (C.id j) t [.myUpdatesSent (C.nodeConfig j).myId t myBuff] = [] := rfl
      rw [regRanges_append, batches_append, h.regs, h1, h2]
      simp [TabView.registering, hpend]
    · rw [List.filter_append]
      have hev : [(.myUpdatesSent (C.nodeConfig j).myId t myBuff : Event V)].filter
          (Event.isRound (C.id j) t) = [.myUpdatesSent (C.id j) t myBuff] := by
        simp [Event.isRound, SysConfig.nodeConfig]
      rw [hev]
      exact .asked (h.rounds.done hpend) (Option.some_ne_none _) rfl
  | @send o buff peers _ hpend hn hv hst hb hmine =>
    have hnone : batches (C.id j) t [.sent (C.nodeConfig j).myId t buff] = [] := by
      have hbat := hs.batches_own (.send ‹_› hpend hn hv hst hb hmine)
      -- loop する table では、自分の update があれば登録してから送る
      rcases hbat with ⟨h1, -⟩ | ⟨-, h2, -⟩
      · exact h1
      · exact absurd (hmine tc htc hloop) (h.mine hn hpend h2)
    refine h.quiet rfl rfl ?_ ?_ ?_
    · simp [TabView.registering, hpend]
    · intro _ _ hp
      have hle : v.pt.myUpdateRange.end_ + 1 ≤ v.pt.myUpdateRange.end_ := of_decide_eq_true hp
      omega
    · intro e he
      refine ⟨?_, List.filterMap_eq_nil_iff.mp hnone e he, ?_⟩ <;>
        rw [List.mem_singleton.mp he] <;> rfl
  | @reply buff hrun hpend hreg =>
    have hpr := (hs.waiting_own hpend).2
    have hbat := own_batch_of_pending hpr rfl (hs.batches_own (t := t) (.reply hrun hpend hreg))
    -- 登録は済んでいて、この一歩でその range が送られる
    have hring : v.registering = [v.pt.myUpdateRange] := by
      simp [TabView.registering, hpend, hreg]
    have hregs := h.regs
    rw [hring] at hregs
    refine ⟨?_, ?_, h.order.append ?_, ?_⟩
    · intro _ _ hp
      have hle : v.pt.myUpdateRange.end_ + 1 ≤ v.pt.myUpdateRange.end_ := of_decide_eq_true hp
      omega
    · rw [regRanges_append, batches_append, hregs, hbat]
      simp [TabView.registering, regRanges, registered, Event.regBuffer]
    · intro r hr
      rw [hbat] at hr
      rw [hregs]
      exact List.mem_append_right _ hr
    · have hev : [(.ackReceived (C.nodeConfig j).myId t : Event V),
          .sent (C.nodeConfig j).myId t buff].filter (Event.isRound (C.id j) t)
          = [.ackReceived (C.id j) t] := by
        simp [Event.isRound, SysConfig.nodeConfig]
      rw [List.filter_append, hev]
      exact .idle (h.rounds.reply (by rw [hpend]; exact Option.some_ne_none _) hreg) rfl
  | @register b hpend hreg =>
    have hpk := hs.regRange b (by rw [hreg]; exact List.mem_singleton_self _)
    have h1 : regRanges (C.id j) t [.registered (C.nodeConfig j).myId t b v.rRun]
        = [v.pt.myUpdateRange] := by
      simp [regRanges, registered, Event.regBuffer, SysConfig.nodeConfig,
        hpk.getNodeRange_mem (List.mem_singleton_self _)]
    have h2 : batches (C.id j) t [.registered (C.nodeConfig j).myId t b v.rRun] = [] := rfl
    have h3 : v.registering = [] := by simp [TabView.registering, hreg]
    refine ⟨fun _ hp => absurd hp hpend, ?_, h.order.append (by rintro _ ⟨⟩), ?_⟩
    · rw [regRanges_append, batches_append, h.regs, h1, h2, h3]
      simp [TabView.registering, Option.isSome_iff_ne_none.mpr hpend]
    · have hev : [(.registered (C.nodeConfig j).myId t b v.rRun : Event V)].filter
          (Event.isRound (C.id j) t) = [.registered (C.id j) t b v.rRun] := by
        simp [Event.isRound, SysConfig.nodeConfig]
      rw [List.filter_append, hev]
      exact h.rounds.register hpend hreg rfl rfl

omit [DecidableEq Node] in
theorem NodeReg.start : NodeReg C t [] j ((TabSys.start : TabSys Node V).view j) where
  mine := by rintro _ _ ⟨⟩
  regs := rfl
  order := fun pre _ _ _ h => by cases pre <;> cases h
  rounds := .idle .nil rfl

/-- `loop_` を立てた table では、登録の不変量がいつも成り立つ。 -/
theorem TabReach.nodeReg {Q : Node → UpdateBuffer V → Prop} {S : TabSys Node V} {tc : TableConfig V}
    (h : TabReach C t Q S) (htc : (C.tableDir j).lookup t = some tc) (hloop : tc.loop = true) :
    NodeReg C t S.trace j (S.view j) := by
  refine h.invariant (I := fun S => NodeReg C t S.trace j (S.view j)) NodeReg.start ?_
  intro S S' hr hs hi
  exact hs.at_node (I := fun tr v => NodeReg C t tr j v) hi
    (fun _ _ _ _ _ he => hi.step (hr.shape.node j) htc hloop he) fun _ hev => hi.frame hev

end step

end QuiltDB
