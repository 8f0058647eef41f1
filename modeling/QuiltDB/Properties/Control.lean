import QuiltDB.Properties.SysStep

/-!
# 制御の不変量

node 一つの中で、thread の位置・flag・queue の中身がどう対応するか。node の外から何が届いても
成り立つものだけをここに置く。

* `AppInv` — application の `ShutDown` と propagator
* `TermInv` — application の `ShutDown` と receiver
* `PairInv` — `EMyUpdates` の往復と `EPRInternalTerminate`
* `UpdInv` — `EPRecvInternalTerminateACK`
* `RecvInv` / `PropInv` — それぞれの thread の flag
* `TimerInv` — timer thread と propagator
-/

namespace QuiltDB

variable {V : Type}

/-! ## 定義 -/

/-- `ShutDown` を呼ぶ thread が送って、まだ読まれていない message。 -/
def mainMsgs (q : List (Nat × PropagatorMsg V)) : List (PropagatorMsg V) :=
  (q.filter fun e => e.1 == 0).map Prod.snd

/-- `ShutDown` が propagator に送る `EPInternalTerminate` は、その thread の最後の message である。 -/
inductive AppInv (app : AppPhase) (st : PropagatorState) (q : List (Nat × PropagatorMsg V)) : Prop
  | running : app = .running → st = .run → .epInternalTerminate ∉ mainMsgs q → AppInv app st q
  | signaled {l : List (PropagatorMsg V)} : app ≠ .running → st = .run →
      mainMsgs q = l ++ [.epInternalTerminate] → .epInternalTerminate ∉ l → AppInv app st q
  | handled : app ≠ .running → st ≠ .run → mainMsgs q = [] → AppInv app st q

/-- receiver への `ERInternalTerminate`。 -/
inductive TermInv (app : AppPhase) (st : ReceiverState) (q : List (ReceiverMsg V)) : Prop
  | running : app = .running ∨ app = .signaledProp → st = .run → q = [] → TermInv app st q
  | signaled : app ≠ .running → app ≠ .signaledProp → st = .run → q = [.erInternalTerminate] →
      TermInv app st q
  | handled : app ≠ .running → app ≠ .signaledProp → st ≠ .run → q = [] → TermInv app st q

/-- paired receiver との対話。RUN の間は `EMyUpdates` と返事の高々一往復だけが残っている。 -/
inductive PairInv (st : PropagatorState) (pc : PropagatorPc V) (recvd replied : Bool)
    (pairQ : List (ReceiverMsg V)) (ackQ : List (PropagatorMsg V)) : Prop
  | idle : st = .run → (∀ t b todo, pc ≠ .waitAck t b todo) → recvd = false → replied = false →
      pairQ = [] → ackQ = [] → PairInv st pc recvd replied pairQ ackQ
  | asked {t b todo mb} : st = .run → pc = .waitAck t b todo → recvd = false → replied = false →
      pairQ = [.eMyUpdates t mb] → ackQ = [] → PairInv st pc recvd replied pairQ ackQ
  | answered {t b todo} : st = .run → pc = .waitAck t b todo → recvd = false → replied = false →
      pairQ = [] → ackQ = [.eMyUpdatesACK] → PairInv st pc recvd replied pairQ ackQ
  | told : st ≠ .run → (∀ t b todo, pc ≠ .waitAck t b todo) → recvd = false → replied = false →
      pairQ = [.eprInternalTerminate] → ackQ = [] → PairInv st pc recvd replied pairQ ackQ
  | heard : st ≠ .run → (∀ t b todo, pc ≠ .waitAck t b todo) → recvd = true ∨ replied = true →
      pairQ = [] → ackQ = [] → PairInv st pc recvd replied pairQ ackQ

/-- `EPRecvInternalTerminateACK` は receiver が propagator に送る最後の message である。 -/
inductive UpdInv (replied stopped : Bool) (q : List (PropagatorMsg V)) : Prop
  | before : replied = false → stopped = false → .epRecvInternalTerminateACK ∉ q →
      UpdInv replied stopped q
  | queued {l : List (PropagatorMsg V)} : replied = true → stopped = false →
      q = l ++ [.epRecvInternalTerminateACK] → .epRecvInternalTerminateACK ∉ l →
      UpdInv replied stopped q
  | done : replied = true → stopped = true → q = [] → UpdInv replied stopped q

/-- receiver の flag。 -/
structure RecvInv (r : Receiver V) : Prop where
  run : r.state = .run → r.haveRepliedPropPairTerm = false
  left : r.state ≠ .run → r.haveReceivedPropPairTerm = true → r.haveRepliedPropPairTerm = true
  term : r.state = .term → r.haveRepliedPropPairTerm = true ∧
    Receiver.hasAllPeersAckedTerm r.peerPropInfo = true
  ne_init : r.state ≠ .init

/-- 終了の判定が通る条件。 -/
def Propagator.canExit (p : Propagator V) : Bool :=
  p.haveStoppedTimerThr && p.haveStoppedRecvThr && p.haveRepliedDsTerm

/-- propagator の flag。 -/
structure PropInv (c : NodeConfig V) (p : Propagator V) : Prop where
  returned : p.pc = .returned ↔ p.state = .term
  term : p.state = .term ↔ p.canExit = true
  waitStop : p.pc = .waitStop → p.state = .termPrep
  run : p.state = .run → p.haveStoppedTimerThr = false
  ne_init : p.state ≠ .init
  store : p.state ≠ .run → ∀ t, (p.tab t).updateStore.entries = []
  reply : c.hasDownstream = true →
    (p.haveRepliedDsTerm = true ↔ p.haveReceivedDsTerm = true ∧ p.state ≠ .run)
  noDown : c.hasDownstream = false → p.haveRepliedDsTerm = true

/-- timer thread。間隔が正の時だけ動いている。 -/
inductive TimerInv (c : NodeConfig V) (st : PropagatorState) (pc : PropagatorPc V)
    (stopped : Bool) (timer : TimerThr) (trigQ : List TimerMsg) (cmdQ : List Int) : Prop
  | alive : stopped = false → st = .run ∨ pc = .poll →
      (timer = .sleeping ∧ trigQ = [] ∧ cmdQ = [] ∨
        timer = .waitCmd ∧ trigQ = [.eTimerTrigger] ∧ cmdQ = [] ∨
        timer = .waitCmd ∧ trigQ = [] ∧ cmdQ = [c.nanosec]) →
      TimerInv c st pc stopped timer trigQ cmdQ
  | closing : stopped = false → st = .termPrep → (∃ todo, pc = .flush todo) ∨ pc = .waitStop →
      trigQ = [] → (timer = .waitCmd ∧ cmdQ = [0] ∨ timer = .exited ∧ cmdQ = []) →
      TimerInv c st pc stopped timer trigQ cmdQ
  | stopped : stopped = true → st ≠ .run → pc = .poll ∨ pc = .returned → timer = .exited →
      trigQ = [] → cmdQ = [] → TimerInv c st pc stopped timer trigQ cmdQ

/-- node 一つの制御の不変量。 -/
structure Control (c : NodeConfig V) (ns : NodeState V) : Prop where
  kinds : Kinds ns
  otherThr : ∀ e ∈ ns.appQ, e.2 = .epInternalTerminate → e.1 = 0
  app : AppInv ns.app ns.prop.state ns.appQ
  term : TermInv ns.app ns.recv.state ns.termQ
  pair : PairInv ns.prop.state ns.prop.pc ns.recv.haveReceivedPropPairTerm
    ns.recv.haveRepliedPropPairTerm ns.pairQ ns.ackQ
  upd : UpdInv ns.recv.haveRepliedPropPairTerm ns.prop.haveStoppedRecvThr ns.updQ
  recv : RecvInv ns.recv
  prop : PropInv c ns.prop
  active : ns.prop.pc ≠ .poll → ns.prop.pc ≠ .returned → 0 < c.nanosec
  timer : 0 < c.nanosec → TimerInv c ns.prop.state ns.prop.pc ns.prop.haveStoppedTimerThr ns.timer
    ns.trigQ ns.cmdQ

/-! ## application の queue -/

theorem mainMsgs_append (q : List (Nat × PropagatorMsg V)) (thr : Nat) (m : PropagatorMsg V) :
    mainMsgs (q ++ [(thr, m)]) = mainMsgs q ++ if thr = 0 then [m] else [] := by
  by_cases h : thr = 0 <;> simp [mainMsgs, h]

theorem mainMsgs_take_main {q rest : List (Nat × PropagatorMsg V)} {msg : PropagatorMsg V}
    (h : NodeState.takeApp 0 q = some (msg, rest)) : mainMsgs q = msg :: mainMsgs rest := by
  obtain ⟨l₁, l₂, rfl, rfl, hl⟩ := takeApp_some h
  have h1 : l₁.filter (fun e => e.1 == 0) = [] := by simpa using hl
  simp [mainMsgs, h1]

theorem mainMsgs_take_other {thr : Nat} {q rest : List (Nat × PropagatorMsg V)}
    {msg : PropagatorMsg V} (hthr : thr ≠ 0) (h : NodeState.takeApp thr q = some (msg, rest)) :
    mainMsgs rest = mainMsgs q := by
  obtain ⟨l₁, l₂, rfl, rfl, -⟩ := takeApp_some h
  simp [mainMsgs, hthr]

/-- log を読んでも `EPInternalTerminate` の位置は変わらない。 -/
theorem AppInv.take_log {app : AppPhase} {st : PropagatorState}
    {q rest : List (Nat × PropagatorMsg V)} {thr : Nat} {msg : PropagatorMsg V}
    (h : AppInv app st q) (ht : NodeState.takeApp thr q = some (msg, rest))
    (hm : msg ≠ .epInternalTerminate) : AppInv app st rest := by
  by_cases hthr : thr = 0
  · subst hthr
    have hq := mainMsgs_take_main ht
    cases h with
    | running ha hs hn =>
      refine .running ha hs fun hmem => hn ?_
      rw [hq]
      exact List.mem_cons_of_mem _ hmem
    | @signaled l ha hs hl hn =>
      rw [hq] at hl
      cases l with
      | nil => exact absurd (List.cons.inj hl).1 hm
      | cons m l =>
        exact .signaled ha hs (List.cons.inj hl).2 fun hmem => hn (List.mem_cons_of_mem _ hmem)
    | handled ha hs hn => rw [hq] at hn; cases hn
  · have hq := mainMsgs_take_other hthr ht
    cases h with
    | running ha hs hn => exact .running ha hs (hq ▸ hn)
    | signaled ha hs hl hn => exact .signaled ha hs (hq.trans hl) hn
    | handled ha hs hn => exact .handled ha hs (hq.trans hn)

/-- `EPInternalTerminate` を読めるのは RUN の間だけで、読めば残りは無い。 -/
theorem AppInv.take_term {app : AppPhase} {st : PropagatorState}
    {q rest : List (Nat × PropagatorMsg V)} (h : AppInv app st q)
    (ht : NodeState.takeApp 0 q = some (.epInternalTerminate, rest)) :
    app ≠ .running ∧ st = .run ∧ mainMsgs rest = [] := by
  have hq := mainMsgs_take_main ht
  cases h with
  | running ha hs hn => exact absurd (hq ▸ List.mem_cons_self) hn
  | @signaled l ha hs hl hn =>
    rw [hq] at hl
    cases l with
    | nil => exact ⟨ha, hs, (List.cons.inj hl).2⟩
    | cons m l => exact absurd ((List.cons.inj hl).1 ▸ List.mem_cons_self) hn
  | handled ha hs hn => rw [hq] at hn; cases hn

/-! ## 終了の判定 -/

section exitTest

variable {c : NodeConfig V} {p : Propagator V}

theorem Propagator.exitTest_of_canExit (h : p.canExit = true) :
    p.exitTest = { p with state := .term, pc := .returned } := by
  unfold canExit at h
  rw [exitTest, if_pos h]

theorem Propagator.exitTest_of_not_canExit (h : p.canExit = false) : p.exitTest = p := by
  unfold canExit at h
  rw [exitTest, if_neg (by rw [h]; exact Bool.false_ne_true)]

/-- 判定の二つの結果。 -/
theorem Propagator.exitTest_cases (p : Propagator V) :
    (p.canExit = true ∧ p.exitTest = { p with state := .term, pc := .returned }) ∨
      (p.canExit = false ∧ p.exitTest = p) := by
  cases h : p.canExit with
  | true => exact Or.inl ⟨rfl, exitTest_of_canExit h⟩
  | false => exact Or.inr ⟨rfl, exitTest_of_not_canExit h⟩

/-- TERM_PREP で判定した後も flag の関係は保たれる。 -/
theorem PropInv.exitTest (hpc : p.pc = .poll) (hs : p.state = .termPrep)
    (hst : ∀ t, (p.tab t).updateStore.entries = [])
    (hr : c.hasDownstream = true →
      (p.haveRepliedDsTerm = true ↔ p.haveReceivedDsTerm = true))
    (hn : c.hasDownstream = false → p.haveRepliedDsTerm = true) : PropInv c p.exitTest := by
  rcases p.exitTest_cases with ⟨h, he⟩ | ⟨h, he⟩
  · rw [he]
    refine ⟨by simp, ⟨fun _ => h, fun _ => rfl⟩, by simp, by simp, by simp, fun _ => hst, ?_, hn⟩
    intro hd
    simpa using hr hd
  · rw [he]
    refine ⟨by simp [hpc, hs], by simp [hs, h], by simp [hpc], by simp [hs], by simp [hs],
      fun _ => hst, ?_, hn⟩
    intro hd
    simpa [hs] using hr hd

end exitTest

/-! ## 一歩で保たれること -/

variable {c : NodeConfig V} {ns ns' : NodeState V} {out : NodeOut V} {i : NodeInput V}

/-- poll している propagator は TERM ではない。 -/
theorem PropInv.ne_term {p : Propagator V} (h : PropInv c p) (hpc : p.pc ≠ .returned) :
    p.state ≠ .term := fun hs => hpc (h.returned.mpr hs)

theorem PropInv.termPrep {p : Propagator V} (h : PropInv c p) (hpc : p.pc ≠ .returned)
    (hs : p.state ≠ .run) : p.state = .termPrep := by
  have h1 := h.ne_term hpc
  have h2 := h.ne_init
  cases hp : p.state with
  | init => exact absurd hp h2
  | run => exact absurd hp hs
  | termPrep => rfl
  | term => exact absurd hp h1

/-- RUN を出る時に store は空になるので、update を持つ propagator は RUN である。 -/
theorem PropInv.run_of_store {p : Propagator V} (h : PropInv c p) {t : TableId}
    (hst : (p.tab t).updateStore.entries ≠ []) : p.state = .run := by
  by_contra hne
  exact hst (h.store hne t)

/-- `EPInternalTerminate` を読むのは、`ShutDown` の後の RUN の間である。 -/
theorem Control.take_term (hc : Control c ns) {thr : Nat}
    {rest : List (Nat × PropagatorMsg V)}
    (ht : NodeState.takeApp thr ns.appQ = some (.epInternalTerminate, rest)) :
    ns.app ≠ .running ∧ ns.prop.state = .run ∧ mainMsgs rest = [] := by
  obtain ⟨l₁, l₂, hq, -⟩ := takeApp_some ht
  have hthr : thr = 0 := hc.otherThr (thr, .epInternalTerminate) (by rw [hq]; simp) rfl
  subst hthr
  exact hc.app.take_term ht

/-- 終了の判定は RUN かどうかを変えない。 -/
theorem Propagator.exitTest_state_ne_run {p : Propagator V} (h : p.state ≠ .run) :
    p.exitTest.state ≠ .run := by
  rcases p.exitTest_cases with ⟨-, he⟩ | ⟨-, he⟩
  · rw [he]; rintro ⟨⟩
  · rw [he]; exact h

theorem AppInv.ne_run {app : AppPhase} {st st' : PropagatorState}
    {q : List (Nat × PropagatorMsg V)} (h : AppInv app st q) (hs : st ≠ .run) (hs' : st' ≠ .run) :
    AppInv app st' q := by
  cases h with
  | running _ hr => exact absurd hr hs
  | signaled _ hr => exact absurd hr hs
  | handled ha _ hn => exact .handled ha hs' hn

/-- `EPRecvInternalTerminateACK` が届くのは RUN を出た後である。 -/
theorem Control.ack_state (hc : Control c ns) {rest : List (PropagatorMsg V)}
    (hq : ns.updQ = .epRecvInternalTerminateACK :: rest) :
    ns.recv.haveRepliedPropPairTerm = true ∧ ns.prop.haveStoppedRecvThr = false ∧ rest = [] ∧
      ns.prop.state ≠ .run := by
  have hrep : ns.recv.haveRepliedPropPairTerm = true ∧ ns.prop.haveStoppedRecvThr = false ∧
      rest = [] := by
    cases hc.upd with
    | before _ _ hn => exact absurd (hq ▸ List.mem_cons_self) hn
    | @queued l hr hs hl hn =>
      rw [hq] at hl
      cases l with
      | nil => exact ⟨hr, hs, (List.cons.inj hl).2⟩
      | cons m l => exact absurd ((List.cons.inj hl).1 ▸ List.mem_cons_self) hn
    | done _ _ hn => rw [hq] at hn; cases hn
  refine ⟨hrep.1, hrep.2.1, hrep.2.2, fun hs => ?_⟩
  have hr := hrep.1
  cases hc.pair with
  | idle _ _ _ h' => rw [h'] at hr; cases hr
  | asked _ _ _ h' => rw [h'] at hr; cases hr
  | answered _ _ _ h' => rw [h'] at hr; cases hr
  | told h' => exact h' hs
  | heard h' => exact h' hs

theorem Receiver.exitTest_cases (r : Receiver V) :
    (hasAllPeersAckedTerm r.peerPropInfo = true ∧ r.haveRepliedPropPairTerm = true ∧
      r.exitTest = { r with state := .term }) ∨
    ((hasAllPeersAckedTerm r.peerPropInfo && r.haveRepliedPropPairTerm) = false ∧
      r.exitTest = r) := by
  unfold exitTest
  split
  · next h =>
    rw [Bool.and_eq_true] at h
    exact Or.inl ⟨h.1, h.2, rfl⟩
  · next h => exact Or.inr ⟨Bool.eq_false_iff.mpr h, rfl⟩

theorem Receiver.exitTest_state_ne_run {r : Receiver V} (h : r.state ≠ .run) :
    r.exitTest.state ≠ .run := by
  rcases r.exitTest_cases with ⟨-, -, he⟩ | ⟨-, he⟩
  · rw [he]; rintro ⟨⟩
  · rw [he]; exact h

/-- ACK を受けても RUN かどうかは変わらない。RUN の間は返事を済ませていないからである。 -/
theorem RecvInv.onTerminateACK_state {r : Receiver V} (h : RecvInv r) (id : NodeId) :
    (r.onTerminateACK id).state = .run ↔ r.state = .run := by
  unfold Receiver.onTerminateACK
  rcases Receiver.exitTest_cases { r with peerPropInfo := r.peerPropInfo.insert id true } with
    ⟨-, hr, he⟩ | ⟨-, he⟩
  · rw [he]
    constructor
    · intro hs; cases hs
    · intro hs
      have := h.run hs
      rw [hr] at this
      cases this
  · rw [he]

theorem TermInv.congr_state {app : AppPhase} {st st' : ReceiverState} {q : List (ReceiverMsg V)}
    (h : TermInv app st q) (hs : st' = .run ↔ st = .run) : TermInv app st' q := by
  cases h with
  | running ha h hq => exact .running ha (hs.mpr h) hq
  | signaled ha ha' h hq => exact .signaled ha ha' (hs.mpr h) hq
  | handled ha ha' h hq => exact .handled ha ha' (fun h' => h (hs.mp h')) hq

/-- `ERInternalTerminate` を読むのは RUN の間である。 -/
theorem TermInv.run_of_queued {app : AppPhase} {st : ReceiverState} {m : ReceiverMsg V}
    {q rest : List (ReceiverMsg V)} (h : TermInv app st q) (hq : q = m :: rest) : st = .run := by
  cases h with
  | running _ h => exact h
  | signaled _ _ h => exact h
  | handled _ _ _ h => rw [hq] at h; cases h

theorem Receiver.onMyUpdates_cases (r : Receiver V) (t : TableId) (b : UpdateBuffer V) :
    ∃ mu, (r.onMyUpdates c t b).1 = { r with myUpdates := mu } := by
  unfold onMyUpdates
  dsimp only
  split
  · exact ⟨_, rfl⟩
  · exact ⟨_, rfl⟩

section pair

variable {st st' : PropagatorState} {pc pc' : PropagatorPc V} {recvd replied : Bool}
  {pairQ : List (ReceiverMsg V)} {ackQ : List (PropagatorMsg V)}

/-- 返事を待つのは RUN の間だけである。 -/
theorem PairInv.run_of_wait {t : TableId} {b : UpdateBuffer V} {todo : List TableId}
    (h : PairInv st pc recvd replied pairQ ackQ) (hpc : pc = .waitAck t b todo) : st = .run := by
  cases h with
  | idle h | asked h | answered h => exact h
  | told _ h => exact absurd hpc (h _ _ _)
  | heard _ h => exact absurd hpc (h _ _ _)

/-- 返事が届いた時、対話の queue にはその返事だけがある。 -/
theorem PairInv.pop_ack {t : TableId} {b : UpdateBuffer V} {todo : List TableId}
    {m : PropagatorMsg V} {rest : List (PropagatorMsg V)}
    (h : PairInv st pc recvd replied pairQ ackQ) (hpc : pc = .waitAck t b todo)
    (hq : ackQ = m :: rest) : recvd = false ∧ replied = false ∧ pairQ = [] ∧ rest = [] := by
  cases h with
  | idle _ h => exact absurd hpc (h _ _ _)
  | asked _ _ _ _ _ h => rw [hq] at h; cases h
  | answered _ _ h1 h2 h3 h4 =>
    rw [hq] at h4
    exact ⟨h1, h2, h3, (List.cons.inj h4).2⟩
  | told _ h => exact absurd hpc (h _ _ _)
  | heard _ h => exact absurd hpc (h _ _ _)

/-- `EMyUpdates` が届いた時、propagator はその table の返事を待っている。 -/
theorem PairInv.pop_updates {t : TableId} {b : UpdateBuffer V} {rest : List (ReceiverMsg V)}
    (h : PairInv st pc recvd replied pairQ ackQ) (hq : pairQ = .eMyUpdates t b :: rest) :
    st = .run ∧ (∃ b' todo, pc = .waitAck t b' todo) ∧ recvd = false ∧ replied = false ∧
      rest = [] ∧ ackQ = [] := by
  cases h with
  | asked hs hpc h1 h2 hq' h4 =>
    rw [hq'] at hq
    cases hq
    exact ⟨hs, ⟨_, _, hpc⟩, h1, h2, rfl, h4⟩
  | idle _ _ _ _ hq' | answered _ _ _ _ hq' | told _ _ _ _ hq' | heard _ _ _ hq' =>
    rw [hq'] at hq; cases hq

/-- `EPRInternalTerminate` が届くのは一度だけで、propagator は RUN を出ている。 -/
theorem PairInv.pop_terminate {rest : List (ReceiverMsg V)}
    (h : PairInv st pc recvd replied pairQ ackQ) (hq : pairQ = .eprInternalTerminate :: rest) :
    st ≠ .run ∧ (∀ t b todo, pc ≠ .waitAck t b todo) ∧ replied = false ∧ rest = [] ∧ ackQ = [] := by
  cases h with
  | told hs hpc _ h2 h3 h4 =>
    rw [hq] at h3
    exact ⟨hs, hpc, h2, (List.cons.inj h3).2, h4⟩
  | idle _ _ _ _ h | asked _ _ _ _ h | answered _ _ _ _ h | heard _ _ _ h => rw [hq] at h; cases h

theorem PairInv.ne_run (h : PairInv st pc recvd replied pairQ ackQ) (hs : st ≠ .run) (hs' : st' ≠ .run)
    (hpc : ∀ t b todo, pc' ≠ .waitAck t b todo) : PairInv st' pc' recvd replied pairQ ackQ := by
  cases h with
  | idle h => exact absurd h hs
  | asked h => exact absurd h hs
  | answered h => exact absurd h hs
  | told _ _ h1 h2 h3 h4 => exact .told hs' hpc h1 h2 h3 h4
  | heard _ _ h1 h2 h3 => exact .heard hs' hpc h1 h2 h3

theorem PairInv.move_pc (h : PairInv st pc recvd replied pairQ ackQ) (hpc : ∀ t b todo, pc ≠ .waitAck t b todo)
    (hpc' : ∀ t b todo, pc' ≠ .waitAck t b todo) : PairInv st pc' recvd replied pairQ ackQ := by
  cases h with
  | idle h _ h1 h2 h3 h4 => exact .idle h hpc' h1 h2 h3 h4
  | asked _ h => exact absurd h (hpc _ _ _)
  | answered _ h => exact absurd h (hpc _ _ _)
  | told h _ h1 h2 h3 h4 => exact .told h hpc' h1 h2 h3 h4
  | heard h _ h1 h2 h3 => exact .heard h hpc' h1 h2 h3

/-- RUN で返事を待っていなければ、対話の queue は両方空である。 -/
theorem PairInv.run_idle (h : PairInv st pc recvd replied pairQ ackQ) (hs : st = .run)
    (hpc : ∀ t b todo, pc ≠ .waitAck t b todo) :
    recvd = false ∧ replied = false ∧ pairQ = [] ∧ ackQ = [] := by
  cases h with
  | idle _ _ h1 h2 h3 h4 => exact ⟨h1, h2, h3, h4⟩
  | asked _ h => exact absurd h (hpc _ _ _)
  | answered _ h => exact absurd h (hpc _ _ _)
  | told h => exact absurd hs h
  | heard h => exact absurd hs h

end pair

theorem Propagator.exitTest_pc_ne_waitAck {p : Propagator V} (h : p.pc = .poll) :
    ∀ t b todo, p.exitTest.pc ≠ .waitAck t b todo := by
  intro t b todo
  rcases p.exitTest_cases with ⟨-, he⟩ | ⟨-, he⟩
  · rw [he]; rintro ⟨⟩
  · rw [he, h]; rintro ⟨⟩

/-- RUN の間は、poll に戻るまで propagator が何をしても timer との関係は変わらない。 -/
theorem TimerInv.of_run {st st' : PropagatorState} {pc pc' : PropagatorPc V} {stopped : Bool}
    {timer : TimerThr} {trigQ : List TimerMsg} {cmdQ : List Int}
    (h : TimerInv c st pc stopped timer trigQ cmdQ) (hs : st = .run)
    (h' : st' = .run ∨ pc' = .poll) : TimerInv c st' pc' stopped timer trigQ cmdQ := by
  cases h with
  | alive h1 _ h3 => exact .alive h1 h' h3
  | closing _ h => rw [hs] at h; cases h
  | stopped _ h => exact absurd hs h

/-- timer を止める前の判定は通らず、止めた後の判定は timer に触らない。 -/
theorem TimerInv.exitTest {st : PropagatorState} {pc : PropagatorPc V} {stopped : Bool}
    {timer : TimerThr} {trigQ : List TimerMsg} {cmdQ : List Int} {p : Propagator V}
    (h : TimerInv c st pc stopped timer trigQ cmdQ) (hpc : pc = .poll) (hs : st ≠ .run)
    (hp : p.state = st) (hpp : p.pc = pc) (hstop : p.haveStoppedTimerThr = stopped) :
    TimerInv c p.exitTest.state p.exitTest.pc p.exitTest.haveStoppedTimerThr timer trigQ cmdQ := by
  cases h with
  | alive h1 h2 h3 =>
    have hce : p.canExit = false := by simp [Propagator.canExit, hstop, h1]
    rw [Propagator.exitTest_of_not_canExit hce]
    exact .alive (hstop.trans h1) (Or.inr (hpp.trans hpc)) h3
  | closing _ _ h => rw [hpc] at h; rcases h with ⟨_, h⟩ | h <;> cases h
  | stopped h1 _ _ h4 h5 h6 =>
    have hne : p.state ≠ .run := hp ▸ hs
    refine .stopped ?_ (Propagator.exitTest_state_ne_run hne) ?_ h4 h5 h6
    · rw [Propagator.exitTest_eq]; exact hstop.trans h1
    · rcases p.exitTest_cases with ⟨-, he⟩ | ⟨-, he⟩
      · rw [he]; exact Or.inr rfl
      · rw [he]; exact Or.inl (hpp.trans hpc)

variable [Zero V]

theorem Control.otherThr_step (h : NodeStep c ns i ns' out) (hc : Control c ns) :
    ∀ e ∈ ns'.appQ, e.2 = .epInternalTerminate → e.1 = 0 := by
  have ho := hc.otherThr
  cases h with
  | inc =>
    intro e he hm
    simp only [NodeState.inc] at he
    split at he
    · rcases List.mem_append.mp he with he | he
      · exact ho e he hm
      · rw [List.mem_singleton.mp he] at hm; cases hm
    · exact ho e he hm
  | signalTermProp =>
    intro e he hm
    rcases List.mem_append.mp he with he | he
    · exact ho e he hm
    · rw [List.mem_singleton.mp he]
  | pullLog _ ht | dropLog _ ht | pullTerm _ ht | pullTermReply _ ht =>
    obtain ⟨l₁, l₂, hq, rfl, -⟩ := takeApp_some ht
    exact fun e he => ho e (hq ▸ by simp at he ⊢; tauto)
  | _ => exact ho

theorem Control.app_step (h : NodeStep c ns i ns' out) (hc : Control c ns) :
    AppInv ns'.app ns'.prop.state ns'.appQ := by
  have ha := hc.app
  cases h with
  | @inc thr t key delta tc _ hthr =>
    simp only [NodeState.inc]
    split
    · next hr =>
      cases ha with
      | running ha hs hn =>
        refine .running ha hs ?_
        rw [mainMsgs_append]
        split <;> simp [hn]
      | signaled ha hs hl hn =>
        refine .signaled ha hs ?_ hn
        rw [mainMsgs_append, if_neg (fun ht => ha (hthr ht)), List.append_nil, hl]
      | handled ha hs hn => exact absurd hr hs
    · exact ha
  | signalTermProp happ hs =>
    cases ha with
    | running _ _ hn =>
      refine .signaled (by rintro ⟨⟩) hs ?_ hn
      rw [mainMsgs_append, if_pos rfl]
    | signaled ha => exact absurd happ ha
    | handled ha => exact absurd happ ha
  | signalTermRecv happ | waitTermProp happ | waitTermRecv happ =>
    cases ha with
    | running ha => rw [happ] at ha; cases ha
    | signaled _ hs hl hn => exact .signaled (by rintro ⟨⟩) hs hl hn
    | handled _ hs hn => exact .handled (by rintro ⟨⟩) hs hn
  | timerStopped hpc =>
    have hs : ns.prop.state ≠ .run := by rw [hc.prop.waitStop hpc]; rintro ⟨⟩
    exact ha.ne_run hs (Propagator.exitTest_state_ne_run hs)
  | pullLog _ ht | dropLog _ ht => exact ha.take_log ht (by rintro ⟨⟩)
  | pullTerm _ ht | pullTermReply _ ht =>
    obtain ⟨happ, -, hrest⟩ := hc.take_term ht
    exact .handled happ (by rintro ⟨⟩) hrest
  | pullRecvAck _ hq =>
    have hs := (hc.ack_state hq).2.2.2
    exact ha.ne_run hs (Propagator.exitTest_state_ne_run hs)
  | subTermReply _ hs =>
    have hs' : ns.prop.state ≠ .run := by rw [hs]; rintro ⟨⟩
    exact ha.ne_run hs' (Propagator.exitTest_state_ne_run hs')
  | _ => exact ha

theorem Control.term_step (h : NodeStep c ns i ns' out) (hc : Control c ns) :
    TermInv ns'.app ns'.recv.state ns'.termQ := by
  have ht := hc.term
  cases h with
  | signalTermProp happ =>
    cases ht with
    | running _ hs hq => exact .running (Or.inr rfl) hs hq
    | signaled ha => exact absurd happ ha
    | handled ha => exact absurd happ ha
  | signalTermRecv happ =>
    cases ht with
    | running _ hs hq =>
      exact .signaled (by rintro ⟨⟩) (by rintro ⟨⟩) hs (by simp [hq])
    | signaled _ ha => exact absurd happ ha
    | handled _ ha => exact absurd happ ha
  | waitTermProp happ | waitTermRecv happ =>
    cases ht with
    | running ha => rw [happ] at ha; rcases ha with ha | ha <;> cases ha
    | signaled _ _ hs hq => exact .signaled (by rintro ⟨⟩) (by rintro ⟨⟩) hs hq
    | handled _ _ hs hq => exact .handled (by rintro ⟨⟩) (by rintro ⟨⟩) hs hq
  | @register t b =>
    obtain ⟨mu, hmu⟩ := ns.recv.onMyUpdates_cases (c := c) t b
    rw [hmu]
    exact ht
  | pairTermStop hs _ =>
    have hne : ns.recv.state ≠ .run := by rw [hs]; rintro ⟨⟩
    refine ht.congr_state ⟨fun h => absurd h (Receiver.exitTest_state_ne_run hne), fun h => ?_⟩
    exact absurd h hne
  | recvTerm _ hq =>
    cases ht with
    | running _ _ hq' => rw [hq] at hq'; cases hq'
    | signaled ha ha' _ hq' =>
      rw [hq] at hq'
      exact .handled ha ha' (by rintro ⟨⟩) (List.cons.inj hq').2
    | handled _ _ _ hq' => rw [hq] at hq'; cases hq'
  | tcpAck => exact ht.congr_state (hc.recv.onTerminateACK_state _)
  | _ => exact ht

theorem Control.recv_step (h : NodeStep c ns i ns' out) (hc : Control c ns) :
    RecvInv ns'.recv := by
  have hr := hc.recv
  cases h with
  | @register t b =>
    obtain ⟨mu, hmu⟩ := ns.recv.onMyUpdates_cases (c := c) t b
    rw [hmu]
    exact ⟨hr.run, hr.left, hr.term, hr.ne_init⟩
  | pairTermRun hs _ =>
    exact ⟨hr.run, fun h => absurd hs h, hr.term, hr.ne_init⟩
  | pairTermStop hs _ =>
    rcases Receiver.exitTest_cases { ns.recv with haveRepliedPropPairTerm := true } with
      ⟨ha, -, he⟩ | ⟨-, he⟩
    · rw [he]
      exact ⟨by simp, fun _ _ => rfl, fun _ => ⟨rfl, ha⟩, by simp⟩
    · rw [he]
      exact ⟨by simp [hs], fun _ _ => rfl, by simp [hs], by simp [hs]⟩
  | recvTerm =>
    refine ⟨by simp [Receiver.onInternalTerminate], ?_, by simp [Receiver.onInternalTerminate],
      by simp [Receiver.onInternalTerminate]⟩
    intro _ hrec
    simp only [Receiver.onInternalTerminate] at hrec ⊢
    rw [hrec, Bool.or_true]
  | tcpProcess => exact ⟨hr.run, hr.left, hr.term, hr.ne_init⟩
  | @tcpAck id hs =>
    rcases Receiver.exitTest_cases
        { ns.recv with peerPropInfo := ns.recv.peerPropInfo.insert id true } with
      ⟨ha, hrep, he⟩ | ⟨-, he⟩
    · unfold Receiver.onTerminateACK
      rw [he]
      exact ⟨by simp, fun _ _ => hrep, fun _ => ⟨hrep, ha⟩, by simp⟩
    · unfold Receiver.onTerminateACK
      rw [he]
      exact ⟨hr.run, hr.left, fun h => absurd h hs, hr.ne_init⟩
  | _ => exact hr

theorem Control.pair_step (h : NodeStep c ns i ns' out) (hc : Control c ns) :
    PairInv ns'.prop.state ns'.prop.pc ns'.recv.haveReceivedPropPairTerm
      ns'.recv.haveRepliedPropPairTerm ns'.pairQ ns'.ackQ := by
  have hp := hc.pair
  cases h with
  | timerTrigger hpc =>
    exact hp.move_pc (by rw [hpc]; rintro _ _ _ ⟨⟩) (by rintro _ _ _ ⟨⟩)
  | flushSkip hpc =>
    exact hp.move_pc (by rw [hpc]; rintro _ _ _ ⟨⟩) (by rintro _ _ _ ⟨⟩)
  | @flushRegister o t todo buff peers myBuff hpc _ hst =>
    have hrun := hc.prop.run_of_store hst
    obtain ⟨h1, h2, h3, h4⟩ := hp.run_idle hrun (by rw [hpc]; rintro _ _ _ ⟨⟩)
    have hq : ns.pairQ ++ [.eMyUpdates t myBuff] = [.eMyUpdates t myBuff] := by rw [h3]; rfl
    exact .asked hrun rfl h1 h2 hq h4
  | flushSend hpc =>
    exact hp.move_pc (by rw [hpc]; rintro _ _ _ ⟨⟩) (by rintro _ _ _ ⟨⟩)
  | myUpdatesReply hpc hq =>
    obtain ⟨h1, h2, h3, h4⟩ := hp.pop_ack hpc hq
    exact .idle (hp.run_of_wait hpc) (by rintro _ _ _ ⟨⟩) h1 h2 h3 h4
  | flushEnd hpc =>
    refine hp.move_pc (by rw [hpc]; rintro _ _ _ ⟨⟩) ?_
    intro t b todo
    simp only [Propagator.flushEnd]
    split <;> rintro ⟨⟩
  | timerStopped hpc =>
    have hs : ns.prop.state ≠ .run := by rw [hc.prop.waitStop hpc]; rintro ⟨⟩
    exact hp.ne_run hs (Propagator.exitTest_state_ne_run hs) (Propagator.exitTest_pc_ne_waitAck rfl)
  | pullTerm hpc ht | pullTermReply hpc ht =>
    obtain ⟨-, hrun, -⟩ := hc.take_term ht
    obtain ⟨h1, h2, h3, h4⟩ := hp.run_idle hrun (by rw [hpc]; rintro _ _ _ ⟨⟩)
    exact .told (by rintro ⟨⟩) (by simp [hpc]) h1 h2 (by simp [h3]) h4
  | pullRecvAck hpc hq =>
    have hs := (hc.ack_state hq).2.2.2
    exact hp.ne_run hs (Propagator.exitTest_state_ne_run hs) (Propagator.exitTest_pc_ne_waitAck hpc)
  | subTermReply hpc hs =>
    have hs' : ns.prop.state ≠ .run := by rw [hs]; rintro ⟨⟩
    exact hp.ne_run hs' (Propagator.exitTest_state_ne_run hs')
      (Propagator.exitTest_pc_ne_waitAck hpc)
  | @register t b rest _ hq =>
    obtain ⟨mu, hmu⟩ := ns.recv.onMyUpdates_cases (c := c) t b
    rw [hmu]
    obtain ⟨hs, ⟨b', todo, hpc⟩, h1, h2, h3, h4⟩ := hp.pop_updates hq
    exact .answered hs hpc h1 h2 h3 (by simp [h4])
  | pairTermRun _ hq =>
    obtain ⟨hs, hpc, -, h3, h4⟩ := hp.pop_terminate hq
    exact .heard hs hpc (Or.inl rfl) h3 h4
  | pairTermStop _ hq =>
    rw [Receiver.exitTest_eq]
    obtain ⟨hs, hpc, -, h3, h4⟩ := hp.pop_terminate hq
    exact .heard hs hpc (Or.inr rfl) h3 h4
  | recvTerm =>
    simp only [Receiver.onInternalTerminate]
    -- 既に届いていた `EPRInternalTerminate` には、ここで返事をする
    cases hp with
    | idle hs hpc h1 h2 h3 h4 => exact .idle hs hpc h1 (by simp [h1, h2]) h3 h4
    | asked hs hpc h1 h2 h3 h4 => exact .asked hs hpc h1 (by simp [h1, h2]) h3 h4
    | answered hs hpc h1 h2 h3 h4 => exact .answered hs hpc h1 (by simp [h1, h2]) h3 h4
    | told hs hpc h1 h2 h3 h4 => exact .told hs hpc h1 (by simp [h1, h2]) h3 h4
    | heard hs hpc h1 h2 h3 => exact .heard hs hpc (h1.imp id fun h => by simp [h]) h2 h3
  | tcpAck =>
    simp only [Receiver.onTerminateACK, Receiver.exitTest_eq]
    exact hp
  | _ => exact hp

theorem Control.upd_step (h : NodeStep c ns i ns' out) (hc : Control c ns) :
    UpdInv ns'.recv.haveRepliedPropPairTerm ns'.prop.haveStoppedRecvThr ns'.updQ := by
  have hu := hc.upd
  cases h with
  | timerStopped =>
    simp only [Propagator.onTimerStopped, Propagator.exitTest_eq]
    exact hu
  | record _ hq | dropBuffer _ hq =>
    cases hu with
    | before h1 h2 h3 => exact .before h1 h2 fun h => h3 (hq ▸ List.mem_cons_of_mem _ h)
    | @queued l h1 h2 h3 h4 =>
      rw [hq] at h3
      cases l with
      | nil => cases (List.cons.inj h3).1
      | cons m l =>
        exact .queued h1 h2 (List.cons.inj h3).2 fun h => h4 (List.mem_cons_of_mem _ h)
    | done _ _ h => rw [hq] at h; cases h
  | pullRecvAck _ hq =>
    obtain ⟨h1, -, h3, -⟩ := hc.ack_state hq
    simp only [Propagator.onRecvInternalTerminateACK, Propagator.exitTest_eq]
    exact .done h1 rfl h3
  | subTermReply =>
    simp only [Propagator.exitTest_eq]
    exact hu
  | @register t b =>
    obtain ⟨mu, hmu⟩ := ns.recv.onMyUpdates_cases (c := c) t b
    rw [hmu]
    exact hu
  | pairTermStop _ hq =>
    obtain ⟨-, -, hrep, -⟩ := hc.pair.pop_terminate hq
    rw [Receiver.exitTest_eq]
    cases hu with
    | before h1 h2 h3 => exact .queued rfl h2 rfl h3
    | queued h1 => rw [hrep] at h1; cases h1
    | done h1 => rw [hrep] at h1; cases h1
  | recvTerm hs hq =>
    have hrep := hc.recv.run (hc.term.run_of_queued hq)
    simp only [Receiver.onInternalTerminate, hrep, Bool.false_or]
    cases hu with
    | before h1 h2 h3 =>
      cases hrec : ns.recv.haveReceivedPropPairTerm with
      | false => exact .before rfl h2 (by simpa using h3)
      | true => exact .queued rfl h2 rfl h3
    | queued h1 => rw [hrep] at h1; cases h1
    | done h1 => rw [hrep] at h1; cases h1
  | @tcpProcess t buff tc mu buff' hs =>
    have hrep := hc.recv.run hs
    cases hu with
    -- 渡す buffer は `EPRecvInternalTerminateACK` ではない
    | before h1 h2 h3 =>
      refine .before h1 h2 ?_
      intro h
      rcases List.mem_append.mp h with h | h
      · exact h3 h
      · split at h
        · cases List.mem_singleton.mp h
        · cases h
    | queued h1 => rw [hrep] at h1; cases h1
    | done h1 => rw [hrep] at h1; cases h1
  | tcpAck =>
    simp only [Receiver.onTerminateACK, Receiver.exitTest_eq]
    exact hu
  | _ => exact hu

theorem Control.prop_step (h : NodeStep c ns i ns' out) (hc : Control c ns) :
    PropInv c ns'.prop := by
  have hp := hc.prop
  obtain ⟨h1, h2, h3, h4, h5, h6, h7, h8⟩ := hp
  cases h with
  | timerTrigger hpc =>
    have hne : ns.prop.state ≠ .term := hc.prop.ne_term (by rw [hpc]; rintro ⟨⟩)
    exact ⟨by simp [hne], h2, by simp, h4, h5, h6, h7, h8⟩
  | flushSkip hpc =>
    have hne : ns.prop.state ≠ .term := hc.prop.ne_term (by rw [hpc]; rintro ⟨⟩)
    exact ⟨by simp [hne], h2, by simp, h4, h5, h6, h7, h8⟩
  | @flushRegister o t _ _ _ _ hpc _ hst =>
    have hrun := hc.prop.run_of_store hst
    exact ⟨by simp [hrun], h2, by simp, h4, h5, fun h => absurd hrun h, h7, h8⟩
  | @flushSend o t _ _ _ hpc _ hst =>
    have hrun := hc.prop.run_of_store hst
    exact ⟨by simp [hrun], h2, by simp, h4, h5, fun h => absurd hrun h, h7, h8⟩
  | myUpdatesReply hpc =>
    have hrun := hc.pair.run_of_wait hpc
    exact ⟨by simp [hrun], h2, by simp, h4, h5, fun h => absurd hrun h, h7, h8⟩
  | flushEnd hpc =>
    have hne : ns.prop.state ≠ .term := hc.prop.ne_term (by rw [hpc]; rintro ⟨⟩)
    refine ⟨?_, h2, ?_, h4, h5, h6, h7, h8⟩
    · simp only [Propagator.flushEnd, hne, iff_false]
      split <;> rintro ⟨⟩
    · simp only [Propagator.flushEnd]
      intro h
      split at h
      · assumption
      · cases h
  | timerStopped hpc =>
    have hs := h3 hpc
    have hne : ns.prop.state ≠ .run := by rw [hs]; rintro ⟨⟩
    exact PropInv.exitTest rfl hs (h6 hne) (fun hd => by simpa [hne] using h7 hd) h8
  | pullLog hpc _ hs =>
    exact ⟨h1, h2, h3, h4, h5, fun h => absurd hs h, h7, h8⟩
  | pullTerm hpc ht hr =>
    obtain ⟨-, hrun, -⟩ := hc.take_term ht
    have hstop := h4 hrun
    refine ⟨by simp [hpc], by simp [Propagator.canExit, hstop], by simp, by simp, by simp,
      fun _ t => rfl, ?_, h8⟩
    intro hd
    simpa [hrun, hr] using h7 hd
  | pullTermReply hpc ht hr hd =>
    obtain ⟨-, hrun, -⟩ := hc.take_term ht
    -- timer がまだ動いているので、終了の判定は通らない
    have hstop := h4 hrun
    exact ⟨by simp [hpc], by simp [Propagator.canExit, hstop], by simp, by simp, by simp,
      fun _ t => rfl, by simp [hr], by simp⟩
  | record hpc _ _ hs => exact ⟨h1, h2, h3, h4, h5, fun h => absurd hs h, h7, h8⟩
  | pullRecvAck hpc hq =>
    have hne := (hc.ack_state hq).2.2.2
    have hs := hc.prop.termPrep (by rw [hpc]; rintro ⟨⟩) hne
    exact PropInv.exitTest hpc hs (h6 hne) (fun hd => by simpa [hne] using h7 hd) h8
  | subTerm hpc hs =>
    have hrun : ns.prop.state = .run := by
      by_contra hne
      exact hs (hc.prop.termPrep (by rw [hpc]; rintro ⟨⟩) hne)
    exact ⟨h1, h2, h3, h4, h5, h6, fun hd => by simpa [hrun] using h7 hd, h8⟩
  | subTermReply hpc hs hd =>
    have hne : ns.prop.state ≠ .run := by rw [hs]; rintro ⟨⟩
    exact PropInv.exitTest hpc hs (h6 hne) (by simp) (by simp)
  | _ => exact ⟨h1, h2, h3, h4, h5, h6, h7, h8⟩

theorem Control.timer_step (h : NodeStep c ns i ns' out) (hc : Control c ns)
    (hn : 0 < c.nanosec) :
    TimerInv c ns'.prop.state ns'.prop.pc ns'.prop.haveStoppedTimerThr ns'.timer ns'.trigQ
      ns'.cmdQ := by
  have ht := hc.timer hn
  cases h with
  | timerFire hs =>
    cases ht with
    | alive h1 h2 h3 =>
      rcases h3 with ⟨-, hq, hq'⟩ | ⟨h, -⟩ | ⟨h, -⟩
      · exact .alive h1 h2 (Or.inr (Or.inl ⟨rfl, by simp [hq], hq'⟩))
      · rw [hs] at h; cases h
      · rw [hs] at h; cases h
    | closing _ _ _ _ h => rw [hs] at h; rcases h with ⟨h, -⟩ | ⟨h, -⟩ <;> cases h
    | stopped _ _ _ h => rw [hs] at h; cases h
  | @timerCmd x rest hw hq =>
    cases ht with
    | alive h1 h2 h3 =>
      rcases h3 with ⟨h, -⟩ | ⟨-, -, h⟩ | ⟨-, ht, h⟩
      · rw [hw] at h; cases h
      · rw [hq] at h; cases h
      · rw [hq] at h
        obtain ⟨rfl, rfl⟩ := List.cons.inj h
        exact .alive h1 h2 (Or.inl ⟨if_neg (by omega), ht, rfl⟩)
    | closing h1 h2 h3 h4 h5 =>
      rcases h5 with ⟨-, h⟩ | ⟨h, -⟩
      · rw [hq] at h
        obtain ⟨rfl, rfl⟩ := List.cons.inj h
        exact .closing h1 h2 h3 h4 (Or.inr ⟨rfl, rfl⟩)
      · rw [hw] at h; cases h
    | stopped _ _ _ h => rw [hw] at h; cases h
  | timerTrigger hpc hq =>
    cases ht with
    | alive h1 h2 h3 =>
      rcases h3 with ⟨-, h, -⟩ | ⟨hw, h, hcmd⟩ | ⟨-, h, -⟩
      · rw [hq] at h; cases h
      · rw [hq] at h
        obtain ⟨-, rfl⟩ := List.cons.inj h
        -- RUN なら次の間隔を、そうでなければ終わりの合図を timer に返す
        by_cases hs : ns.prop.state = .run
        · exact .alive h1 (Or.inl hs) (Or.inr (Or.inr ⟨hw, rfl, by simp [hcmd, hs]⟩))
        · have hprep := hc.prop.termPrep (by rw [hpc]; rintro ⟨⟩) hs
          exact .closing h1 hprep (Or.inl ⟨_, rfl⟩) rfl (Or.inl ⟨hw, by simp [hcmd, hs]⟩)
      · rw [hq] at h; cases h
    | closing _ _ h =>
      rw [hpc] at h
      rcases h with ⟨_, h⟩ | h <;> cases h
    | stopped _ _ _ _ h => rw [hq] at h; cases h
  | @flushSkip o t todo hpc =>
    cases ht with
    | alive h1 h2 h3 =>
      rcases h2 with h2 | h2
      · exact .alive h1 (Or.inl h2) h3
      · rw [hpc] at h2; cases h2
    | closing h1 h2 h3 h4 h5 => exact .closing h1 h2 (Or.inl ⟨todo, rfl⟩) h4 h5
    | stopped _ _ h => rw [hpc] at h; rcases h with h | h <;> cases h
  | flushRegister _ _ hst | flushSend _ _ hst =>
    have hrun := hc.prop.run_of_store hst
    exact ht.of_run hrun (Or.inl hrun)
  | myUpdatesReply hpc =>
    have hrun := hc.pair.run_of_wait hpc
    exact ht.of_run hrun (Or.inl hrun)
  | flushEnd hpc =>
    cases ht with
    | alive h1 h2 h3 =>
      rcases h2 with h2 | h2
      · exact .alive h1 (Or.inl h2) h3
      · rw [hpc] at h2; cases h2
    | closing h1 h2 h3 h4 h5 =>
      exact .closing h1 h2 (Or.inr (by simp [Propagator.flushEnd, h2])) h4 h5
    | stopped _ _ h => rw [hpc] at h; rcases h with h | h <;> cases h
  | timerStopped hpc hx =>
    have hs := hc.prop.waitStop hpc
    cases ht with
    | alive _ h =>
      rw [hpc, hs] at h
      rcases h with h | h <;> cases h
    | closing h1 h2 h3 h4 h5 =>
      have hcmd : ns.cmdQ = [] := by
        rcases h5 with ⟨h, -⟩ | ⟨-, h⟩
        · rw [hx] at h; cases h
        · exact h
      have hne : ns.prop.state ≠ .run := by rw [hs]; rintro ⟨⟩
      refine .stopped ?_ (Propagator.exitTest_state_ne_run hne) ?_ hx h4 hcmd
      · simp [Propagator.onTimerStopped, Propagator.exitTest_eq]
      · simp only [Propagator.onTimerStopped, Propagator.exitTest_eq]
        split
        · exact Or.inr rfl
        · exact Or.inl rfl
    | stopped _ _ h => rw [hpc] at h; rcases h with h | h <;> cases h
  | pullTerm hpc htake | pullTermReply hpc htake =>
    obtain ⟨-, hrun, -⟩ := hc.take_term htake
    exact ht.of_run hrun (Or.inr hpc)
  | pullRecvAck hpc hq =>
    have hne := (hc.ack_state hq).2.2.2
    exact ht.exitTest hpc hne rfl rfl rfl
  | subTermReply hpc hs =>
    have hne : ns.prop.state ≠ .run := by rw [hs]; rintro ⟨⟩
    exact ht.exitTest hpc hne rfl rfl rfl
  | _ => exact ht

/-- 間隔が正でなければ、timer の分岐には入らない。 -/
theorem Control.active_step (h : NodeStep c ns i ns' out) (hc : Control c ns) :
    ns'.prop.pc ≠ .poll → ns'.prop.pc ≠ .returned → 0 < c.nanosec := by
  have ha := hc.active
  have hexit : ∀ {p : Propagator V}, p.pc = .poll → p.exitTest.pc ≠ .poll →
      p.exitTest.pc ≠ .returned → 0 < c.nanosec := by
    intro p hpc h1 h2
    rcases p.exitTest_cases with ⟨-, he⟩ | ⟨-, he⟩
    · rw [he] at h2; exact absurd rfl h2
    · rw [he] at h1; exact absurd hpc h1
  cases h with
  | timerTrigger _ _ hn => exact fun _ _ => hn
  | flushSkip hpc | flushRegister hpc | flushSend hpc | myUpdatesReply hpc | flushEnd hpc =>
    exact fun _ _ => ha (by rw [hpc]; rintro ⟨⟩) (by rw [hpc]; rintro ⟨⟩)
  | timerStopped => exact hexit rfl
  | pullRecvAck hpc => exact hexit hpc
  | subTermReply hpc => exact hexit hpc
  | _ => exact ha

/-! ## 到達できる状態 -/

theorem Control.start (c : NodeConfig V) : Control c (NodeState.start c) where
  kinds := Kinds.start c
  otherThr := by simp [NodeState.start]
  app := .running rfl rfl (by simp [NodeState.start, mainMsgs])
  term := .running (Or.inl rfl) rfl rfl
  pair := .idle rfl (by rintro _ _ _ ⟨⟩) rfl rfl rfl rfl
  upd := .before rfl rfl (by simp [NodeState.start])
  recv := by constructor <;> simp [NodeState.start, Receiver.start]
  prop := by
    constructor <;> simp [NodeState.start, Propagator.start, Propagator.canExit]
  active := fun h => absurd rfl h
  timer := fun hn => .alive rfl (Or.inl rfl) (Or.inl ⟨by simp [NodeState.start, hn], rfl, rfl⟩)

theorem Control.step (h : NodeStep c ns i ns' out) (hc : Control c ns) : Control c ns' where
  kinds := hc.kinds.step h
  otherThr := hc.otherThr_step h
  app := hc.app_step h
  term := hc.term_step h
  pair := hc.pair_step h
  upd := hc.upd_step h
  recv := hc.recv_step h
  prop := hc.prop_step h
  active := hc.active_step h
  timer := hc.timer_step h

/-- 到達できるどの状態でも、どの node も制御の不変量を満たす。 -/
theorem SysReachable.control {Node : Type} [DecidableEq Node] [DecidableEq V]
    {C : SysConfig Node V} {s : SysState Node V} (h : SysReachable C s) (j : Node) :
    Control (C.nodeConfig j) (s.node j) :=
  h.node_invariant (fun _ => Control.start _) (fun _ _ _ _ _ hn hi => hi.step hn) j

end QuiltDB
