import QuiltDB.Properties.Flow

/-!
# 止まっていく途中の range の流れ

`Flow (· = ·)` は、どの node も RUN である間だけ成り立つ。`ShutDown` が始まると、RUN を出た receiver は届いた
buffer を捨て、RUN を出た propagator は渡された buffer を捨てるからである。

それでも、捨て始めた所から先へは何も進まない。RUN を出た propagator はもう送らず、RUN を出た receiver はもう
受け取らない。だから、受け取った range の列はどの node でも隙間なく続き、下流のある RUN の node に限れば、途中の
range も隙間なく続く（`LiveFlow`）。下流の無い node は、受け取った buffer を渡さなくてもよい。
-/

namespace QuiltDB

open Segments

variable {V Node : Type}

section live

variable [DecidableEq Node]

/-- `o` の range の流れ。止まった所より先のことは言わない。 -/
structure LiveFlow (C : SysConfig Node V) (t : TableId) (o : Node) (S : TabSys Node V) : Prop where
  recv : ∀ j, Chain (· = ·) 0 (recvSegs C t o S.trace j) (recvTop C t o S.trace j)
  node : ∀ j, C.down j ≠ none → (S.view j).pRun = true → NodeFlow (· = ·) C t o S.trace j (S.view j)
  link : ∀ u d, C.down u = some d → C.Feeds o u → (S.view d).rRun = true →
    Chain (· = ·) (recvTop C t o S.trace d) (segsOf (C.id o) (S.chan u ++ (S.view u).pend.toList))
      ((S.view u).emitted C o u)

omit [DecidableEq Node] in
/-- 下流のある node は、table `t` の受け取った update を渡す。 -/
def ForwardsDown (C : SysConfig Node V) (t : TableId) : Prop :=
  ∀ j tc, C.down j ≠ none → (C.tableDir j).lookup t = some tc → tc.forwardUpdates = true

/-- range を失わない network。自分の slot の後ろに埋まった slot も無い。 -/
structure Relays (C : SysConfig Node V) (t : TableId) (Q : Node → UpdateBuffer V → Prop) : Prop where
  forward : ForwardsDown C t
  own : ∀ d b, Q d b → OwnLast (C.id d) b

variable [Zero V] {C : SysConfig Node V} {t : TableId} {o j : Node} {v v' : TabView V}
  {tr ev : List (Event V)} {ib : Option (UpdateBuffer V)} {push : List (UpdateBuffer V)}
  {Q : Node → UpdateBuffer V → Prop} {S S' : TabSys Node V}

omit [DecidableEq Node] in
/-- RUN を出た propagator は、送らず、送り終えた所も動かさない。 -/
theorem TabEff.stopped {c : NodeConfig V} (h : TabEff c t v ib v' push ev) (hp : v.pRun = false) :
    push = [] ∧ v'.pend = v.pend ∧ v'.pt = v.pt := by
  cases h with
  | skip | inc | dropLog | register | recvStop | discard | noPeer | process
  | dropBuffer => exact ⟨rfl, rfl, rfl⟩
  | log hr | stop hr | ask hr | send hr | reply hr | record hr =>
    rw [hp] at hr
    cases hr

/-- RUN の propagator を持つ node の一歩。receiver が RUN を出ていてもよい。 -/
theorem NodeFlow.live_step (hs : NodeShape C j v) (h : NodeFlow (· = ·) C t o tr j v)
    (hp : v'.pRun = true)
    (hforward : ∀ tc, (C.tableDir j).lookup t = some tc → tc.forwardUpdates = true)
    (hib : ∀ b, ib = some b → v.rRun = true → ChanOk C b ∧ OwnLast (C.id j) b ∧
      ∀ s, b.segOf (C.id o) = some s → recvTop C t o tr j = s.1)
    (he : TabEff (C.nodeConfig j) t v ib v' push ev) : NodeFlow (· = ·) C t o (tr ++ ev) j v' := by
  by_cases hr : v.rRun = true
  · -- どちらの thread も RUN なら、range を失わない一歩である
    have hrun : v.pRun = true := he.run_of_run.1 hp
    exact h.step (fun _ _ h => le_of_eq h) hs
      (Or.inr ⟨hrun, hr, hforward, fun b hb => (hib b hb hr).2.1⟩)
      (fun b hb => ⟨(hib b hb hr).1, (hib b hb hr).2.2⟩) he
  · cases he with
    | skip | inc | dropLog | reply | register | recvStop | discard =>
      exact h.quiet rfl rfl rfl rfl
    | stop => cases hp
    | noPeer hr' | process hr' => exact absurd hr' hr
    | @log _ _ key delta =>
      refine h.quiet ?_ rfl rfl rfl
      rw [TabView.recd, (addLog_range (C.nodeConfig j) t v.pt key delta).2]
      rfl
    | @ask fo buff peers myBuff tc _ _ _ _ hv hst hb =>
      exact h.quiet ((hs.flush hv hst hb).recd _) rfl rfl rfl
    | @send fo buff peers _ _ _ hv hst hb =>
      exact h.quiet ((hs.flush hv hst hb).recd _) rfl rfl rfl
    | record _ _ hf _ hrec => exact h.record hs hf hrec rfl rfl
    | dropBuffer hp' =>
      rw [show v.pRun = true from hp] at hp'
      cases hp'

/-- 送る側の一歩。RUN を出ていれば何も変わらない。 -/
theorem LiveFlow.emit (hs : NodeShape C j v)
    (hnode : v.pRun = true → NodeFlow (· = ·) C t o tr j v) {a : Int} {chan : List (UpdateBuffer V)}
    (h : Chain (· = ·) a (segsOf (C.id o) (chan ++ v.pend.toList)) (v.emitted C o j))
    (he : TabEff (C.nodeConfig j) t v ib v' push ev) :
    Chain (· = ·) a (segsOf (C.id o) (chan ++ push ++ v'.pend.toList)) (v'.emitted C o j) := by
  cases hp : v.pRun with
  | true =>
    exact hs.emit_chain (fun hj b rest s hb hseg => (hnode hp).fwd_head hj hb hseg) h he
  | false =>
    obtain ⟨rfl, hpend, hpt⟩ := he.stopped hp
    rw [List.append_nil, hpend]
    refine h.rel_end (rel_of_eq ?_)
    simp [TabView.emitted, hpend, hpt]

theorem LiveFlow.step_self (hs : Shape C S) (hi : LiveFlow C t o S) (hforward : ForwardsDown C t)
    (he : TabEff (C.nodeConfig j) t (S.view j) none v' push ev) :
    LiveFlow C t o
      { view := Function.update S.view j v'
        chan := Function.update S.chan j (S.chan j ++ push)
        trace := S.trace ++ ev } := by
  refine ⟨fun k => ?_, fun k hne => ?_, fun u d hd hf => ?_⟩
  · dsimp only
    obtain ⟨h1, h2⟩ := recvTop_frame o S.trace (he.receivedBy_nil (C.id k))
    rw [h1, h2]
    exact hi.recv k
  · by_cases hk : k = j
    · subst hk
      simp only [Function.update_self]
      intro hp
      exact (hi.node k hne (he.run_of_run.1 hp)).live_step (hs.node k) hp
        (fun tc => hforward k tc hne) (by rintro _ ⟨⟩) he
    · simp only [Function.update_of_ne hk]
      exact fun hp => (hi.node k hne hp).frame (he.nodeId_ne hk)
  · dsimp only
    intro hr
    have hrun : (S.view d).rRun = true := by
      by_cases hdj : d = j
      · subst hdj
        rw [Function.update_self] at hr
        exact he.run_of_run.2 hr
      · rwa [Function.update_of_ne hdj] at hr
    have hlink := hi.link u d hd hf hrun
    rw [(recvTop_frame _ _ (he.receivedBy_nil (C.id d))).2]
    by_cases hu : u = j
    · subst hu
      simp only [Function.update_self]
      exact LiveFlow.emit (hs.node u) (hi.node u (by rw [hd]; rintro ⟨⟩)) hlink he
    · simp only [Function.update_of_ne hu]
      exact hlink

/-- 届いた buffer を受け取った後の、送り終えた所までの range。`w` が送った側である。 -/
theorem LiveFlow.link_recv (hc : Carry C S) (hsf : C.SingleFeed o) (hi : LiveFlow C t o S)
    {w d u d' : Node} {b : UpdateBuffer V} {rest : List (UpdateBuffer V)} (hd : C.down w = some d)
    (hch : S.chan w = b :: rest) (hd' : C.down u = some d') (hf : C.Feeds o u)
    (hr : (S.view d').rRun = true)
    (he : TabEff (C.nodeConfig d) t (S.view d) (some b) v' [] ev) :
    Chain (· = ·) (recvTop C t o (S.trace ++ ev) d')
      (segsOf (C.id o) (Function.update S.chan w rest u ++ (S.view u).pend.toList))
      ((S.view u).emitted C o u) := by
  have hlink := hi.link u d' hd' hf hr
  obtain ⟨-, -, hev⟩ := he.recv_cases
  by_cases hdd : d' = d
  · subst hdd
    obtain ⟨-, rfl⟩ | ⟨hr', -⟩ := hev
    · rw [recvTop, recvSegs_append, show recvSegs C t o [.received (C.nodeConfig d').myId t b] d'
        = (b.segOf (C.id o)).toList from recvSegs_received]
      by_cases hu : u = w
      · -- 受け取った range の分だけ、受け取った所が進む
        subst hu
        rw [hch, List.cons_append, segsOf_cons] at hlink
        rw [Function.update_self]
        cases hseg : b.segOf (C.id o) with
        | none =>
          rw [hseg] at hlink
          rw [Option.toList_none, List.append_nil]
          exact hlink
        | some s =>
          rw [hseg] at hlink
          rw [Option.toList_some, topOf_concat]
          exact hlink.2.2
      · -- `o` の range は `u` からしか来ないので、`w` の buffer は運んでいない
        have hnone : b.segOf (C.id o) = none := by
          cases hseg : b.segOf (C.id o) with
          | none => rfl
          | some s =>
            obtain ⟨r, hrng, -⟩ := UpdateBuffer.segOf_some hseg
            have hfeed := hc.chan w b (by rw [hch]; exact List.mem_cons_self) _ hrng o rfl
            exact absurd (hsf u w d' hf hfeed hd' hd) hu
        rw [Function.update_of_ne hu, hnone, Option.toList_none, List.append_nil]
        exact hlink
    · rw [hr] at hr'
      cases hr'
  · have hu : u ≠ w := by
      rintro rfl
      exact hdd (Option.some.inj (hd'.symm.trans hd))
    rw [Function.update_of_ne hu, (recvTop_frame _ _ (receivedBy_other (he.nodeId_ne hdd))).2]
    exact hlink

theorem LiveFlow.step_recv (hs : Shape C S) (hc : Carry C S) (hsf : C.SingleFeed o)
    (hi : LiveFlow C t o S) (hq : Relays C t Q) {w d : Node} {b : UpdateBuffer V}
    {rest : List (UpdateBuffer V)} (hd : C.down w = some d) (hch : S.chan w = b :: rest)
    (hqb : (S.view d).rRun = true → Q d b)
    (he : TabEff (C.nodeConfig d) t (S.view d) (some b) v' [] ev) :
    LiveFlow C t o
      { view := Function.update S.view d v'
        chan := Function.update S.chan w rest
        trace := S.trace ++ ev } := by
  have hb : b ∈ S.chan w := by rw [hch]; exact List.mem_cons_self
  have hok := hs.chan w b hb
  -- RUN の receiver に届いた range は、受け取った所の続きである
  have hnext : (S.view d).rRun = true → ∀ s, b.segOf (C.id o) = some s →
      recvTop C t o S.trace d = s.1 := by
    intro hr s hseg
    obtain ⟨r, hrng, -⟩ := UpdateBuffer.segOf_some hseg
    have hlink := hi.link w d hd (hc.chan w b hb _ hrng o rfl) hr
    rw [hch, List.cons_append, segsOf_cons, hseg] at hlink
    exact hlink.1
  obtain ⟨hpend, hpt, hev⟩ := he.recv_cases
  refine ⟨fun k => ?_, fun k hne => ?_, fun u d' hd' hf => ?_⟩
  · dsimp only
    by_cases hk : k = d
    · subst hk
      rcases hev with ⟨hr, rfl⟩ | ⟨-, rfl⟩
      · rw [recvTop, recvSegs_append, show recvSegs C t o [.received (C.nodeConfig k).myId t b] k
          = (b.segOf (C.id o)).toList from recvSegs_received]
        exact chain_topOf (hi.recv k) fun s hseg => ⟨hnext hr s hseg, hok.segOf_lt hseg⟩
      · rw [List.append_nil]
        exact hi.recv k
    · obtain ⟨h1, h2⟩ := recvTop_frame o S.trace (receivedBy_other (he.nodeId_ne hk))
      rw [h1, h2]
      exact hi.recv k
  · by_cases hk : k = d
    · subst hk
      simp only [Function.update_self]
      intro hp
      refine (hi.node k hne (he.run_of_run.1 hp)).live_step (hs.node k) hp
        (fun tc => hq.forward k tc hne) ?_ he
      rintro _ ⟨⟩ hr
      exact ⟨hok, hq.own k b (hqb hr), hnext hr⟩
    · simp only [Function.update_of_ne hk]
      exact fun hp => (hi.node k hne hp).frame (he.nodeId_ne hk)
  · dsimp only
    intro hr
    have hrun : (S.view d').rRun = true := by
      by_cases hdd : d' = d
      · subst hdd
        rw [Function.update_self] at hr
        exact he.run_of_run.2 hr
      · rwa [Function.update_of_ne hdd] at hr
    -- 受け取る一歩は、送る側の状態を変えない
    have hsame : (Function.update S.view d v' u).pend = (S.view u).pend ∧
        (Function.update S.view d v' u).emitted C o u = (S.view u).emitted C o u := by
      by_cases hu : u = d
      · subst hu
        simp [TabView.emitted, hpend, hpt]
      · simp [Function.update_of_ne hu]
    rw [hsame.1, hsame.2]
    exact hi.link_recv hc hsf hd hch hd' hf hrun he

theorem LiveFlow.start : LiveFlow C t o (TabSys.start : TabSys Node V) := by
  have h : Flow (· = ·) C t o (TabSys.start : TabSys Node V) := Flow.start
  exact ⟨fun j => (h.node j).recv, fun j _ _ => h.node j, fun u d hd hf _ => h.link u d hd hf⟩

/-- **受け取った range の列は、止まっていく途中でも隙間なく続く。** -/
theorem TabReach.liveFlow (h : TabReach C t Q S) (hsf : C.SingleFeed o) (hq : Relays C t Q) :
    LiveFlow C t o S := by
  refine h.invariant .start fun S S' hr hs hi => ?_
  cases hs with
  | self he => exact hi.step_self hr.shape hq.forward he
  | recv hd hch hqb he => exact hi.step_recv hr.shape hr.carry hsf hq hd hch hqb he

end live

end QuiltDB
