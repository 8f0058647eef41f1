import QuiltDB.Properties.Registration
import QuiltDB.Properties.Flow

/-!
# `my_updates` の queue

receiver の queue は、登録された batch の列の後ろの部分である。戻ってきた自分の range を処理すると、
それに含まれる batch が先頭から除かれる。

自分の range だけを運ぶ buffer は早く抜けるので、その batch は queue に残ったままになる。
そのような buffer が届かない run では、queue はまだ戻っていない batch にちょうど一致する。
-/

namespace QuiltDB

open Segments

variable {V Node : Type}

/-! ## batch を除く loop -/

section remove

variable {myId : NodeId} {vsub : V → V → V} {recvRange : UpdateRange}
  {queue queue' : List (UpdateBuffer V)} {seqNum : Int} {b b' : UpdateBuffer V}

/-- 除いた batch は受け取った range に含まれ、最後に除いた batch はその終わりに届く。 -/
theorem Receiver.removeMyUpdates_popped
    (h : removeMyUpdates myId vsub recvRange queue seqNum b = .ok (queue', b')) :
    ∃ popped last lastRange, queue = popped ++ last :: queue' ∧
      last.getNodeRange myId = some lastRange ∧ recvRange.end_ ≤ lastRange.end_ ∧
      ∀ q ∈ popped ++ [last], ∃ r, q.getNodeRange myId = some r ∧ recvRange.contains r = true := by
  induction queue generalizing seqNum b with
  | nil => cases h
  | cons q queue ih =>
    obtain ⟨_, _, range, b₁, hq, hget, hcont, -, -, hcase⟩ := removeMyUpdates_ok_cases h
    obtain ⟨rfl, rfl⟩ := List.cons.inj hq
    rcases hcase with ⟨-, hrec⟩ | ⟨hend, rfl, -⟩
    · obtain ⟨popped, last, lastRange, rfl, hlast, hle, hall⟩ := ih hrec
      refine ⟨q :: popped, last, lastRange, rfl, hlast, hle, ?_⟩
      intro x hx
      rcases List.mem_cons.mp hx with rfl | hx
      · exact ⟨range, hget, hcont⟩
      · exact hall x hx
    · refine ⟨[], q, range, rfl, hget, hend, ?_⟩
      intro x hx
      rw [List.mem_singleton.mp hx]
      exact ⟨range, hget, hcont⟩

/-- 引く loop が空の queue に着くのは、queue の batch が全て受け取った range の終わりより前にある時である。 -/
theorem Receiver.removeMyUpdates_front
    (h : removeMyUpdates myId vsub recvRange queue seqNum b = .error .frontOfEmptyQueue) :
    ∀ q ∈ queue, ∃ r, q.getNodeRange myId = some r ∧ r.end_ < recvRange.end_ := by
  induction queue generalizing seqNum b with
  | nil => rintro _ ⟨⟩
  | cons q queue ih =>
    rw [removeMyUpdates] at h
    split at h
    · cases h
    · next range hget =>
      split at h
      · cases h
      · split at h
        · cases h
        · split at h
          · cases h
          · split at h
            · next e hsub =>
              cases h
              exact absurd hsub (subtractUpdates_error (by decide))
            · split at h
              · next hlt =>
                intro x hx
                rcases List.mem_cons.mp hx with rfl | hx
                · exact ⟨range, hget, hlt⟩
                · exact ih h x hx
              · cases h

end remove

/-! ## 戻ってきた range -/

/-- receiver `id` が受け取った buffer の、自分の range の列。 -/
def returned (id : NodeId) (t : TableId) (trace : List (Event V)) : List UpdateRange :=
  (receivedBy id t trace).filterMap fun b => b.getNodeRange id

/-- batch `b` が、戻ってきた range のどれかに含まれる。 -/
def CameBack (id : NodeId) (rets : List UpdateRange) (b : UpdateBuffer V) : Prop :=
  ∃ r ∈ rets, ∃ rng, b.getNodeRange id = some rng ∧ r.contains rng = true

/-- batch `b` の update はどれも、戻ってきたどの range よりも後である。 -/
def AfterAll (id : NodeId) (rets : List UpdateRange) (b : UpdateBuffer V) : Prop :=
  ∀ r ∈ rets, ∀ rng, b.getNodeRange id = some rng → r.end_ < rng.st

/-- queue についての不変量。receiver が RUN の間だけ意味を持つ。 -/
structure NodeQueue (C : SysConfig Node V) (t : TableId) (trace : List (Event V)) (j : Node)
    (v : TabView V) : Prop where
  /-- queue は登録された batch の後ろの部分で、手前の batch は戻ってきている。 -/
  split : ∃ done, registered (C.id j) t trace = done ++ v.my.getD [] ∧
    ∀ b ∈ done, CameBack (C.id j) (returned (C.id j) t trace) b
  entry : registered (C.id j) t trace ≠ [] → v.my ≠ none
  /-- 戻ってきた range は、送り終えた所より前にある。 -/
  bound : ∀ r ∈ returned (C.id j) t trace, r.end_ < v.pt.myUpdateRange.st

section invariant

variable {C : SysConfig Node V} {t : TableId} {j : Node} {v v' : TabView V}
  {tr ev : List (Event V)} {id : NodeId}

theorem registered_append (id : NodeId) (t : TableId) (tr ev : List (Event V)) :
    registered id t (tr ++ ev) = registered id t tr ++ registered id t ev := by
  simp [registered]

theorem returned_append (id : NodeId) (t : TableId) (tr ev : List (Event V)) :
    returned id t (tr ++ ev) = returned id t tr ++ returned id t ev := by
  simp [returned, receivedBy]

theorem returned_received (id : NodeId) (t : TableId) (b : UpdateBuffer V) :
    returned id t [.received id t b] = (b.getNodeRange id).toList := by
  have h : receivedBy id t [.received id t b] = [b] := by simp [receivedBy, Event.recvBuffer]
  rw [returned, h, List.filterMap_cons]
  cases b.getNodeRange id <;> rfl

theorem CameBack.mono {rets rets' : List UpdateRange} {b : UpdateBuffer V}
    (h : CameBack id rets b) (hsub : ∀ r ∈ rets, r ∈ rets') : CameBack id rets' b := by
  obtain ⟨r, hr, hb⟩ := h
  exact ⟨r, hsub r hr, hb⟩

/-- queue も登録も動かさず、戻ってきた range も増えない一歩。 -/
theorem NodeQueue.quiet (h : NodeQueue C t tr j v) (hmy : v'.my = v.my)
    (hst : v.pt.myUpdateRange.st ≤ v'.pt.myUpdateRange.st)
    (hreg : registered (C.id j) t ev = []) (hret : returned (C.id j) t ev = []) :
    NodeQueue C t (tr ++ ev) j v' := by
  obtain ⟨h1, h2, h3⟩ := h
  refine ⟨?_, ?_, ?_⟩ <;> simp only [registered_append, returned_append, hreg, hret,
    List.append_nil, hmy]
  · exact h1
  · exact h2
  · exact fun r hr => (h3 r hr).trans_le hst

theorem NodeQueue.frame (h : NodeQueue C t tr j v) (hev : ∀ e ∈ ev, e.nodeId ≠ C.id j) :
    NodeQueue C t (tr ++ ev) j v := by
  refine h.quiet rfl le_rfl (regBuffer_local.filterMap_other hev) ?_
  rw [returned, receivedBy_other hev, List.filterMap_nil]

/-- 戻ってきた range が一つ増えた後。`popped` はその時に除いた batch である。 -/
theorem NodeQueue.receive (h : NodeQueue C t tr j v) {b : UpdateBuffer V}
    {popped : List (UpdateBuffer V)} (hmy : v.my.getD [] = popped ++ v'.my.getD [])
    (hentry : v.my ≠ none → v'.my ≠ none) (hpt : v'.pt = v.pt)
    (hpop : ∀ q ∈ popped, CameBack (C.id j) (b.getNodeRange (C.id j)).toList q)
    (hbound : ∀ r, b.getNodeRange (C.id j) = some r → r.end_ < v.pt.myUpdateRange.st) :
    NodeQueue C t (tr ++ [.received (C.id j) t b]) j v' := by
  have hreg : registered (C.id j) t (tr ++ [.received (C.id j) t b]) = registered (C.id j) t tr := by
    rw [registered_append]
    exact List.append_nil _
  obtain ⟨⟨done, hd, hcame⟩, h2, h3⟩ := h
  refine ⟨⟨done ++ popped, ?_, ?_⟩, ?_, ?_⟩
  · rw [hreg, hd, hmy, List.append_assoc]
  · rw [returned_append, returned_received]
    intro q hq
    rcases List.mem_append.mp hq with hq | hq
    · exact (hcame q hq).mono fun r hr => List.mem_append_left _ hr
    · exact (hpop q hq).mono fun r hr => List.mem_append_right _ hr
  · rw [hreg]
    exact fun hne => hentry (h2 hne)
  · rw [returned_append, returned_received, hpt]
    intro r hr
    rcases List.mem_append.mp hr with hr | hr
    · exact h3 r hr
    · exact hbound r (by simpa using hr)

/-- 届いた buffer の自分の range は、送り終えた所より前にある。 -/
theorem NodeCuts.own_bound (h : NodeCuts C t tr j v) {b : UpdateBuffer V} (hb : ChanOk C b)
    (hcut : SlotsOnCuts t tr b) {r : UpdateRange} (hr : b.getNodeRange (C.id j) = some r) :
    r.end_ < v.pt.myUpdateRange.st := by
  obtain ⟨k, hk⟩ := hb.packed
  have hon := hcut.iter _ (hk.getNodeRange_some (C.id_nonneg j) hr)
  have hle := h.own.cut_le hon.2
  dsimp only at hle
  omega

variable [DecidableEq Node] [Zero V] {ib : Option (UpdateBuffer V)} {push : List (UpdateBuffer V)}

theorem NodeQueue.step (hs : NodeShape C j v) (hcuts : NodeCuts C t tr j v)
    (h : NodeQueue C t tr j v) (hib : ∀ b, ib = some b → ChanOk C b ∧ SlotsOnCuts t tr b)
    (he : TabEff (C.nodeConfig j) t v ib v' push ev) (hrun : v'.rRun = true) :
    NodeQueue C t (tr ++ ev) j v' := by
  have hst : v.pt.myUpdateRange.st ≤ v'.pt.myUpdateRange.st := by
    rcases hs.batches_own he with ⟨-, h1⟩ | ⟨-, -, h1⟩
    · exact h1.ge
    · rw [h1]
      exact hs.range
  cases he with
  | skip | inc | log | dropLog | stop | ask | send | reply | dropBuffer =>
    exact h.quiet rfl hst rfl rfl
  | record =>
    refine h.quiet rfl hst (filterMap_recorded (fun _ _ => rfl) _) ?_
    rw [returned, show (C.nodeConfig j).myId = C.id j from rfl, receivedBy_recorded,
      List.filterMap_nil]
  | recvStop => cases hrun
  | discard hr =>
    rw [hr] at hrun
    cases hrun
  | @register b _ _ =>
    have hreg : registered (C.id j) t [.registered (C.nodeConfig j).myId t b v.rRun] = [b] := by
      simp [registered, Event.regBuffer, SysConfig.nodeConfig]
    obtain ⟨⟨done, hd, hcame⟩, h2, h3⟩ := h
    have hret : returned (C.id j) t (tr ++ [.registered (C.nodeConfig j).myId t b v.rRun])
        = returned (C.id j) t tr := by
      rw [returned_append]
      exact List.append_nil _
    rw [if_pos hrun]
    refine ⟨⟨done, ?_, ?_⟩, fun _ => Option.some_ne_none _, ?_⟩
    · rw [registered_append, hreg, hd, Option.getD_some, List.append_assoc]
    · rw [hret]
      exact hcame
    · rw [hret]
      exact h3
  | @noPeer b _ _ =>
    obtain ⟨hok, hcut⟩ := hib b rfl
    exact h.receive (List.nil_append _).symm id rfl (by rintro _ ⟨⟩)
      fun r hr => hcuts.own_bound hok hcut hr
  | @process b b' r r' tc _ _ _ hr hd =>
    obtain ⟨hok, hcut⟩ := hib b rfl
    have hbound : ∀ r, b.getNodeRange (C.id j) = some r → r.end_ < v.pt.myUpdateRange.st :=
      fun r hr => hcuts.own_bound hok hcut hr
    obtain ⟨k, hk⟩ := hok.packed
    rcases Receiver.dedup_spec hk (C.id_nonneg j) hd with ⟨-, rfl, -⟩ |
      ⟨pre, rng, post, queue, queue', b₁, hrs, hq, hrem, hq', -, -⟩
    · have hmy : v.my.getD [] = [] ++ (r'.myUpdates t).getD [] := by
        rw [hr, List.nil_append]
      exact h.receive hmy (by rw [hr]; exact id) rfl (by rintro _ ⟨⟩) hbound
    -- 自分の range が戻り、その中の batch が queue から抜ける
    · obtain ⟨popped, last, lastRange, hpop, -, -, hall⟩ := Receiver.removeMyUpdates_popped hrem
      have hget : b.getNodeRange (C.id j) = some rng :=
        hk.getNodeRange_mem (by rw [hrs]; exact List.mem_append_right _ List.mem_cons_self)
      have hmy : v.my.getD [] = (popped ++ [last]) ++ (r'.myUpdates t).getD [] := by
        rw [← hr, hq, hq', hpop]
        simp
      refine h.receive hmy ?_ rfl ?_ hbound
      · rw [hq']
        exact fun _ => Option.some_ne_none _
      · intro q hqm
        obtain ⟨r₀, h1, h2⟩ := hall q hqm
        exact ⟨rng, by rw [hget]; exact List.mem_singleton_self _, r₀, h1, h2⟩

theorem TabReach.nodeQueue {Q : Node → UpdateBuffer V → Prop} {S : TabSys Node V}
    (h : TabReach C t Q S) (hrun : (S.view j).rRun = true) : NodeQueue C t S.trace j (S.view j) := by
  refine h.invariant (I := fun S => (S.view j).rRun = true → NodeQueue C t S.trace j (S.view j))
    ?_ ?_ hrun
  · intro _
    exact ⟨⟨[], rfl, by rintro _ ⟨⟩⟩, fun h => absurd rfl h, by rintro _ ⟨⟩⟩
  · intro S S' hr hs hi
    refine hs.at_node (I := fun tr v => v.rRun = true → NodeQueue C t tr j v) hi ?_
      fun ev hev hrun => (hi hrun).frame hev
    intro ib v' push ev hib he hrun
    refine (hi (he.run_of_run.2 hrun)).step (hr.shape.node j) (hr.cuts.node j) ?_ he hrun
    intro b hb
    exact ⟨hr.shape.of_delivers hib b hb, hr.cuts.of_delivers hib b hb⟩

end invariant

/-! ## 登録された batch の並び -/

section order

variable {C : SysConfig Node V} {t : TableId} {j : Node} {v v' : TabView V}
  {tr ev : List (Event V)}

/-- 登録された batch の終わり。 -/
def TabView.regEnd (v : TabView V) : Int :=
  if v.pend.isSome && v.reg.isEmpty then v.pt.myUpdateRange.end_ + 1 else v.pt.myUpdateRange.st

/-- 登録された batch は、0 から隙間なく並ぶ。 -/
theorem NodeReg.chain (h : NodeReg C t tr j v) (hs : NodeShape C j v) (hc : NodeCuts C t tr j v) :
    Chain (· = ·) 0 ((regRanges (C.id j) t tr).map UpdateRange.seg) v.regEnd := by
  rw [h.regs, List.map_append, TabView.registering, TabView.regEnd]
  split
  · next hp =>
    cases hb : v.pend with
    | none =>
      rw [hb] at hp
      cases hp
    | some b =>
      have hle : v.pt.myUpdateRange.st ≤ v.pt.myUpdateRange.end_ :=
        of_decide_eq_true (hs.waiting_own hb).2
      exact hc.own.concat rfl (by omega)
  · rw [List.map_nil, List.append_nil]
    exact hc.own

theorem NodeShape.st_le_regEnd (hs : NodeShape C j v) : v.pt.myUpdateRange.st ≤ v.regEnd := by
  unfold TabView.regEnd
  split
  · exact hs.range
  · exact le_rfl

/-- 列の後ろにある batch は、手前の batch より後である。 -/
theorem chain_after {id : NodeId} {l₁ l₂ : List (UpdateBuffer V)} {last : UpdateBuffer V}
    {r : UpdateRange} {e : Int}
    (h : Chain (· = ·) 0 (((l₁ ++ last :: l₂).filterMap fun b => b.getNodeRange id).map
      UpdateRange.seg) e)
    (hlast : last.getNodeRange id = some r) :
    ∀ q ∈ l₂, ∀ rng, q.getNodeRange id = some rng → r.end_ < rng.st := by
  intro q hq rng hrng
  rw [List.filterMap_append, List.filterMap_cons, hlast, List.map_append] at h
  obtain ⟨x, -, hx⟩ := h.split
  have hmem : rng.seg ∈ (l₂.filterMap fun b => b.getNodeRange id).map UpdateRange.seg :=
    List.mem_map_of_mem (List.mem_filterMap.mpr ⟨q, hq, hrng⟩)
  have hb : r.end_ + 1 ≤ rng.st := (hx.2.2.eq_le.mem_bounds hmem).1
  omega

/-- 自分の range だけを運ぶ buffer ではない。 -/
def notOwnOnly (id : NodeId) (b : UpdateBuffer V) : Bool :=
  match b.iterNodeRanges with
  | [(k, _)] => k != id
  | _ => true

theorem notOwnOnly_iff {id : NodeId} {b : UpdateBuffer V} :
    notOwnOnly id b = true ↔ ∀ r, b.iterNodeRanges ≠ [(id, r)] := by
  unfold notOwnOnly
  split
  · next k r₀ h =>
    rw [h]
    simp
  · next h =>
    refine ⟨fun _ r heq => h id r heq, fun _ => rfl⟩

/-- 早く抜ける buffer が自分の range だけを運ぶものでなければ、自分の range は無い。 -/
theorem getNodeRange_none_of_noPeer {b : UpdateBuffer V} (hb : ChanOk C b)
    (h : notOwnOnly (C.id j) b = true) (hno : Receiver.carriesNoPeer (C.id j) b = true) :
    b.getNodeRange (C.id j) = none := by
  obtain ⟨k, hk⟩ := hb.packed
  rcases (UpdateBuffer.carriesNoPeer_iff b (C.id j)).mp hno with hnil | ⟨r, hr⟩
  · rw [hk.getNodeRange_eq (C.id_nonneg j), hnil]
    rfl
  · exact absurd hr (notOwnOnly_iff.mp h r)

variable [DecidableEq Node] [Zero V] {ib : Option (UpdateBuffer V)} {push : List (UpdateBuffer V)}

/-- queue の batch は、どれも戻ってきた range より後にある。 -/
theorem queue_after_step (hs : NodeShape C j v) (hc : NodeCuts C t tr j v)
    (hreg : NodeReg C t tr j v) (hq : NodeQueue C t tr j v)
    (h : ∀ q ∈ v.my.getD [], AfterAll (C.id j) (returned (C.id j) t tr) q)
    (hib : ∀ b, ib = some b → ChanOk C b ∧ notOwnOnly (C.id j) b = true)
    (he : TabEff (C.nodeConfig j) t v ib v' push ev) (hrun : v'.rRun = true) :
    ∀ q ∈ v'.my.getD [], AfterAll (C.id j) (returned (C.id j) t (tr ++ ev)) q := by
  have hnil : returned (C.id j) t ev = [] → returned (C.id j) t (tr ++ ev)
      = returned (C.id j) t tr := fun h => by rw [returned_append, h, List.append_nil]
  cases he with
  | skip | inc | log | dropLog | stop | ask | send | reply | dropBuffer =>
    rw [hnil rfl]
    exact h
  | record =>
    rw [hnil (by rw [returned, show (C.nodeConfig j).myId = C.id j from rfl, receivedBy_recorded,
      List.filterMap_nil])]
    exact h
  | recvStop => cases hrun
  | discard hr =>
    rw [hr] at hrun
    cases hrun
  | @register b _ hr =>
    rw [hnil rfl]
    have hpk := hs.regRange b (by rw [hr]; exact List.mem_singleton_self _)
    intro q hqm
    dsimp only at hqm
    rw [if_pos (show v.rRun = true from hrun), Option.getD_some, List.mem_append] at hqm
    rcases hqm with hqm | hqm
    · exact h q hqm
    · intro r hret rng hrng
      rw [List.mem_singleton.mp hqm, hpk.getNodeRange_mem (List.mem_singleton_self _)] at hrng
      rw [← Option.some.inj hrng]
      exact hq.bound r hret
  | @noPeer b _ hno =>
    obtain ⟨hok, hnot⟩ := hib b rfl
    rw [returned_append, show returned (C.id j) t [.received (C.nodeConfig j).myId t b]
      = (b.getNodeRange (C.id j)).toList from returned_received .., getNodeRange_none_of_noPeer hok hnot hno,
      Option.toList_none, List.append_nil]
    exact h
  | @process b b' r r' tc _ _ _ hr hd =>
    obtain ⟨hok, -⟩ := hib b rfl
    obtain ⟨k, hk⟩ := hok.packed
    rw [returned_append, show returned (C.id j) t [.received (C.nodeConfig j).myId t b]
      = (b.getNodeRange (C.id j)).toList from returned_received ..]
    rcases Receiver.dedup_spec hk (C.id_nonneg j) hd with ⟨hme, rfl, -⟩ |
      ⟨pre, rng, post, queue, queue', b₁, hrs, hqu, hrem, hqu', -, -⟩
    · have hget : b.getNodeRange (C.id j) = none := by
        cases hg : b.getNodeRange (C.id j) with
        | none => rfl
        | some r =>
          exact absurd (List.mem_map_of_mem (hk.getNodeRange_some (C.id_nonneg j) hg)) hme
      rw [hget, Option.toList_none, List.append_nil]
      intro q hqm
      exact h q (by rw [← hr]; exact hqm)
    -- 取り除いた最後の batch は戻った range の終わりで切れるので、残りはその後ろにある
    · obtain ⟨popped, last, lastRange, hpop, hlast, hend, -⟩ :=
        Receiver.removeMyUpdates_popped hrem
      have hget : b.getNodeRange (C.id j) = some rng :=
        hk.getNodeRange_mem (by rw [hrs]; exact List.mem_append_right _ List.mem_cons_self)
      obtain ⟨done, hdone, -⟩ := hq.split
      have hmy : v.my.getD [] = popped ++ last :: queue' := by rw [← hr, hqu, Option.getD_some, hpop]
      have hchain := hreg.chain hs hc
      rw [regRanges, hdone, hmy, ← List.append_assoc] at hchain
      intro q hqm r₀ hr₀ rng' hrng'
      dsimp only at hqm
      rw [hqu', Option.getD_some] at hqm
      rw [hget, Option.toList_some, List.mem_append] at hr₀
      rcases hr₀ with hr₀ | hr₀
      · refine h q ?_ r₀ hr₀ rng' hrng'
        rw [hmy]
        exact List.mem_append_right _ (List.mem_cons_of_mem _ hqm)
      · rw [List.mem_singleton.mp hr₀]
        have hlt := chain_after hchain hlast q hqm rng' hrng'
        omega

/-- 自分の range だけの buffer が届かない run では、queue の batch はまだ戻っていない。 -/
theorem TabReach.queue_after {Q : Node → UpdateBuffer V → Prop} {S : TabSys Node V}
    {tc : TableConfig V} (h : TabReach C t Q S) (hQ : ∀ b, Q j b → notOwnOnly (C.id j) b = true)
    (htc : (C.tableDir j).lookup t = some tc) (hloop : tc.loop = true)
    (hrun : (S.view j).rRun = true) :
    ∀ q ∈ (S.view j).my.getD [], AfterAll (C.id j) (returned (C.id j) t S.trace) q := by
  refine h.invariant (I := fun S => (S.view j).rRun = true → ∀ q ∈ (S.view j).my.getD [],
    AfterAll (C.id j) (returned (C.id j) t S.trace) q) (by rintro _ _ ⟨⟩) ?_ hrun
  intro S S' hr hs hi
  refine hs.at_node (I := fun tr v => v.rRun = true → ∀ q ∈ v.my.getD [],
    AfterAll (C.id j) (returned (C.id j) t tr) q) hi ?_ ?_
  · intro ib v' push ev hib he hrun
    have hrun₀ := he.run_of_run.2 hrun
    refine queue_after_step (hr.shape.node j) (hr.cuts.node j) (hr.nodeReg htc hloop)
      (hr.nodeQueue hrun₀) (hi hrun₀) (fun b hb => ?_) he hrun
    exact ⟨hr.shape.of_delivers hib b hb, hQ b ((hib b hb).2 hrun₀)⟩
  · intro ev hev hrun
    have hret : returned (C.id j) t ev = [] := by
      rw [returned, receivedBy_other hev, List.filterMap_nil]
    rw [returned_append, hret, List.append_nil]
    exact hi hrun

end order

/-! ## まだ戻っていない batch -/

/-- batch `b` は、戻ってきたどの range にも含まれない。 -/
def outstanding (id : NodeId) (rets : List UpdateRange) (b : UpdateBuffer V) : Bool :=
  !rets.any fun r => (b.getNodeRange id).any fun rng => r.contains rng

section outstanding

variable {id : NodeId} {rets : List UpdateRange} {b : UpdateBuffer V}

theorem CameBack.not_outstanding (h : CameBack id rets b) : outstanding id rets b = false := by
  obtain ⟨r, hr, rng, hrng, hc⟩ := h
  rw [outstanding, Bool.not_eq_false', List.any_eq_true]
  exact ⟨r, hr, by rw [hrng]; exact hc⟩

/-- どの戻ってきた range よりも後にあり、空でない batch は、まだ戻っていない。 -/
theorem AfterAll.outstanding (h : AfterAll id rets b) {rng : UpdateRange}
    (hrng : b.getNodeRange id = some rng) (hp : rng.pending = true) :
    outstanding id rets b = true := by
  have hle : rng.st ≤ rng.end_ := of_decide_eq_true hp
  rw [QuiltDB.outstanding, Bool.not_eq_true', List.any_eq_false]
  intro r hr
  have hlt := h r hr rng hrng
  rw [hrng]
  simp only [Option.any_some, UpdateRange.contains, Bool.and_eq_true, decide_eq_true_eq, not_and]
  omega

end outstanding

section system

variable [DecidableEq Node] [Zero V] [DecidableEq V] {C : SysConfig Node V} {s : SysState Node V}
  {t : TableId} {j : Node} {tc : TableConfig V}

/--
**queue の不変量。** 自分の range だけを運ぶ buffer が届かない run では、RUN の receiver の queue は、
登録されてまだ戻っていない batch を sequence number の順にちょうど持つ。
-/
theorem queue_holds_outstanding
    (h : SysReachableUnder C (fun s l => delivers C t notOwnOnly s l = true) s)
    (htc : (C.tableDir j).lookup t = some tc) (hloop : tc.loop = true)
    (hrun : (s.node j).recv.state = .run) :
    ((s.node j).recv.myUpdates t).getD []
        = (registered (C.id j) t s.trace).filter
          (outstanding (C.id j) (returned (C.id j) t s.trace)) ∧
      (∃ a e, Chain (· = ·) a (((((s.node j).recv.myUpdates t).getD []).filterMap
        fun b => b.getNodeRange (C.id j)).map UpdateRange.seg) e) ∧
      ∀ r ∈ returned (C.id j) t s.trace, ∀ q ∈ ((s.node j).recv.myUpdates t).getD [],
        ∀ rng, q.getNodeRange (C.id j) = some rng → r.end_ < rng.st := by
  have htab := h.tabReach_delivers
  have hrun' : ((s.tab t).view j).rRun = true := decide_eq_true hrun
  have hafter := htab.queue_after (fun b hb => hb) htc hloop hrun'
  obtain ⟨done, hsplit, hcame⟩ := (htab.nodeQueue hrun').split
  have hchain := (htab.nodeReg htc hloop).chain (htab.shape.node j) (htab.cuts.node j)
  have hmy : ((s.tab t).view j).my = (s.node j).recv.myUpdates t := rfl
  have hreg : registered (C.id j) t (s.tab t).trace = registered (C.id j) t s.trace :=
    registered_filter ..
  have hret : returned (C.id j) t (s.tab t).trace = returned (C.id j) t s.trace := by
    unfold returned
    rw [show (s.tab t).trace = s.trace.filter (Event.isOf t) from rfl, receivedBy_filter]
  rw [hmy, hret] at hafter
  rw [hreg, hmy] at hsplit
  rw [hret] at hcame
  refine ⟨?_, ?_, fun r hr q hq rng hrng => hafter q hq r hr rng hrng⟩
  · have h1 : done.filter (outstanding (C.id j) (returned (C.id j) t s.trace)) = [] :=
      List.filter_eq_nil_iff.mpr fun b hb => by
        rw [(hcame b hb).not_outstanding]
        exact Bool.false_ne_true
    rw [hsplit, List.filter_append, h1, List.nil_append]
    refine (List.filter_eq_self.mpr fun b hb => ?_).symm
    obtain ⟨r, hpk, hp⟩ := ((htab.shape.node j).my b hb).range
    exact (hafter b hb).outstanding (hpk.getNodeRange_mem (List.mem_singleton_self _)) hp
  · rw [regRanges, hreg, hsplit, List.filterMap_append, List.map_append] at hchain
    obtain ⟨a, -, ha⟩ := hchain.split
    exact ⟨a, _, ha⟩

/-- node 0 の batch が node 1 の batch と一緒に戻った所で、`queue_holds_outstanding` を使う。 -/
theorem queue_outstanding_pairRing :
    ∃ s, SysReachableUnder pairRing (fun s l => delivers pairRing 0 notOwnOnly s l = true) s ∧
      (s.node 0).recv.state = .run ∧ returned (pairRing.id 0) 0 s.trace = [⟨0, 0⟩] ∧
      ((s.node 0).recv.myUpdates 0).getD []
        = (registered (pairRing.id 0) 0 s.trace).filter
          (outstanding (pairRing.id 0) (returned (pairRing.id 0) 0 s.trace)) := by
  let labels : List (SysLabel (Fin 2) (BitVec 32)) := List.flatten
    [incLabels 0 1 1, tickLabels 0 ⟨[(1, 1)], [], [(1, 1)]⟩, [.tcp 0, .node 1 .pullRecv],
      incLabels 1 2 1, tickLabels 1 ⟨[(2, 1), (1, 1)], [(0, ⟨0, 0⟩)], [(2, 1)]⟩, [.tcp 1]]
  obtain ⟨s, hr, hrun, hret⟩ : ∃ s, SysReachableUnder pairRing
      (fun s l => delivers pairRing 0 notOwnOnly s l = true) s ∧
      (s.node 0).recv.state = .run ∧ returned (pairRing.id 0) 0 s.trace = [⟨0, 0⟩] :=
    Lts.ReachableUnder.exists_of_run labels (by decide +kernel)
  have htc : (pairRing.tableDir 0).lookup 0 = some loopTable := rfl
  exact ⟨s, hr, hrun, hret, (queue_holds_outstanding hr htc rfl hrun).1⟩

/--
node 1 が自分の update を持たずに node 0 の batch を送り返すと、node 0 の receiver は早く抜け、
戻ってきた batch が queue に残る。
-/
theorem queue_keeps_returned_batch :
    ∃ s, SysReachable pairRing s ∧
      (∀ j, (s.node j).prop.state = .run ∧ (s.node j).recv.state = .run) ∧
      returned (pairRing.id 0) 0 s.trace = [⟨0, 0⟩] ∧
      ((s.node 0).recv.myUpdates 0).getD []
        ≠ (registered (pairRing.id 0) 0 s.trace).filter
          (outstanding (pairRing.id 0) (returned (pairRing.id 0) 0 s.trace)) := by
  let labels : List (SysLabel (Fin 2) (BitVec 32)) := List.flatten
    [incLabels 0 1 1, tickLabels 0 ⟨[(1, 1)], [], [(1, 1)]⟩, [.tcp 0, .node 1 .pullRecv],
      relayLabels 1 ⟨[(1, 1)], [(0, ⟨0, 0⟩)], []⟩, [.tcp 1]]
  exact Lts.Reachable.exists_of_run labels (by decide +kernel)

end system

end QuiltDB
