import QuiltDB.Lib.Slices
import QuiltDB.Properties.Agreement
import QuiltDB.Properties.Registration

/-!
# 登録した batch の中身

`loop_` を立てた table では、propagator は自分の log を `my_update_store` にも足し、flush の時に batch として
paired receiver に渡す。だから登録された batch の update の和は、その range の log の和に等しい。

receiver が戻ってきた buffer から引くのは、この batch の update である。
-/

namespace QuiltDB

open Segments Totals Slices

variable {V Node : Type} [AddCommMonoid V] {C : SysConfig Node V} {t : TableId} {j : Node}
  {v v' : TabView V} {tr ev : List (Event V)} {b : UpdateBuffer V}

/-! ## 不変量 -/

/-- まだ送っていない自分の range。送る buffer に載せた後は無い。 -/
def TabView.ownSeg (v : TabView V) : Option (Int × Int) :=
  if v.pend.isSome then none else some v.pt.myUpdateRange.seg

/-- batch の update の和は、その range の log の和である。 -/
def OwnFaithful (C : SysConfig Node V) (t : TableId) (trace : List (Event V)) (j : Node)
    (b : UpdateBuffer V) : Prop :=
  ∀ r, b.getNodeRange (C.id j) = some r →
    total b.updates = slice (logsOf (C.id j) t trace) r.seg ∧
      r.end_ + 1 ≤ (logsOf (C.id j) t trace).length

structure NodeOwn (C : SysConfig Node V) (t : TableId) (trace : List (Event V)) (j : Node)
    (v : TabView V) : Prop where
  /-- `my_update_store` には、まだ送っていない log がある。 -/
  store : v.pRun = true → content v.pt.myUpdateStore = piece (logsOf (C.id j) t trace) v.ownSeg
  reg : ∀ b ∈ v.reg, OwnFaithful C t trace j b
  my : ∀ b ∈ v.my.getD [], OwnFaithful C t trace j b

theorem OwnFaithful.append (h : OwnFaithful C t tr j b) (ev : List (Event V)) :
    OwnFaithful C t (tr ++ ev) j b := by
  intro r hr
  obtain ⟨h1, h2⟩ := h r hr
  refine ⟨?_, ?_⟩
  · rw [h1, logsOf_append, slice_append _ h2]
  · rw [logsOf_append, List.length_append]
    omega

omit [AddCommMonoid V] in
theorem ownSeg_of_none (h : v.pend = none) : v.ownSeg = some v.pt.myUpdateRange.seg := by
  rw [TabView.ownSeg, h]
  rfl

omit [AddCommMonoid V] in
theorem ownSeg_of_some (h : v.pend = some b) : v.ownSeg = none := by
  rw [TabView.ownSeg, h]
  rfl

theorem content_of_entries_nil {m : AList fun _ : Key => V} (h : m.entries = []) :
    content m = 0 := by
  rw [show m = ∅ from AList.ext h, content_empty]

/-- log も store も動かさない一歩。 -/
theorem NodeOwn.quiet (h : NodeOwn C t tr j v) (hlogs : logsOf (C.id j) t ev = [])
    (hreg : ∀ b ∈ v'.reg, b ∈ v.reg) (hmy : ∀ b ∈ v'.my.getD [], b ∈ v.my.getD [] ∨ b ∈ v.reg)
    (hstore : v'.pRun = true → v.pRun = true ∧ v'.pt.myUpdateStore = v.pt.myUpdateStore ∧
      v'.ownSeg = v.ownSeg) : NodeOwn C t (tr ++ ev) j v' := by
  refine ⟨fun hr => ?_, fun b hb => (h.reg b (hreg b hb)).append ev, fun b hb => ?_⟩
  · obtain ⟨h1, h2, h3⟩ := hstore hr
    rw [h2, h3, logsOf_append, hlogs, List.append_nil]
    exact h.store h1
  · rcases hmy b hb with hb | hb
    · exact (h.my b hb).append ev
    · exact (h.reg b hb).append ev

variable [DecidableEq Node] {tc : TableConfig V} {ib : Option (UpdateBuffer V)}
  {push : List (UpdateBuffer V)}

omit [DecidableEq Node] in
/-- log を一つ処理した後の、まだ送っていない log の和。 -/
theorem slice_addLog (hs : NodeShape C j v) (ht : NodeTally C t tr j v) (key : Key) (delta : V) :
    slice (logsOf (C.id j) t tr ++ [(key, delta)])
        (v.pt.myUpdateRange.st, v.pt.myUpdateRange.end_ + 1 + 1)
      = slice (logsOf (C.id j) t tr) v.pt.myUpdateRange.seg + Pi.single key delta := by
  have hlen := ht.length
  have hle := hs.range
  rw [← hlen, slice_concat (key, delta) (by omega), hlen]
  rfl

theorem NodeOwn.step (hs : NodeShape C j v) (ht : NodeTally C t tr j v) (h : NodeOwn C t tr j v)
    (hn : 0 < C.nanosec j) (htc : (C.tableDir j).lookup t = some tc) (hloop : tc.loop = true)
    (hadd : tc.vaddFunc = (· + ·)) (hib : ∀ b, ib = some b → ChanOk C b)
    (he : TabEff (C.nodeConfig j) t v ib v' push ev) : NodeOwn C t (tr ++ ev) j v' := by
  cases he with
  | skip | inc | discard | noPeer | dropBuffer =>
    exact h.quiet rfl (fun _ hb => hb) (fun _ hb => Or.inl hb) fun hr => ⟨hr, rfl, rfl⟩
  | record =>
    exact h.quiet (recorded_ledger _ _).2 (fun _ hb => hb) (fun _ hb => Or.inl hb)
      fun hr => ⟨hr, rfl, rfl⟩
  | dropLog => exact h.quiet rfl (fun _ hb => hb) (fun _ hb => Or.inl hb) fun hr => ⟨hr, rfl, rfl⟩
  | stop => exact h.quiet rfl (fun _ hb => hb) (fun _ hb => Or.inl hb) (by rintro ⟨⟩)
  | recvStop =>
    refine h.quiet rfl (fun _ hb => hb) (fun b hb => ?_) fun hr => ⟨hr, rfl, rfl⟩
    cases hm : v.my <;> simp [hm] at hb
  | @register b _ hreg =>
    refine h.quiet rfl (by rintro _ ⟨⟩) (fun q hq => ?_) fun hr => ⟨hr, rfl, rfl⟩
    dsimp only at hq
    split at hq
    · rw [Option.getD_some, List.mem_append] at hq
      exact hq.imp id fun hq => hreg ▸ hq
    · exact Or.inl hq
  | @process b b' r r' _ _ _ _ hr hd =>
    refine h.quiet rfl (fun _ hb => hb) (fun q hq => Or.inl ?_) fun hr => ⟨hr, rfl, rfl⟩
    obtain ⟨k, hk⟩ := (hib b rfl).packed
    -- 除いた後の queue は、元の queue の後ろの部分である
    rcases Receiver.dedup_spec hk (C.id_nonneg j) hd with ⟨-, rfl, -⟩ |
      ⟨_, _, _, queue, queue', _, -, hq₀, hrem, hq', -, -⟩
    · exact hr ▸ hq
    · dsimp only at hq
      rw [hq', Option.getD_some] at hq
      rw [← hr, hq₀, Option.getD_some]
      exact (Receiver.removeMyUpdates_frame hrem).2.2.subset hq
  | @log l₁ l₂ key delta _ hpend =>
    have hev : logsOf (C.id j) t [.logHandled (C.nodeConfig j).myId t key delta]
        = [(key, delta)] := by
      simp [logsOf, Event.handledLog, SysConfig.nodeConfig]
    refine ⟨fun hr => ?_, fun b hb => (h.reg b hb).append _, fun b hb => (h.my b hb).append _⟩
    have h0 := h.store hr
    rw [ownSeg_of_none hpend, piece_some] at h0
    have hmine : (Propagator.addLog (C.nodeConfig j) t v.pt key delta).myUpdateStore
        = Propagator.addUpdate tc.vaddFunc v.pt.myUpdateStore key delta := by
      rw [Propagator.addLog_eq hn htc, hloop]
      rfl
    have hrange := (addLog_range (C.nodeConfig j) t v.pt key delta).1
    dsimp only
    rw [hmine, hadd, content_addUpdate, h0, logsOf_append, hev, ← slice_addLog hs ht]
    rw [TabView.ownSeg, if_neg (by simp [hpend]), hrange]
    rfl
  | @ask o buff peers myBuff _ hrun hpend _ _ hv hst hb _ _ _ hmb =>
    obtain ⟨-, hu, hk⟩ := Propagator.buildMyBuffer_spec (C.id_nonneg j) hmb
    have h0 := h.store hrun
    rw [ownSeg_of_none hpend, piece_some] at h0
    refine ⟨fun _ => rfl, fun b hb => ?_, fun b hb => (h.my b hb).append _⟩
    refine OwnFaithful.append ?_ _
    rw [List.mem_singleton.mp hb]
    intro r hr
    have hget : myBuff.getNodeRange (C.id j) = some v.pt.myUpdateRange :=
      hk.getNodeRange_mem (List.mem_singleton_self _)
    obtain rfl := Option.some.inj (hget.symm.trans hr)
    exact ⟨by rw [hu, total_perm hv.2.2, total_pairs, h0], ht.length.ge⟩
  | @send o buff peers hrun hpend _ hv hst hb hmine =>
    refine ⟨fun _ => ?_, fun b hb => (h.reg b hb).append _, fun b hb => (h.my b hb).append _⟩
    rw [TabView.ownSeg, if_neg (by simp [hpend])]
    exact (content_of_entries_nil (hmine tc htc hloop)).trans (slice_self _ _).symm
  | @reply buff hrun hpend hreg =>
    have h0 := h.store hrun
    rw [ownSeg_of_some hpend, piece_none] at h0
    refine ⟨fun _ => ?_, fun b hb => (h.reg b hb).append _, fun b hb => (h.my b hb).append _⟩
    rw [ownSeg_of_none rfl]
    exact h0.trans (slice_self _ _).symm

/-- **登録された batch は、その range の log をちょうど持つ。** -/
theorem TabReach.nodeOwn {Q : Node → UpdateBuffer V → Prop} {S : TabSys Node V}
    (h : TabReach C t Q S) (hn : 0 < C.nanosec j) (htc : (C.tableDir j).lookup t = some tc)
    (hloop : tc.loop = true) (hadd : tc.vaddFunc = (· + ·)) :
    NodeOwn C t S.trace j (S.view j) := by
  refine h.invariant (I := fun S => NodeOwn C t S.trace j (S.view j)) ?_ ?_
  · exact ⟨fun _ => (slice_self _ _).symm, (by rintro _ ⟨⟩), by rintro _ ⟨⟩⟩
  · intro S S' hr hs hi
    refine hs.at_node (I := fun tr v => NodeOwn C t tr j v) hi ?_ fun ev hev => ?_
    · intro ib v' push ev hib he
      exact hi.step (hr.shape.node j) (hr.nodeTally j) hn htc hloop hadd
        (hr.shape.of_delivers hib) he
    · have hlogs : logsOf (C.id j) t ev = [] := handledLog_local.filterMap_other hev
      exact hi.quiet hlogs (fun _ hb => hb) (fun _ hb => Or.inl hb) fun hr => ⟨hr, rfl, rfl⟩

end QuiltDB
