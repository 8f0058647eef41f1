import QuiltDB.Properties.Faithful

/-!
# 全てが流れ切った状態

propagator の store が空なら、送る分の range も無い。だから、store も queue も channel も空なら、ある node の
range はその下流の全ての node に届き切っている。
-/

namespace QuiltDB

open Segments

variable {V Node : Type}

/-! ## 空の store -/

section store

variable [Zero V]

omit [Zero V] in
theorem entries_insert_ne_nil (m : AList fun _ : Key => V) (key : Key) (x : V) :
    (m.insert key x).entries ≠ [] := by
  intro hnil
  have hlook : (m.insert key x).lookup key = some x := AList.lookup_insert m
  rw [show m.insert key x = ∅ from AList.ext hnil, AList.lookup_empty] at hlook
  cases hlook

/-- update を一つでも足せば、store は空でない。 -/
theorem entries_foldl_addUpdate_ne_nil {vadd : V → V → V} {us : List (Key × V)} (hus : us ≠ [])
    (m : AList fun _ : Key => V) :
    (us.foldl (fun m kv => Propagator.addUpdate vadd m kv.1 kv.2) m).entries ≠ [] := by
  -- 最後に足したものが残る
  obtain ⟨init, kv, rfl⟩ : ∃ init kv, us = init ++ [kv] :=
    ⟨us.dropLast, us.getLast hus, (List.dropLast_append_getLast hus).symm⟩
  rw [List.foldl_append, List.foldl_cons, List.foldl_nil]
  exact entries_insert_ne_nil _ _ _

variable [DecidableEq Node] {C : SysConfig Node V} {t : TableId} {j : Node} {v v' : TabView V}
  {ev : List (Event V)} {ib : Option (UpdateBuffer V)} {push : List (UpdateBuffer V)}
  {tc : TableConfig V}

/-- RUN の propagator の store が空なら、送る分の range はどれも空である。 -/
def NodeFlushed (C : SysConfig Node V) (j : Node) (v : TabView V) : Prop :=
  v.pRun = true → v.pt.updateStore.entries = [] → ∀ o s, v.pendingSeg C j o = some s → s.1 = s.2

theorem NodeFlushed.step (hs : NodeShape C j v) (hn : 0 < C.nanosec j)
    (htc : (C.tableDir j).lookup t = some tc) (h : NodeFlushed C j v)
    (he : TabEff (C.nodeConfig j) t v ib v' push ev) : NodeFlushed C j v' := by
  cases he with
  | skip | inc | dropLog | register | recvStop | discard | noPeer | process | dropBuffer => exact h
  | stop => rintro ⟨⟩
  | @log _ _ key delta =>
    intro _ hnil
    dsimp only at hnil
    rw [Propagator.addLog_eq hn htc] at hnil
    exact absurd hnil (entries_insert_ne_nil _ _ _)
  | @ask fo buff peers myBuff tc _ hpend _ _ hv hst hb =>
    intro _ _ o s hs'
    by_cases ho : o = j
    · subst ho
      rw [pendingSeg_self, ownSeg_of_some rfl] at hs'
      cases hs'
    · exact ((hs.flush hv hst hb).pendingSeg_flushed hs rfl ho hs').1
  | @send fo buff peers _ hpend _ hv hst hb =>
    intro _ _ o s hs'
    by_cases ho : o = j
    · subst ho
      rw [pendingSeg_self, TabView.ownSeg, if_neg (by simp [hpend])] at hs'
      rw [← Option.some.inj hs']
      rfl
    · exact ((hs.flush hv hst hb).pendingSeg_flushed hs rfl ho hs').1
  | @reply buff hrun hpend _ =>
    intro _ hnil o s hs'
    by_cases ho : o = j
    · subst ho
      rw [pendingSeg_self, ownSeg_of_none rfl] at hs'
      rw [← Option.some.inj hs']
      rfl
    · refine h hrun hnil o s ?_
      rw [pendingSeg_peer ho] at hs' ⊢
      exact hs'
  | @record b rest tc peers _ _ hf =>
    intro _ hnil
    have hb := hs.fwd b (by rw [hf]; exact List.mem_cons_self)
    refine absurd hnil (entries_foldl_addUpdate_ne_nil ?_ _)
    rw [UpdateBuffer.iterUpdates_eq]
    exact hb.updates

/-- **store が空なら、送る分は無い。** -/
theorem TabReach.nodeFlushed {Q : Node → UpdateBuffer V → Prop} {S : TabSys Node V}
    (h : TabReach C t Q S) (hn : 0 < C.nanosec j) (htc : (C.tableDir j).lookup t = some tc) :
    NodeFlushed C j (S.view j) := by
  refine h.invariant (I := fun S => NodeFlushed C j (S.view j)) ?_ ?_
  · intro _ _ o s hs
    unfold TabView.pendingSeg at hs
    split at hs <;> cases hs
    rfl
  · intro S S' hr hs hi
    exact hs.at_node (I := fun _ v => NodeFlushed C j v) hi
      (fun _ _ _ _ _ he => hi.step (hr.shape.node j) hn htc he) fun _ _ => hi

end store

/-! ## 届き切ること -/

section drained

variable [DecidableEq Node] {C : SysConfig Node V} {t : TableId} {S : TabSys Node V}

/-- table `t` の update が、store にも queue にも channel にも無い。 -/
structure TabDrained (C : SysConfig Node V) (S : TabSys Node V) : Prop where
  store : ∀ j o s, (S.view j).pendingSeg C j o = some s → s.1 = s.2
  pend : ∀ j, (S.view j).pend = none
  fwd : ∀ j, (S.view j).fwd = []
  logs : ∀ j, (S.view j).logs = []
  chan : ∀ u, S.chan u = []

/-- 送る分が無ければ、peer について記録した所まで送り終えている。 -/
theorem TabDrained.emitted_peer (hd : TabDrained C S) {o j : Node} (hj : j ≠ o) :
    (S.view j).emitted C o j = (S.view j).recd (C.id o) := by
  rw [TabView.emitted, if_neg hj, TabView.recd]
  cases hl : (S.view j).pt.tablePeersUpdateRange.lookup (C.id o) with
  | none => rfl
  | some r =>
    exact hd.store j o r.seg (by rw [pendingSeg_peer (Ne.symm hj), hl]; rfl)

/-- 自分の log は全て送り終えている。 -/
theorem TabDrained.emitted_own (hd : TabDrained C S) {o : Node}
    (ht : NodeTally C t S.trace o (S.view o)) :
    (S.view o).emitted C o o = (logsOf (C.id o) t S.trace).length := by
  have hst : (S.view o).pt.myUpdateRange.st = (S.view o).pt.myUpdateRange.end_ + 1 :=
    hd.store o o _ (by rw [pendingSeg_self, ownSeg_of_none (hd.pend o)])
  rw [TabView.emitted, if_pos rfl, hd.pend o, if_neg (by simp), hst, ht.length]

/-- 流れ切った channel の先には、上流が送り終えた所まで届いている。 -/
theorem TabDrained.recvTop_eq (hd : TabDrained C S) {o u d : Node} (hf : Flow (· = ·) C t o S)
    (hdown : C.down u = some d) (hfeed : C.Feeds o u) :
    recvTop C t o S.trace d = (S.view u).emitted C o u := by
  have hlink := hf.link u d hdown hfeed
  rw [hd.chan u, hd.pend u] at hlink
  exact hlink

/-- `o` の下流のどの node も、`o` の log を全て送り終えている。 -/
theorem TabDrained.emitted_eq (hd : TabDrained C S) {o u : Node} (hf : Flow (· = ·) C t o S)
    (ht : NodeTally C t S.trace o (S.view o)) (hfeed : C.Feeds o u) :
    (S.view u).emitted C o u = (logsOf (C.id o) t S.trace).length := by
  -- `o` から一歩ずつ下流へ進む
  induction hfeed with
  | refl => exact hd.emitted_own ht
  | @tail u d hu hdown ih =>
    by_cases hdo : d = o
    · subst hdo
      exact hd.emitted_own ht
    · have hrecd : (S.view d).recd (C.id o) = recvTop C t o S.trace d := by
        have hfwd := (hf.node d).fwd hdo
        rw [hd.fwd d] at hfwd
        exact hfwd
      rw [hd.emitted_peer hdo, hrecd, hd.recvTop_eq hf hdown hu, ih]

/-- **流れ切った状態では、`o` の log は下流の全ての node に届いている。** -/
theorem TabDrained.received_all (hd : TabDrained C S) {o j : Node} (hf : Flow (· = ·) C t o S)
    (ht : NodeTally C t S.trace o (S.view o)) (hfeed : C.Feeds o j) (hj : j ≠ o) :
    recvTop C t o S.trace j = (logsOf (C.id o) t S.trace).length := by
  rcases Relation.ReflTransGen.cases_tail hfeed with rfl | ⟨u, hu, hdown⟩
  · exact absurd rfl hj
  · rw [hd.recvTop_eq hf hdown hu, hd.emitted_eq hf ht hu]

end drained

end QuiltDB
