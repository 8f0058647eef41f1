import QuiltDB.Properties.Encoding
import QuiltDB.Properties.Shape

/-!
# system の run の中の propagator の run

system の run から、node `j` の propagator が処理したことを順に取り出す（`propInputs`）。それを propagator thread
だけで順に処理しても同じ状態に着き、paired receiver が自分の range を除いてから渡すので、その run はいつも
`PropReachable` である。

だから `PropReachable` について示したことは、どの結び方の、どの run の propagator についても成り立つ。
-/

namespace QuiltDB

variable {V Node : Type}

/-! ## 処理したことの列 -/

/-- node の一歩で propagator が処理すること。他の thread の一歩なら `none`。 -/
def NodeLabel.propInput (ns : NodeState V) : NodeLabel V → Option (PropInput V)
  | .timerTrigger order => some (.timerTrigger order)
  | .flushTable o => some (.flushTable o)
  | .myUpdatesReply => ns.ackQ.head?.map .myUpdatesReply
  | .flushEnd => some .flushEnd
  | .timerStopped => some .timerStopped
  | .pullApp thr => (NodeState.takeApp thr ns.appQ).map fun e => .update e.1
  | .pullRecv => ns.updQ.head?.map .update
  | _ => none

variable [DecidableEq Node]

/-- system の一歩で node `j` の propagator が処理すること。 -/
def SysLabel.propInput (s : SysState Node V) (j : Node) : SysLabel Node V → Option (PropInput V)
  | .node k l => if k = j then l.propInput (s.node j) else none
  | .termSub k => if k = j then (s.pub j).head?.map .termSub else none
  | .tcp _ => none

variable [Zero V] [DecidableEq V]

/-- system の run で node `j` の propagator が処理したことの列。 -/
def propInputs (C : SysConfig Node V) (j : Node) :
    SysState Node V → List (SysLabel Node V) → List (PropInput V)
  | _, [] => []
  | s, l :: ls =>
    (l.propInput s j).toList ++
      match sysStep C s l with
      | some (.ok s') => propInputs C j s' ls
      | _ => []

/-! ## 一歩 -/

section node

variable {c : NodeConfig V} {ns ns' : NodeState V} {out : NodeOut V}

/-- node の一歩は、propagator の一歩か、propagator を動かさない一歩である。 -/
theorem nodeStepSelf_prop {k : NodeLabel V} (h : nodeStepSelf c ns k = some (.ok (ns', out))) :
    (∃ i po, k.propInput ns = some i ∧ propHandle c ns.prop i = some (.ok (ns'.prop, po)) ∧
      out.push = po.push) ∨
    (k.propInput ns = none ∧ ns'.prop = ns.prop ∧ out.push = []) := by
  cases k with
  | inc thr t key delta =>
    simp only [nodeStepSelf] at h
    split at h
    · cases h
    · split at h
      · cases h
      · cases h
        exact Or.inr ⟨rfl, rfl, rfl⟩
  | signalTermProp | signalTermRecv =>
    simp only [nodeStepSelf] at h
    split at h
    · split at h
      · cases h
        exact Or.inr ⟨rfl, rfl, rfl⟩
      · cases h
    · cases h
  | waitTermProp | waitTermRecv | timerFire | timerCmd =>
    simp only [nodeStepSelf] at h
    split at h
    · cases h
      exact Or.inr ⟨rfl, rfl, rfl⟩
    · cases h
  | timerTrigger order =>
    simp only [nodeStepSelf] at h
    split at h
    · next hpc _ =>
      split at h
      · next hn =>
        cases h
        refine Or.inl ⟨_, (ns.prop.onTimerTrigger c order).2, rfl, ?_, rfl⟩
        simp only [propHandle, hpc, if_pos hn]
      · cases h
    · cases h
  | flushTable o =>
    simp only [nodeStepSelf] at h
    split at h
    · next t todo hpc =>
      split at h
      · next ho =>
        obtain ⟨p, po, hp, rfl, rfl⟩ := ofProp_eq_ok h
        refine Or.inl ⟨_, po, rfl, ?_, rfl⟩
        simp only [propHandle, hpc, if_pos ho, hp]
      · cases h
    · cases h
  | myUpdatesReply =>
    simp only [nodeStepSelf] at h
    split at h
    · next t buff todo msg rest hpc hq =>
      obtain ⟨p, po, hp, rfl, rfl⟩ := ofProp_eq_ok h
      refine Or.inl ⟨.myUpdatesReply msg, po, by simp [NodeLabel.propInput, hq], ?_, rfl⟩
      simp only [propHandle, hpc, hp]
    · cases h
  | flushEnd =>
    simp only [nodeStepSelf] at h
    split at h
    · next hpc =>
      cases h
      refine Or.inl ⟨_, {}, rfl, ?_, rfl⟩
      simp only [propHandle, hpc]
    · cases h
  | timerStopped =>
    simp only [nodeStepSelf] at h
    split at h
    · next hpc =>
      cases h
      refine Or.inl ⟨_, {}, rfl, ?_, rfl⟩
      simp only [propHandle, hpc.1]
    · cases h
  | pullApp thr =>
    simp only [nodeStepSelf] at h
    split at h
    · next msg rest hpc ht =>
      obtain ⟨p, po, hp, rfl, rfl⟩ := ofProp_eq_ok h
      refine Or.inl ⟨.update msg, po, by simp [NodeLabel.propInput, ht], ?_, rfl⟩
      simp only [propHandle, hpc, hp]
    · cases h
  | pullRecv =>
    simp only [nodeStepSelf] at h
    split at h
    · next msg rest hpc hq =>
      obtain ⟨p, po, hp, rfl, rfl⟩ := ofProp_eq_ok h
      refine Or.inl ⟨.update msg, po, by simp [NodeLabel.propInput, hq], ?_, rfl⟩
      simp only [propHandle, hpc, hp]
    · cases h
  | recvPair | recvTerm =>
    simp only [nodeStepSelf] at h
    split at h
    · cases h
    · split at h
      · cases h
      · obtain ⟨r, ro, -, rfl, rfl⟩ := ofRecv_eq_ok h
        exact Or.inr ⟨rfl, rfl, rfl⟩

/-- TCP の message を受けた receiver の一歩は、propagator も channel も動かさない。 -/
theorem nodeStep_tcp_prop {msg : PropRecvMsg V}
    (h : nodeStep c ns (.tcp msg) = some (.ok (ns', out))) :
    ns'.prop = ns.prop ∧ out.push = [] := by
  simp only [nodeStep] at h
  split at h
  · cases h
  · split at h
    · cases h
    · cases h
      exact ⟨rfl, rfl⟩

end node

section system

variable {C : SysConfig Node V} {s s' : SysState Node V} {l : SysLabel Node V} {j : Node}

/-- system の一歩は、`j` の propagator の一歩か、それを動かさず `j` の channel にも送らない一歩である。 -/
theorem SysReachable.step_prop (hr : SysReachable C s) (h : sysStep C s l = some (.ok s'))
    (j : Node) :
    (∃ i po, l.propInput s j = some i ∧
      propHandle (C.nodeConfig j) (s.node j).prop i = some (.ok ((s'.node j).prop, po)) ∧
      s'.tcp j = s.tcp j ++ po.push) ∨
    (l.propInput s j = none ∧ (s'.node j).prop = (s.node j).prop ∧
      (s'.tcp j).length ≤ (s.tcp j).length) := by
  cases l with
  | node k l =>
    obtain ⟨ns', out, hn, rfl⟩ := map_put_eq_ok h
    by_cases hk : k = j
    · subst hk
      rw [put_node_self, put_tcp_self, SysLabel.propInput, if_pos rfl]
      refine (nodeStepSelf_prop hn).imp (fun ⟨i, po, hi, hp, hpush⟩ => ⟨i, po, hi, hp, ?_⟩)
        fun ⟨hi, hp, hpush⟩ => ⟨hi, hp, ?_⟩
      · rw [hpush]
      · rw [hpush, List.append_nil]
    · rw [put_node_of_ne (Ne.symm hk), put_tcp_of_ne (Ne.symm hk), SysLabel.propInput, if_neg hk]
      exact Or.inr ⟨rfl, rfl, le_rfl⟩
  | tcp u =>
    simp only [sysStep] at h
    split at h
    · next d msg rest hd hq =>
      obtain ⟨ns', out, hn, rfl⟩ := map_put_eq_ok h
      have hkeep := nodeStep_tcp_prop hn
      refine Or.inr ⟨rfl, ?_, ?_⟩
      · by_cases hj : j = d
        · subst hj
          rw [put_node_self]
          exact hkeep.1
        · rw [put_node_of_ne hj]
      · rw [put_tcp_of_nil hkeep.2]
        dsimp only
        by_cases hj : j = u
        · subst hj
          rw [Function.update_self, hq]
          exact Nat.le_succ _
        · rw [Function.update_of_ne hj]
    · cases h
  | termSub k =>
    simp only [sysStep] at h
    split at h
    · cases h
    · next msg rest hq =>
      obtain ⟨ns', out, hn, rfl⟩ := map_put_eq_ok h
      by_cases hk : k = j
      · subst hk
        simp only [nodeStep] at hn
        split at hn
        · next hpc =>
          obtain ⟨p, po, hp, rfl, rfl⟩ := ofProp_eq_ok hn
          -- 下流の無い node には、何も publish されない
          have hd : (C.nodeConfig k).hasDownstream = true := by
            rw [hasDownstream_iff, ← Option.ne_none_iff_exists']
            intro hno
            rw [(hr.links.sink k hno).2] at hq
            cases hq
          refine Or.inl ⟨.termSub msg, po, by simp [SysLabel.propInput, hq], ?_, ?_⟩
          · rw [put_node_self]
            simp only [propHandle, hpc, if_pos hd, hp]
          · rw [put_tcp_self]
        · cases hn
      · rw [put_node_of_ne (Ne.symm hk), put_tcp_of_ne (Ne.symm hk), SysLabel.propInput, if_neg hk]
        exact Or.inr ⟨rfl, rfl, le_rfl⟩

/-- 渡される buffer に、自分の range は無い。 -/
theorem SysReachable.forwarded (hr : SysReachable C s) {i : PropInput V}
    (hi : l.propInput s j = some i) : forwarded (C.nodeConfig j) i = true := by
  have hfwd : ∀ t b, .epUpdateBuffer t b ∈ (s.node j).updQ →
      (C.nodeConfig j).myId ∉ b.iterNodeRanges.map Prod.fst := by
    intro t b hm hmem
    have hb : b ∈ ((s.tab t).view j).fwd :=
      List.mem_filterMap.mpr ⟨_, hm, by simp [PropagatorMsg.ofTable]⟩
    obtain ⟨e, he, heq⟩ := List.mem_map.mp hmem
    exact (((hr.tabReach t).shape.node j).fwd b hb).ids e he |>.2.1 heq
  cases l with
  | node k l =>
    rw [SysLabel.propInput] at hi
    split at hi
    · cases l with
      | pullApp thr =>
        obtain ⟨⟨msg, rest⟩, ht, rfl⟩ := Option.map_eq_some_iff.mp hi
        obtain ⟨l₁, l₂, hq, -, -⟩ := takeApp_some ht
        have hkind := (hr.control j).kinds.appQ (thr, msg) (by rw [hq]; simp)
        cases msg with
        | epUpdateBuffer t b => cases hkind
        | _ => rfl
      | pullRecv =>
        obtain ⟨msg, hm, rfl⟩ := Option.map_eq_some_iff.mp hi
        cases msg with
        | epUpdateBuffer t b => exact decide_eq_true (hfwd t b (List.mem_of_head? hm))
        | _ => rfl
      | myUpdatesReply =>
        obtain ⟨msg, hm, rfl⟩ := Option.map_eq_some_iff.mp hi
        rfl
      | timerTrigger | flushTable | flushEnd | timerStopped =>
        cases hi
        rfl
      | _ => cases hi
    · cases hi
  | termSub k =>
    rw [SysLabel.propInput] at hi
    split at hi
    · obtain ⟨msg, hm, rfl⟩ := Option.map_eq_some_iff.mp hi
      rfl
    · cases hi
  | tcp u => cases hi

/-! ## run -/

/-- 着ける状態から先の run でも、処理したことの列は propagator の run である。 -/
theorem propInputs_run {ls : List (SysLabel Node V)} {h : PropHist V} (hs : SysReachable C s)
    (hh : PropReachable (C.nodeConfig j) h) (heq : h.prop = (s.node j).prop)
    (hrun : Lts.run (sysStep C) s ls = some s') :
    ∃ h', Lts.run (histStep (C.nodeConfig j)) h (propInputs C j s ls) = some h' ∧
      PropReachable (C.nodeConfig j) h' ∧ h'.prop = (s'.node j).prop := by
  induction ls generalizing s h with
  | nil =>
    cases hrun
    exact ⟨h, rfl, hh, heq⟩
  | cons l ls ih =>
    obtain ⟨s₁, hstep, hrest⟩ := Lts.run_cons hrun
    rw [propInputs, hstep]
    dsimp only
    rcases hs.step_prop hstep j with ⟨i, po, hi, hp, -⟩ | ⟨hi, hp, -⟩
    · have hhist : histStep (C.nodeConfig j) h i
          = some (.ok { prop := (s₁.node j).prop, log := h.log ++ [(i, po)] }) := by
        rw [histStep, heq, hp]
        rfl
      obtain ⟨h', h1, h2, h3⟩ := ih (hs.step hstep) (.step hh (hs.forwarded hi) hhist) rfl hrest
      refine ⟨h', ?_, h2, h3⟩
      rw [hi, Option.toList_some, List.singleton_append, Lts.run_cons_of_step hhist]
      exact h1
    · rw [hi, Option.toList_none, List.nil_append]
      exact ih (hs.step hstep) hh (heq.trans hp.symm) hrest

/--
**system のどの run でも、`j` の propagator が処理したことは propagator の run である。** 渡される buffer に
自分の range が無いことは、ここで仮定ではなくなる。
-/
theorem SysState.propHistory {ls : List (SysLabel Node V)}
    (hrun : Lts.run (sysStep C) (SysState.start C) ls = some s) (j : Node) :
    ∃ h, Lts.run (histStep (C.nodeConfig j)) (PropHist.start (C.nodeConfig j))
        (propInputs C j (SysState.start C) ls) = some h ∧
      PropReachable (C.nodeConfig j) h ∧ h.prop = (s.node j).prop :=
  propInputs_run .init .init rfl hrun

/-- 着ける状態の propagator は、propagator だけの run でも着ける。 -/
theorem SysReachable.propReachable (h : SysReachable C s) (j : Node) :
    ∃ hist, PropReachable (C.nodeConfig j) hist ∧ hist.prop = (s.node j).prop := by
  refine Lts.Reachable.invariant (I := fun s => ∃ hist, PropReachable (C.nodeConfig j) hist ∧
    hist.prop = (s.node j).prop) ⟨_, .init, rfl⟩ ?_ h
  rintro s l s' (hr : SysReachable C s) hs ⟨hist, hh, heq⟩
  rcases hr.step_prop hs j with ⟨i, po, hi, hp, -⟩ | ⟨-, hp, -⟩
  · refine ⟨{ prop := (s'.node j).prop, log := hist.log ++ [(i, po)] },
      .step hh (hr.forwarded hi) ?_, rfl⟩
    rw [histStep, heq, hp]
    rfl
  · exact ⟨hist, hh, heq.trans hp.symm⟩

end system

end QuiltDB
