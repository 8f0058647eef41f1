import QuiltDB.Comm.System
import QuiltDB.Properties.NodeStep

/-!
# system の一歩の場合分け

`sysStep` が進んだ時の場合分け `SysStep` と、node 一つの中の不変量を system の run に持ち上げる規則。
-/

namespace QuiltDB

variable {Node V : Type} [DecidableEq Node]

/-! ## 結び方 -/

section topology

variable {C : SysConfig Node V}

theorem mem_upstream {j u : Node} : u ∈ C.upstream j ↔ C.down u = some j := by
  simp [Topology.upstream, C.mem_nodes u]

theorem mem_expected {j : Node} {id : NodeId} :
    id ∈ (C.nodeConfig j).expected ↔ ∃ u, C.down u = some j ∧ C.id u = id := by
  simp [SysConfig.nodeConfig, mem_upstream]

theorem numExpected_pos {u d : Node} (h : C.down u = some d) :
    0 < (C.nodeConfig d).numExpectedPropagators := by
  have hm : C.id u ∈ (C.nodeConfig d).expected := mem_expected.mpr ⟨u, h, rfl⟩
  exact List.length_pos_of_mem hm

theorem hasDownstream_iff {u : Node} :
    (C.nodeConfig u).hasDownstream = true ↔ ∃ d, C.down u = some d := by
  cases h : C.down u with
  | none => simp [NodeConfig.hasDownstream, SysConfig.nodeConfig, h]
  | some d => simp [NodeConfig.hasDownstream, SysConfig.nodeConfig, h, C.id_nonneg d]

end topology

/-! ## 書き戻し -/

section put

variable {C : SysConfig Node V} {s : SysState Node V} {j : Node}

theorem put_node_self {res : NodeState V × NodeOut V} : (s.put C j res).node j = res.1 :=
  Function.update_self ..

theorem put_node_of_ne {k : Node} {res : NodeState V × NodeOut V} (h : k ≠ j) :
    (s.put C j res).node k = s.node k := Function.update_of_ne h ..

theorem put_tcp_self {res : NodeState V × NodeOut V} :
    (s.put C j res).tcp j = s.tcp j ++ res.2.push := Function.update_self ..

theorem put_tcp_of_ne {k : Node} {res : NodeState V × NodeOut V} (h : k ≠ j) :
    (s.put C j res).tcp k = s.tcp k := Function.update_of_ne h ..

theorem put_tcp_of_nil {res : NodeState V × NodeOut V} (h : res.2.push = []) :
    (s.put C j res).tcp = s.tcp := by
  simp [SysState.put, h]

theorem put_pub_of_nil {res : NodeState V × NodeOut V} (h : res.2.pub = []) :
    (s.put C j res).pub = s.pub := by
  simp [SysState.put, h]

/-- 動いた node で成り立つ関係は、system のどの node でも成り立つ。 -/
theorem update_rel {R : NodeState V → NodeState V → Prop} (hrefl : ∀ ns, R ns ns)
    {ns' : NodeState V} {N : Node → NodeState V} (h : R (s.node j) ns')
    (hN : N = Function.update s.node j ns') (k : Node) : R (s.node k) (N k) := by
  subst hN
  by_cases hk : k = j
  · subst hk
    rw [Function.update_self]
    exact h
  · rw [Function.update_of_ne hk]
    exact hrefl _

end put

variable [Zero V]

/-! ## 一歩の形 -/

/-- 進んだ一歩の場合分け。どの場合も、動くのは node 一つである。 -/
inductive SysStep (C : SysConfig Node V) (s : SysState Node V) :
    SysLabel Node V → SysState Node V → Prop
  | node {j : Node} {l : NodeLabel V} {ns' : NodeState V} {out : NodeOut V} :
      NodeStep (C.nodeConfig j) (s.node j) (.self l) ns' out →
      SysStep C s (.node j l) (s.put C j (ns', out))
  | tcp {u d : Node} {msg : PropRecvMsg V} {rest : List (PropRecvMsg V)} {ns' : NodeState V}
      {out : NodeOut V} : C.down u = some d → s.tcp u = msg :: rest →
      NodeStep (C.nodeConfig d) (s.node d) (.tcp msg) ns' out →
      SysStep C s (.tcp u) (SysState.put C { s with tcp := Function.update s.tcp u rest } d (ns', out))
  | termSub {j : Node} {msg : PropRecvMsg V} {rest : List (PropRecvMsg V)} {ns' : NodeState V}
      {out : NodeOut V} : s.pub j = msg :: rest →
      NodeStep (C.nodeConfig j) (s.node j) (.pub msg) ns' out →
      SysStep C s (.termSub j)
        (SysState.put C { s with pub := Function.update s.pub j rest } j (ns', out))

omit [Zero V] in
theorem map_put_eq_ok {C : SysConfig Node V} {s s' : SysState Node V} {j : Node}
    {res : Option (Except Fault (NodeState V × NodeOut V))}
    (h : res.map (Except.map (s.put C j)) = some (.ok s')) :
    ∃ ns' out, res = some (.ok (ns', out)) ∧ s' = s.put C j (ns', out) := by
  match res, h with
  | some (.ok (ns', out)), h => cases h; exact ⟨ns', out, rfl, rfl⟩

variable [DecidableEq V] {C : SysConfig Node V} {s s' : SysState Node V} {l : SysLabel Node V}

theorem sysStep_cases (hk : ∀ j, Kinds (s.node j)) (h : sysStep C s l = some (.ok s')) :
    SysStep C s l s' := by
  cases l with
  | node j l =>
    obtain ⟨ns', out, hn, rfl⟩ := map_put_eq_ok h
    exact .node (nodeStep_cases (hk j) hn)
  | tcp u =>
    simp only [sysStep] at h
    split at h
    · next d msg rest hd hq =>
      obtain ⟨ns', out, hn, rfl⟩ := map_put_eq_ok h
      exact .tcp hd hq (nodeStep_cases (hk d) hn)
    · cases h
  | termSub j =>
    simp only [sysStep] at h
    split at h
    · cases h
    · next msg rest hq =>
      obtain ⟨ns', out, hn, rfl⟩ := map_put_eq_ok h
      exact .termSub hq (nodeStep_cases (hk j) hn)

omit [DecidableEq V] in
/-- system の一歩では、node 一つが一歩進み、ほかの node は変わらない。 -/
theorem SysStep.node_step (h : SysStep C s l s') :
    ∃ j i ns' out, NodeStep (C.nodeConfig j) (s.node j) i ns' out ∧
      s'.node = Function.update s.node j ns' := by
  cases h with
  | node hn => exact ⟨_, _, _, _, hn, rfl⟩
  | tcp _ _ hn => exact ⟨_, _, _, _, hn, rfl⟩
  | termSub _ hn => exact ⟨_, _, _, _, hn, rfl⟩

omit [DecidableEq V] in
/-- system の一歩の出来事は、動いた node の出来事である。 -/
theorem SysStep.node_events (h : SysStep C s l s') :
    ∃ j i ns' out, NodeStep (C.nodeConfig j) (s.node j) i ns' out ∧
      s'.node = Function.update s.node j ns' ∧ s'.trace = s.trace ++ out.events := by
  cases h with
  | node hn => exact ⟨_, _, _, _, hn, rfl, rfl⟩
  | tcp _ _ hn => exact ⟨_, _, _, _, hn, rfl, rfl⟩
  | termSub _ hn => exact ⟨_, _, _, _, hn, rfl, rfl⟩

/-! ## node の不変量を持ち上げる -/

omit [DecidableEq V] in
/-- node の一歩の label も使う形。 -/
theorem SysStep.forall_node_label {I : Node → NodeState V → Prop} (h : SysStep C s l s')
    (hstep : ∀ j i ns' out, (∀ k, i = .self k → l = .node j k) →
      NodeStep (C.nodeConfig j) (s.node j) i ns' out → I j ns')
    (hi : ∀ j, I j (s.node j)) : ∀ j, I j (s'.node j) := by
  have hupd : ∀ j (ns' : NodeState V), I j ns' →
      ∀ k, I k (Function.update s.node j ns' k) := by
    intro j ns' hj k
    by_cases hk : k = j
    · subst hk
      rw [Function.update_self]
      exact hj
    · rw [Function.update_of_ne hk]
      exact hi k
  cases h with
  | node hn => exact hupd _ _ (hstep _ _ _ _ (fun k hk => by cases hk; rfl) hn)
  | tcp _ _ hn => exact hupd _ _ (hstep _ _ _ _ (fun k hk => by cases hk) hn)
  | termSub _ hn => exact hupd _ _ (hstep _ _ _ _ (fun k hk => by cases hk) hn)

omit [DecidableEq V] in
/-- node 一つの一歩で保たれる性質は、system の一歩でも全ての node で保たれる。 -/
theorem SysStep.forall_node {I : Node → NodeState V → Prop} (h : SysStep C s l s')
    (hstep : ∀ j i ns' out, NodeStep (C.nodeConfig j) (s.node j) i ns' out → I j ns')
    (hi : ∀ j, I j (s.node j)) : ∀ j, I j (s'.node j) :=
  h.forall_node_label (fun j i ns' out _ hn => hstep j i ns' out hn) hi

theorem SysReachable.kinds (h : SysReachable C s) (j : Node) : Kinds (s.node j) := by
  refine h.invariant (I := fun s => ∀ j, Kinds (s.node j)) (fun j => Kinds.start _) ?_ j
  intro s l s' _ hs hi
  exact (sysStep_cases hi hs).forall_node (fun j _ _ _ hn => (hi j).step hn) hi

/-- run の不変量の規則。一歩は `SysStep` の形で使える。 -/
theorem SysReachableUnder.sys_invariant {P : SysState Node V → SysLabel Node V → Prop}
    {I : SysState Node V → Prop} (h0 : I (SysState.start C))
    (hstep : ∀ s l s', SysReachableUnder C P s → P s l → SysStep C s l s' → I s → I s')
    (h : SysReachableUnder C P s) : I s :=
  h.invariant h0 fun _ _ _ hr hp hs hi =>
    hstep _ _ _ hr hp (sysStep_cases (SysReachable.kinds hr.reachable) hs) hi

/-- 条件の無い run の不変量の規則。 -/
theorem SysReachable.sys_invariant {I : SysState Node V → Prop} (h0 : I (SysState.start C))
    (hstep : ∀ s l s', SysReachable C s → SysStep C s l s' → I s → I s')
    (h : SysReachable C s) : I s :=
  SysReachableUnder.sys_invariant h0 (fun _ _ _ hr _ hs hi => hstep _ _ _ hr hs hi) h

/-- node の中の不変量の規則。 -/
theorem SysReachable.node_invariant {I : NodeConfig V → NodeState V → Prop}
    (h0 : ∀ j, I (C.nodeConfig j) (NodeState.start (C.nodeConfig j)))
    (hstep : ∀ j ns i ns' out, NodeStep (C.nodeConfig j) ns i ns' out → I (C.nodeConfig j) ns →
      I (C.nodeConfig j) ns')
    (h : SysReachable C s) (j : Node) : I (C.nodeConfig j) (s.node j) := by
  refine SysReachable.sys_invariant (I := fun s => ∀ j, I (C.nodeConfig j) (s.node j)) h0 ?_ h j
  intro s l s' _ hs hi
  exact hs.forall_node (fun j i ns' out hn => hstep j _ i ns' out hn (hi j)) hi

end QuiltDB
