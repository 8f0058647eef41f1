import QuiltDB.Properties.Aborts
import QuiltDB.Properties.LiveFlow
import QuiltDB.Properties.Prefix
import QuiltDB.Properties.Shutdown
import QuiltDB.Properties.Work

/-!
# 落ちない森

森では、自分の range は戻ってこず、peer の range はいつも続いて届く。だから `AbortSite` のうち残るのは、下流の無い
node の送信と、登録していない table と、callback だけで、これらは設定と `Inc` の場所で避けられる。

* `forest_never_aborts` — 守るべきことを守った森は、どの run でも落ちない
* `forest_can_shut_down` — だから、いつでも最後まで終わらせられる
-/

namespace QuiltDB

variable {V Node : Type} [DecidableEq Node] [Zero V] [DecidableEq V] {C : SysConfig Node V}
  {s : SysState Node V} {j : Node}

/-! ## 下流の無い node -/

/-- 下流の無い propagator には、送るものが無い。 -/
structure SinkEmpty (ns : NodeState V) : Prop where
  logs : ∀ thr t key delta, (thr, .epUpdateLog t key delta) ∉ ns.appQ
  fwd : ∀ t b, .epUpdateBuffer t b ∉ ns.updQ
  store : ∀ t, (ns.prop.tab t).updateStore.entries = []
  wait : ∀ t b todo, ns.prop.pc ≠ .waitAck t b todo

omit [DecidableEq Node] [DecidableEq V] in
/-- `Inc` をせず、受け取った buffer を渡さなければ、送るものは無いままである。 -/
theorem SinkEmpty.step {c : NodeConfig V} {ns ns' : NodeState V} {i : NodeInput V} {out : NodeOut V}
    (h : NodeStep c ns i ns' out) (hs : SinkEmpty ns)
    (hinc : ∀ thr t key delta, i ≠ .self (.inc thr t key delta))
    (hfwd : ∀ t tc, c.tableDir.lookup t = some tc → tc.forwardUpdates = false) :
    SinkEmpty ns' := by
  obtain ⟨hlogs, hupd, hstore, hwait⟩ := hs
  have hpoll : ns.prop.pc = .poll → ∀ t b todo, ns.prop.pc ≠ .waitAck t b todo := by
    intro hpc t b todo
    rw [hpc]
    rintro ⟨⟩
  have hexit : ∀ {p : Propagator V}, (∀ t, (p.tab t).updateStore.entries = []) →
      ∀ t, (p.exitTest.tab t).updateStore.entries = [] := by
    intro p hp
    rw [Propagator.exitTest_eq]
    exact hp
  cases h with
  | inc => exact absurd rfl (hinc _ _ _ _)
  | signalTermProp =>
    refine ⟨fun thr t key delta hm => ?_, hupd, hstore, hwait⟩
    rcases List.mem_append.mp hm with hm | hm
    · exact hlogs _ _ _ _ hm
    · cases List.mem_singleton.mp hm
  | timerTrigger | flushSkip => exact ⟨hlogs, hupd, hstore, by rintro _ _ _ ⟨⟩⟩
  | flushRegister _ _ hne | flushSend _ _ hne => exact absurd (hstore _) hne
  | myUpdatesReply hpc => exact absurd hpc (hwait _ _ _)
  | flushEnd =>
    refine ⟨hlogs, hupd, hstore, fun t b todo hpc => ?_⟩
    simp only [Propagator.flushEnd] at hpc
    split at hpc <;> cases hpc
  | timerStopped =>
    exact ⟨hlogs, hupd, hexit hstore, Propagator.exitTest_pc_ne_waitAck rfl⟩
  | pullLog _ ht | dropLog _ ht => exact absurd (mem_of_takeApp ht).1 (hlogs _ _ _ _)
  | pullTerm hpc ht | pullTermReply hpc ht =>
    exact ⟨fun thr t key delta hm => hlogs thr t key delta ((mem_of_takeApp ht).2 _ hm), hupd,
      fun _ => rfl, hpoll hpc⟩
  | record _ hq | dropBuffer _ hq =>
    exact absurd (by rw [hq]; exact List.mem_cons_self) (hupd _ _)
  | pullRecvAck hpc hq =>
    refine ⟨hlogs, fun t b hm => hupd t b ?_, hexit hstore, Propagator.exitTest_pc_ne_waitAck hpc⟩
    rw [hq]
    exact List.mem_cons_of_mem _ hm
  | subTermReply hpc => exact ⟨hlogs, hupd, hexit hstore, Propagator.exitTest_pc_ne_waitAck hpc⟩
  | pairTermStop =>
    refine ⟨hlogs, fun t b hm => ?_, hstore, hwait⟩
    rcases List.mem_append.mp hm with hm | hm
    · exact hupd t b hm
    · cases List.mem_singleton.mp hm
  | recvTerm =>
    refine ⟨hlogs, fun t b hm => ?_, hstore, hwait⟩
    rcases List.mem_append.mp hm with hm | hm
    · exact hupd t b hm
    · split at hm
      · cases List.mem_singleton.mp hm
      · cases hm
  | tcpProcess _ _ htc =>
    refine ⟨hlogs, fun t b hm => ?_, hstore, hwait⟩
    rw [hfwd _ _ htc] at hm
    simp only [Bool.false_eq_true, if_false, List.append_nil] at hm
    exact hupd t b hm
  | _ => exact ⟨hlogs, hupd, hstore, hwait⟩

/--
落ちないための設定。

送った table は下流にも登録してあり、callback は使わない。受け取った update は、下流のある node だけが渡す。
-/
structure ForestSafe (C : SysConfig Node V) : Prop where
  forest : C.IsForest
  tables : ∀ u d t, C.down u = some d → (C.nodeConfig u).Knows t → (C.nodeConfig d).Knows t
  noCbk : ∀ j t tc, (C.tableDir j).lookup t = some tc → tc.doUserCbk = false
  forward : ∀ j t tc, (C.tableDir j).lookup t = some tc →
    (tc.forwardUpdates = true ↔ C.down j ≠ none)

/-- `Inc` をするなら、下流のある node である。 -/
def SysLabel.incAbove (C : SysConfig Node V) : SysLabel Node V → Bool
  | .node j (.inc ..) => (C.down j).isSome
  | _ => true

/-- 下流の無い propagator には、いつでも送るものが無い。 -/
theorem ForestSafe.sinkEmpty (hC : ForestSafe C)
    (h : SysReachableUnder C (fun _ l => l.incAbove C = true) s) (hd : C.down j = none) :
    SinkEmpty (s.node j) := by
  refine h.sys_invariant (I := fun s => ∀ j, C.down j = none → SinkEmpty (s.node j)) ?_ ?_ j hd
  · exact fun j _ => ⟨by rintro _ _ _ _ ⟨⟩, by rintro _ _ ⟨⟩, fun _ => rfl, by rintro _ _ _ ⟨⟩⟩
  · intro s l s' _ hl hs hi
    refine hs.forall_node_label (I := fun j ns => C.down j = none → SinkEmpty ns) ?_ hi
    intro j i ns' out hlab hn hd
    refine (hi j hd).step hn (fun thr t key delta heq => ?_) fun t tc htc => ?_
    · rw [hlab _ heq] at hl
      simp [SysLabel.incAbove, hd] at hl
    · rw [← Bool.not_eq_true, hC.forward j t tc htc, not_not]
      exact hd

omit [DecidableEq V] in
/-- 森では、自分の range が無い buffer だけが届く。値の足し算は要らない。 -/
theorem TabReach.absent {t : TableId} {Q : Node → UpdateBuffer V → Prop} {S : TabSys Node V}
    (h : TabReach C t Q S) (hf : C.IsForest) :
    TabReach C t (fun d b => C.id d ∉ b.iterNodeRanges.map Prod.fst) S := by
  induction h with
  | refl => exact .refl
  | tail hr hs ih =>
    refine ih.tail ?_
    cases hs with
    | self he => exact .self he
    | recv hd hc _ he =>
      exact .recv hd hc (fun _ => (TabReach.carry hr).own_absent (hf.offRing _) hd
        (by rw [hc]; exact List.mem_cons_self)) he

/-- 森では、記録した所から続かない range は届かない。 -/
theorem ForestSafe.contiguous (hC : ForestSafe C) (h : SysReachable C s) (hd : C.down j ≠ none)
    {t : TableId} {b : UpdateBuffer V} {rest : List (PropagatorMsg V)}
    (hq : (s.node j).updQ = .epUpdateBuffer t b :: rest) (hrun : (s.node j).prop.state = .run) :
    ∃ peers, Propagator.recordRanges ((s.node j).prop.tab t).tablePeersUpdateRange
      b.iterNodeRanges = .ok peers := by
  have htab := (h.tabReach t).absent hC.forest
  have hrelay : Relays C t fun d b => C.id d ∉ b.iterNodeRanges.map Prod.fst :=
    ⟨fun j tc hd htc => (hC.forward j t tc htc).mpr hd, fun _ _ hb => .of_absent hb⟩
  have hfwd : ((s.tab t).view j).fwd = b :: rest.filterMap (PropagatorMsg.ofTable t) := by
    simp [SysState.tab, NodeState.tabView, hq, PropagatorMsg.ofTable]
  exact recordRanges_ok_of_flow (htab.shape.node j) (fun o =>
    (htab.liveFlow (hC.forest o).singleFeed hrelay).node j hd (decide_eq_true hrun)) hfwd

/-- 森では、自分の range は戻ってこない。 -/
theorem ForestSafe.own_absent (hC : ForestSafe C) (h : SysReachable C s) {u d : Node} {t : TableId}
    {b : UpdateBuffer V} {rest : List (PropRecvMsg V)} (hd : C.down u = some d)
    (hq : s.tcp u = .eprUpdateBuffer t b :: rest) : b.getNodeRange (C.id d) = none := by
  have hb : b ∈ (s.tab t).chan u := by
    simp [SysState.tab, hq, PropRecvMsg.ofTable]
  have habs := (h.tabReach t).carry.own_absent (hC.forest.offRing _) hd hb
  obtain ⟨k, hpk⟩ := ((h.tabReach t).shape.chan u b hb).packed
  cases hr : b.getNodeRange (C.id d) with
  | none => rfl
  | some rng =>
    exact absurd (List.mem_map.mpr ⟨_, hpk.getNodeRange_some (C.id_nonneg d) hr, rfl⟩) habs

/-- 守るべきことを守った森に、落ちる所は無い。 -/
theorem ForestSafe.no_site (hC : ForestSafe C)
    (h : SysReachableUnder C (fun _ l => l.incAbove C = true) s) {l : SysLabel Node V} {e : Fault} :
    ¬AbortSite C s l e := by
  intro hsite
  have hr : SysReachable C s := h.reachable
  cases hsite with
  | sendNull hd _ hne => exact hne ((hC.sinkEmpty h hd).store _)
  | replyNull hd hpc => exact (hC.sinkEmpty h hd).wait _ _ _ hpc
  | @notContiguous j _ _ _ _ hq hrun hrec =>
    by_cases hd : C.down j = none
    · exact (hC.sinkEmpty h hd).fwd _ _ (by rw [hq]; exact List.mem_cons_self)
    · obtain ⟨peers, hok⟩ := hC.contiguous hr hd hq hrun
      rw [hok] at hrec
      cases hrec
  | table hd hq _ hnone =>
    have hknows := hr.known_tcp (by rw [hq]; exact List.mem_cons_self)
    obtain ⟨tc, htc⟩ := hC.tables _ _ _ hd hknows
    exact absurd (htc.symm.trans hnone) (by rintro ⟨⟩)
  | removal hd hq _ _ hrng =>
    rw [hC.own_absent hr hd hq] at hrng
    cases hrng
  | callback _ _ _ htc hcbk =>
    rw [hC.noCbk _ _ _ htc] at hcbk
    cases hcbk

/--
**守るべきことを守った森は、どの run でも落ちない。**

table を下流にも登録し、callback を使わず、下流の無い node が `Inc` も転送もしなければ、`Inc`・tick・`ShutDown` がどう入り
混じっても、`CHECK` に落ちる一歩も NULL の socket を使う一歩も無い。
-/
theorem forest_never_aborts (hC : ForestSafe C)
    (h : SysReachableUnder C (fun _ l => l.incAbove C = true) s) (l : SysLabel Node V) (e : Fault) :
    sysStep C s l ≠ some (.error e) :=
  fun he => hC.no_site h (SysReachable.abort_site h.reachable he)

omit [DecidableEq Node] [Zero V] [DecidableEq V] in
theorem SysLabel.incAbove_of_not_isInc {l : SysLabel Node V} (h : l.isInc = false) :
    l.incAbove C = true := by
  cases l with
  | node j k => cases k <;> first | rfl | cases h
  | _ => rfl

/--
**守るべきことを守った森は、いつでも最後まで終わらせられる。**

着けるどの状態からも、もう `Inc` をせずに、propagator がどれも TERM、上流のある receiver もどれも TERM の状態に着ける。
`ShutDown` が戻らずに残るのは、上流の無い receiver が TERM_SELF の node だけである。
-/
theorem forest_can_shut_down (hC : ForestSafe C) (hn : ∀ j, 0 < C.nanosec j)
    (h : SysReachableUnder C (fun _ l => l.incAbove C = true) s) :
    ∃ s', Lts.ReachableUnder (sysStep C) (fun _ l => l.isInc = false) s s' ∧ ∀ j,
      (s'.node j).prop.state = .term ∧
      ((s'.node j).recv.state = .term ∨
        (s'.node j).recv.state = .termSelf ∧ ∀ u, C.down u ≠ some j) ∧
      ((s'.node j).app = .finished ↔ (s'.node j).recv.state = .term) := by
  obtain ⟨s', hreach, hend⟩ := SysReachable.wind_down h.reachable
  have hr' : SysReachableUnder C (fun _ l => l.incAbove C = true) s' :=
    h.trans (hreach.mono fun _ _ hint => SysLabel.incAbove_of_not_isInc hint.1)
  have hr : SysReachable C s' := hr'.reachable
  rcases hend with ⟨l, e, herr⟩ | hq
  · exact absurd (hr.abort_site herr) (hC.no_site hr')
  · refine ⟨s', hreach.mono fun _ _ hint => hint.1, fun j => ?_⟩
    obtain ⟨hprop, hrecv⟩ := hr.halted_outcome hn hq.halted j
    exact ⟨hprop, hrecv, hq.finished_iff hr hn j⟩

/-! ## 一本道 -/

/-- 端の node だけは受け取った update を渡さない一本道。 -/
def sinkPath : SysConfig (Fin 3) (BitVec 32) where
  toTopology := pathTopology.toTopology
  nanosec := pathTopology.nanosec
  tableDir := fun j => (∅ : AList fun _ : TableId => TableConfig (BitVec 32)).insert 0
    { loopTable with forwardUpdates := (pathTopology.down j).isSome }

theorem sinkPath_lookup {j : Fin 3} {t : TableId} {tc : TableConfig (BitVec 32)}
    (h : (sinkPath.tableDir j).lookup t = some tc) :
    t = 0 ∧ tc = { loopTable with forwardUpdates := (pathTopology.down j).isSome } := by
  by_cases ht : t = 0
  · subst ht
    rw [sinkPath, AList.lookup_insert] at h
    exact ⟨rfl, (Option.some.inj h).symm⟩
  · rw [sinkPath, AList.lookup_insert_ne ht] at h
    cases h

theorem sinkPath_safe : ForestSafe sinkPath where
  forest := pathTopology_isForest
  tables := by
    rintro u d t - ⟨tc, htc⟩
    rw [(sinkPath_lookup htc).1]
    exact ⟨_, AList.lookup_insert _⟩
  noCbk := by
    intro j t tc htc
    rw [(sinkPath_lookup htc).2]
    rfl
  forward := by
    intro j t tc htc
    rw [(sinkPath_lookup htc).2]
    exact Option.isSome_iff_ne_none

/-- node 0 の update が端まで届いた所で、`forest_never_aborts` を使う。 -/
theorem forest_never_aborts_sinkPath : ∃ s,
    SysReachableUnder sinkPath (fun _ l => l.incAbove sinkPath = true) s ∧
    (s.node 2).storage 0 1 = 1 ∧ ∀ l e, sysStep sinkPath s l ≠ some (.error e) := by
  let labels : List (SysLabel (Fin 3) (BitVec 32)) := List.flatten
    [incLabels 0 1 1, tickLabels 0 ⟨[(1, 1)], [], [(1, 1)]⟩, [.tcp 0, .node 1 .pullRecv],
      relayLabels 1 ⟨[(1, 1)], [(0, ⟨0, 0⟩)], []⟩, [.tcp 1]]
  obtain ⟨s, hr, hone⟩ : ∃ s, SysReachableUnder sinkPath
      (fun _ l => l.incAbove sinkPath = true) s ∧ (s.node 2).storage 0 1 = 1 :=
    Lts.ReachableUnder.exists_of_run labels (by decide +kernel)
  exact ⟨s, hr, hone, forest_never_aborts sinkPath_safe hr⟩

/-- node 0 の log が一つ待っている所で、`forest_can_shut_down` を使う。 -/
theorem forest_can_shut_down_sinkPath : ∃ s s',
    SysReachableUnder sinkPath (fun _ l => l.incAbove sinkPath = true) s ∧
    (s.node 0).appQ.length = 1 ∧
    Lts.ReachableUnder (sysStep sinkPath) (fun _ l => l.isInc = false) s s' ∧
    ∀ j, (s'.node j).prop.state = .term := by
  obtain ⟨s, hr, hq⟩ : ∃ s, SysReachableUnder sinkPath
      (fun _ l => l.incAbove sinkPath = true) s ∧ (s.node 0).appQ.length = 1 :=
    Lts.ReachableUnder.exists_of_run [.node 0 (.inc 0 0 1 1)] (by decide +kernel)
  obtain ⟨s', hreach, hout⟩ := forest_can_shut_down sinkPath_safe (by decide) hr
  exact ⟨s, s', hr, hq, hreach, fun j => (hout j).1⟩

end QuiltDB
