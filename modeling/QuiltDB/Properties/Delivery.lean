import QuiltDB.Properties.Prefix

/-!
# update は高々一度しか足されない

輪の外の node の update は、その道が輪に入らない限り、どの table にも高々一度しか足されない。道が輪に入ると、自分の
range を除く node に戻らないので、update は輪を回るたびに足される。

table の値は可換群の元として見る。値は何でもよいので、例えば update に元の node の印を付けておけば、どの node の
update が何度足されたかが table の値から読める。
-/

namespace QuiltDB

open Segments Totals Slices

variable {V Node : Type}

/-! ## node の持つ値 -/

section within

variable [AddCommGroup V] {H H' : AddSubgroup (Key → V)} {v v' : TabView V}

/-- node の table・store・buffer の値が、全て `H` の中にある。 -/
structure NodeWithin (H : AddSubgroup (Key → V)) (v : TabView V) : Prop where
  storage : v.storage ∈ H
  updateStore : content v.pt.updateStore ∈ H
  myUpdateStore : content v.pt.myUpdateStore ∈ H
  pend : ∀ b, v.pend = some b → total b.updates ∈ H
  reg : ∀ b ∈ v.reg, total b.updates ∈ H
  my : ∀ b ∈ v.my.getD [], total b.updates ∈ H
  fwd : ∀ b ∈ v.fwd, total b.updates ∈ H

theorem NodeWithin.mono (hle : H ≤ H') (h : NodeWithin H v) : NodeWithin H' v where
  storage := hle h.storage
  updateStore := hle h.updateStore
  myUpdateStore := hle h.myUpdateStore
  pend := fun b hb => hle (h.pend b hb)
  reg := fun b hb => hle (h.reg b hb)
  my := fun b hb => hle (h.my b hb)
  fwd := fun b hb => hle (h.fwd b hb)

/-- 引く batch が全て `H` の中にあれば、引いた残りも `H` の中にある。 -/
theorem Receiver.removeMyUpdates_within {myId : NodeId} {rng : UpdateRange}
    {queue queue' : List (UpdateBuffer V)} {seqNum : Int} {b b' : UpdateBuffer V}
    (h : removeMyUpdates myId (fun x y => x - y) rng queue seqNum b = .ok (queue', b'))
    (hq : ∀ q ∈ queue, total q.updates ∈ H) (hb : total b.updates ∈ H) : total b'.updates ∈ H := by
  induction queue generalizing seqNum b with
  | nil => cases h
  | cons q queue ih =>
    obtain ⟨_, _, _, b₁, hcons, -, -, -, hsub, hcase⟩ := removeMyUpdates_ok_cases h
    obtain ⟨rfl, rfl⟩ := List.cons.inj hcons
    have hb₁ : total b₁.updates ∈ H := by
      rw [total_subtractUpdates hsub]
      exact H.sub_mem hb (hq q List.mem_cons_self)
    rcases hcase with ⟨-, hrec⟩ | ⟨-, -, rfl⟩
    · exact ih hrec (fun x hx => hq x (List.mem_cons_of_mem _ hx)) hb₁
    · exact hb₁

theorem Receiver.dedup_within {C : SysConfig Node V} {c : NodeConfig V} {t : TableId}
    {r r' : Receiver V} {it : InternalTable V} {b b' : UpdateBuffer V} (hok : ChanOk C b)
    (hid : 0 ≤ c.myId) (hvsub : it.vsubFunc = fun x y => x - y)
    (h : dedup c r t it b = .ok (r', b')) (hmy : ∀ q ∈ (r.myUpdates t).getD [], total q.updates ∈ H)
    (hb : total b.updates ∈ H) :
    total b'.updates ∈ H ∧ ∀ q ∈ (r'.myUpdates t).getD [], total q.updates ∈ H := by
  obtain ⟨k, hk⟩ := hok.packed
  rcases dedup_spec hk hid h with ⟨-, rfl, rfl⟩ |
    ⟨pre, rng, post, queue, queue', b₁, -, hq, hrem, hq', hup, -⟩
  · exact ⟨hb, hmy⟩
  · rw [hq, Option.getD_some] at hmy
    rw [hvsub] at hrem
    rw [hup, hq', Option.getD_some]
    exact ⟨removeMyUpdates_within hrem hmy hb,
      fun q hmem => hmy q ((removeMyUpdates_frame hrem).2.2.subset hmem)⟩

theorem addLog_within {c : NodeConfig V} {t : TableId} {pt : PropTable V} {tc : TableConfig V}
    {key : Key} {delta : V} (htc : c.tableDir.lookup t = some tc) (hadd : tc.vaddFunc = (· + ·))
    (hstore : content pt.updateStore ∈ H) (hmine : content pt.myUpdateStore ∈ H)
    (hdelta : Pi.single key delta ∈ H) :
    content (Propagator.addLog c t pt key delta).updateStore ∈ H ∧
      content (Propagator.addLog c t pt key delta).myUpdateStore ∈ H := by
  have hput : ∀ m, content m ∈ H → content (Propagator.addUpdate tc.vaddFunc m key delta) ∈ H := by
    intro m hm
    rw [hadd, content_addUpdate]
    exact H.add_mem hm hdelta
  unfold Propagator.addLog
  rw [htc]
  dsimp only
  split
  · exact ⟨hstore, hmine⟩
  · refine ⟨hput _ hstore, ?_⟩
    dsimp only
    split
    · exact hput _ hmine
    · exact hmine

variable [DecidableEq Node] {C : SysConfig Node V} {t : TableId} {j : Node} {tc : TableConfig V}
  {ib : Option (UpdateBuffer V)} {push : List (UpdateBuffer V)} {ev : List (Event V)}

/-- `Inc` と log と届いた buffer が `H` の中にあれば、node は `H` の外の値を作らない。 -/
theorem NodeWithin.step (hs : NodeShape C j v) (h : NodeWithin H v)
    (htc : (C.tableDir j).lookup t = some tc) (hadd : tc.vaddFunc = (· + ·))
    (hvsub : tc.vsubFunc = fun x y => x - y)
    (hev : ∀ kv, kv ∈ incsOf (C.id j) t ev ∨ kv ∈ logsOf (C.id j) t ev → Pi.single kv.1 kv.2 ∈ H)
    (hib : ∀ b, ib = some b → ChanOk C b ∧ total b.updates ∈ H)
    (he : TabEff (C.nodeConfig j) t v ib v' push ev) :
    NodeWithin H v' ∧ ∀ b ∈ push, total b.updates ∈ H := by
  have hnil : ∀ b ∈ ([] : List (UpdateBuffer V)), total b.updates ∈ H := by rintro _ ⟨⟩
  have hzero : content (∅ : AList fun _ : Key => V) ∈ H := H.zero_mem
  cases he with
  | skip | dropLog | discard | noPeer => exact ⟨{ h with }, hnil⟩
  | stop => exact ⟨{ h with updateStore := hzero }, hnil⟩
  | dropBuffer _ hf =>
    refine ⟨{ h with fwd := fun q hq => h.fwd q ?_ }, hnil⟩
    rw [hf]
    exact List.mem_cons_of_mem _ hq
  | @inc key delta tc' htc' =>
    obtain rfl : tc' = tc := Option.some.inj (htc'.symm.trans htc)
    have hmem : (key, delta) ∈ incsOf (C.id j) t [.inc (C.nodeConfig j).myId t key delta] := by
      simp [incsOf, Event.incDelta, SysConfig.nodeConfig]
    refine ⟨{ h with storage := ?_ }, hnil⟩
    dsimp only
    rw [hadd, incRaw_add]
    exact H.add_mem h.storage (hev _ (Or.inl hmem))
  | @log l₁ l₂ key delta =>
    have hmem : (key, delta) ∈
        logsOf (C.id j) t [.logHandled (C.nodeConfig j).myId t key delta] := by
      simp [logsOf, Event.handledLog, SysConfig.nodeConfig]
    obtain ⟨h1, h2⟩ := addLog_within (c := C.nodeConfig j) htc hadd h.updateStore h.myUpdateStore
      (hev _ (Or.inr hmem))
    exact ⟨{ h with updateStore := h1, myUpdateStore := h2 }, hnil⟩
  | @ask fo buff peers myBuff _ _ _ _ _ hv hst hb _ _ _ hmb =>
    have hbuff : total buff.updates ∈ H :=
      ((hs.flush hv hst hb).total_updates hv).symm ▸ h.updateStore
    have hmine : total myBuff.updates ∈ H := by
      rw [(Propagator.buildMyBuffer_spec (C.id_nonneg j) hmb).2.1, total_perm hv.2.2, total_pairs]
      exact h.myUpdateStore
    refine ⟨{ h with
      updateStore := hzero, myUpdateStore := hzero
      pend := fun b hb => Option.some.inj hb ▸ hbuff
      reg := fun b hb => List.mem_singleton.mp hb ▸ hmine }, hnil⟩
  | @send fo buff peers _ _ _ hv hst hb =>
    have hbuff : total buff.updates ∈ H :=
      ((hs.flush hv hst hb).total_updates hv).symm ▸ h.updateStore
    exact ⟨{ h with updateStore := hzero }, fun b hb => List.mem_singleton.mp hb ▸ hbuff⟩
  | @reply buff _ hpend _ =>
    exact ⟨{ h with pend := by rintro _ ⟨⟩ },
      fun b hb => List.mem_singleton.mp hb ▸ h.pend buff hpend⟩
  | @register b _ hreg =>
    refine ⟨{ h with reg := by rintro _ ⟨⟩, my := fun q hq => ?_ }, hnil⟩
    dsimp only at hq
    split at hq
    · rw [Option.getD_some, List.mem_append] at hq
      exact hq.elim (h.my q) fun hq => h.reg q (hreg ▸ hq)
    · exact h.my q hq
  | recvStop =>
    refine ⟨{ h with my := fun q hq => ?_ }, hnil⟩
    cases hm : v.my <;> simp [hm] at hq
  | @process b b' r r' tc' _ _ htc' hr hd =>
    obtain rfl : tc' = tc := Option.some.inj (htc'.symm.trans htc)
    obtain ⟨hok, hb⟩ := hib b rfl
    obtain ⟨hb', hmy⟩ := Receiver.dedup_within hok (C.id_nonneg j) hvsub hd (hr ▸ h.my) hb
    refine ⟨{ h with my := hmy, storage := ?_, fwd := fun q hq => ?_ }, hnil⟩
    · dsimp only
      split
      · rw [hadd, foldl_incRaw, UpdateBuffer.iterUpdates_eq]
        exact H.add_mem h.storage hb'
      · exact h.storage
    · rcases List.mem_append.mp hq with hq | hq
      · exact h.fwd q hq
      · split at hq
        · exact List.mem_singleton.mp hq ▸ hb'
        · cases hq
  | @record b rest tc' peers _ _ hf htc' _ =>
    obtain rfl : tc' = tc := Option.some.inj (htc'.symm.trans htc)
    have hb : total b.updates ∈ H := h.fwd b (by rw [hf]; exact List.mem_cons_self)
    refine ⟨{ h with updateStore := ?_, fwd := fun q hq => h.fwd q ?_ }, hnil⟩
    · dsimp only
      rw [hadd, content_foldl_addUpdate, UpdateBuffer.iterUpdates_eq]
      exact H.add_mem h.updateStore hb
    · rw [hf]
      exact List.mem_cons_of_mem _ hq

end within

/-! ## 着かない node の update は混ざらない -/

section fed

variable [AddCommGroup V] [DecidableEq Node] {C : SysConfig Node V} {t : TableId} {j : Node}
  {Q : Node → UpdateBuffer V → Prop} {S : TabSys Node V}

/-- `j` に着く node の update から、足し引きで作れる表の全体。 -/
def fedUpdates (C : SysConfig Node V) (t : TableId) (j : Node) (trace : List (Event V)) :
    AddSubgroup (Key → V) :=
  AddSubgroup.closure {f | ∃ w, C.Feeds w j ∧ ∃ kv,
    (kv ∈ incsOf (C.id w) t trace ∨ kv ∈ logsOf (C.id w) t trace) ∧ Pi.single kv.1 kv.2 = f}

omit [DecidableEq Node] in
theorem fedUpdates_append (tr ev : List (Event V)) :
    fedUpdates C t j tr ≤ fedUpdates C t j (tr ++ ev) := by
  refine AddSubgroup.closure_mono ?_
  rintro f ⟨w, hw, kv, hkv, rfl⟩
  refine ⟨w, hw, kv, ?_, rfl⟩
  rw [incsOf_append, logsOf_append]
  exact hkv.imp (List.mem_append_left _) (List.mem_append_left _)

omit [DecidableEq Node] in
theorem fedUpdates_down {u d : Node} (hd : C.down u = some d) (tr : List (Event V)) :
    fedUpdates C t u tr ≤ fedUpdates C t d tr := by
  refine AddSubgroup.closure_mono ?_
  rintro f ⟨w, hw, hf⟩
  exact ⟨w, hw.down hd, hf⟩

omit [DecidableEq Node] in
/-- 一歩の `Inc` と log は、その node の update である。 -/
theorem single_mem_fedUpdates (tr : List (Event V)) {ev : List (Event V)} {kv : Key × V}
    (h : kv ∈ incsOf (C.id j) t ev ∨ kv ∈ logsOf (C.id j) t ev) :
    Pi.single kv.1 kv.2 ∈ fedUpdates C t j (tr ++ ev) := by
  refine AddSubgroup.subset_closure ⟨j, .refl, kv, ?_, rfl⟩
  rw [incsOf_append, logsOf_append]
  exact h.imp (List.mem_append_right _) (List.mem_append_right _)

/-- **どの node も、自分に着く node の update だけを持つ。** -/
theorem TabReach.within (h : TabReach C t Q S)
    (hC : ∀ j, ∃ tc, (C.tableDir j).lookup t = some tc ∧ tc.vaddFunc = (· + ·) ∧
      tc.vsubFunc = fun x y => x - y) :
    (∀ j, NodeWithin (fedUpdates C t j S.trace) (S.view j)) ∧
      ∀ u, ∀ b ∈ S.chan u, total b.updates ∈ fedUpdates C t u S.trace := by
  refine h.invariant (I := fun S => (∀ j, NodeWithin (fedUpdates C t j S.trace) (S.view j)) ∧
    ∀ u, ∀ b ∈ S.chan u, total b.updates ∈ fedUpdates C t u S.trace) ?_ ?_
  · refine ⟨fun j => ?_, by rintro _ _ ⟨⟩⟩
    exact ⟨zero_mem _, zero_mem _, zero_mem _, by rintro _ ⟨⟩, by rintro _ ⟨⟩, by rintro _ ⟨⟩,
      by rintro _ ⟨⟩⟩
  · rintro S S' hr hs ⟨hnode, hchan⟩
    refine hs.forall_node (I := fun tr j v => NodeWithin (fedUpdates C t j tr) v)
      (J := fun tr u b => total b.updates ∈ fedUpdates C t u tr) hnode hchan ?_
      (fun _ k _ _ _ ev _ _ hk => hk.mono (fedUpdates_append _ ev))
      (fun _ _ ev hb => fedUpdates_append _ ev hb)
    intro j ib v' push ev hib he
    obtain ⟨tc, htc, hadd, hvsub⟩ := hC j
    refine ((hnode j).mono (fedUpdates_append _ ev)).step (hr.shape.node j) htc hadd hvsub
      (fun kv hkv => single_mem_fedUpdates _ hkv) (fun b hb => ?_) he
    obtain ⟨⟨u, hd, hu⟩, -⟩ := hib b hb
    exact ⟨hr.shape.chan u b hu,
      fedUpdates_append _ ev (fedUpdates_down hd _ (hchan u b hu))⟩

end fed

/-! ## 一度だけ足される -/

section once

variable [DecidableEq Node] {C : SysConfig Node V} {t : TableId} {o j : Node}

/-- 道が輪に入らない node から着く所では、どの node の range も重ならずに届く。 -/
theorem TabReach.recvSegs_chain [Zero V] {Q : Node → UpdateBuffer V → Prop} {S : TabSys Node V}
    (h : TabReach C t Q S) (ho : C.AvoidsRings o) (hj : C.Feeds o j) (w : Node) :
    ∃ e, Chain (· ≤ ·) 0 (recvSegs C t w S.trace j) e := by
  by_cases hw : C.Feeds w j
  · exact ⟨_, ((h.flow_le (ho.of_feeds hj hw).singleFeed).node j).recv⟩
  · rw [h.recvSegs_nil hw]
    exact ⟨0, le_rfl⟩

variable [AddCommGroup V] [DecidableEq V] {s : SysState Node V}

/--
node `j` の table は、自分の `Inc` に、他の node の log を高々一度ずつ足したものである。

`part w` は、node `w` の log のうち足されたものを番号の順に選び出したものである。
-/
def AppliedOnce (C : SysConfig Node V) (t : TableId) (s : SysState Node V) (j : Node) : Prop :=
  ∃ part : Node → List (Key × V), (∀ w, (part w).Sublist (logsOf (C.id w) t s.trace)) ∧
    (s.node j).storage t
      = total (incsOf (C.id j) t s.trace) + ∑ w ∈ C.nodeSet.erase j, total (part w)

/--
**update は高々一度しか足されない。** 道が輪に入らない node `o` の update について。`o` から着く node の table には、`o` の
log も他の node の log も高々一度ずつしか足されていない。`o` から着かない node の table は、その node に着く node の
update だけからできている。
-/
theorem received_at_most_once (ho : C.AvoidsRings o)
    (hC : ∀ j, ∃ tc, (C.tableDir j).lookup t = some tc ∧ tc.vaddFunc = (· + ·) ∧
      tc.vsubFunc = (fun x y => x - y) ∧ tc.applyUpdates = true)
    (h : SysReachable C s) (j : Node) :
    (C.Feeds o j → AppliedOnce C t s j) ∧
    (¬C.Feeds o j → (s.node j).storage t ∈ fedUpdates C t j s.trace) := by
  have htab := h.tabReach t
  have hlogs : ∀ w, logsOf (C.id w) t (s.tab t).trace = logsOf (C.id w) t s.trace := fun w =>
    handledLog_local.filterMap_filter s.trace
  have hincs : ∀ w, incsOf (C.id w) t (s.tab t).trace = incsOf (C.id w) t s.trace := fun w =>
    incDelta_local.filterMap_filter s.trace
  constructor
  · intro hj
    have hfaith := htab.faithfulOn_offRing fun j => by
      obtain ⟨tc, htc, hadd, -, happly⟩ := hC j
      exact ⟨tc, htc, hadd, happly⟩
    refine ⟨fun w => (recvSegs C t w s.trace j).flatMap
      fun x => ((logsOf (C.id w) t s.trace).take x.2.toNat).drop x.1.toNat, fun w => ?_, ?_⟩
    · obtain ⟨e, he⟩ := htab.recvSegs_chain ho hj w
      rw [show (s.tab t).trace = s.trace.filter (Event.isOf t) from rfl, recvSegs_filter] at he
      exact flatMap_sublist_of_chain (logsOf (C.id w) t s.trace) he
    · refine (hfaith.table j (ho.offRing hj)).storage.trans ?_
      rw [hincs]
      refine congrArg _ (Finset.sum_congr rfl fun w _ => ?_)
      rw [total_flatMap_slices, hlogs,
        show (s.tab t).trace = s.trace.filter (Event.isOf t) from rfl, recvSegs_filter]
  · intro _
    have hwithin := (htab.within fun j => by
      obtain ⟨tc, htc, hadd, hvsub, -⟩ := hC j
      exact ⟨tc, htc, hadd, hvsub⟩).1 j
    have hstorage : (s.node j).storage t ∈ fedUpdates C t j (s.tab t).trace := hwithin.storage
    unfold fedUpdates at hstorage
    simp only [hincs, hlogs] at hstorage
    exact hstorage

end once

/-! ## 例 -/

/-- node 0 は輪の上に無い。 -/
theorem tailedRing_offRing : tailedRing.OffRing 0 := by
  intro d hd hback
  have hne : ∀ x d : Fin 3, tailedRing.down x = some d → d ≠ 0 := by decide
  rcases Relation.ReflTransGen.cases_tail hback with h0 | ⟨x, -, hx⟩
  · exact hne 0 d hd h0.symm
  · exact hne x 0 hx rfl

/-- node 0 の update が node 1 に届いた所で、`received_at_most_once` を使う。 -/
theorem received_once_pathTopology :
    ∃ s, SysReachable pathTopology s ∧ (s.node 1).storage 0 1 = 1 ∧
      AppliedOnce pathTopology 0 s 1 ∧
      (s.node 0).storage 0 ∈ fedUpdates pathTopology 0 0 s.trace := by
  obtain ⟨s, hr, hone⟩ : ∃ s, SysReachable pathTopology s ∧ (s.node 1).storage 0 1 = 1 :=
    Lts.Reachable.exists_of_run
      (incLabels 0 1 1 ++ tickLabels 0 ⟨[(1, 1)], [], [(1, 1)]⟩ ++ [.tcp 0]) (by decide +kernel)
  have hC : ∀ j, ∃ tc, (pathTopology.tableDir j).lookup 0 = some tc ∧ tc.vaddFunc = (· + ·) ∧
      tc.vsubFunc = (fun x y => x - y) ∧ tc.applyUpdates = true :=
    fun _ => ⟨loopTable, rfl, rfl, rfl, rfl⟩
  have hfeed : pathTopology.Feeds 0 1 := .single (by decide)
  have hback : ¬pathTopology.Feeds 1 0 := fun hf => pathTopology_isForest 0 0 1 .refl (by decide) hf
  exact ⟨s, hr, hone, (received_at_most_once (pathTopology_isForest 0) hC hr 1).1 hfeed,
    (received_at_most_once (pathTopology_isForest 1) hC hr 0).2 hback⟩

/-- 輪の外の node 0 の一つの update は、輪を一周して node 1 の table に二度足される。 -/
theorem received_twice_tailedRing :
    ∃ s, SysReachable tailedRing s ∧
      (∀ j, (s.node j).prop.state = .run ∧ (s.node j).recv.state = .run) ∧
      tailedRing.OffRing 0 ∧ (s.node 1).storage 0 1 = 2 ∧ ¬AppliedOnce tailedRing 0 s 1 := by
  let labels : List (SysLabel (Fin 3) (BitVec 32)) := List.flatten
    [incLabels 0 1 1, tickLabels 0 ⟨[(1, 1)], [], [(1, 1)]⟩, [.tcp 0, .node 1 .pullRecv],
      relayLabels 1 ⟨[(1, 1)], [(0, ⟨0, 0⟩)], []⟩, [.tcp 1, .node 2 .pullRecv],
      relayLabels 2 ⟨[(1, 1)], [(0, ⟨0, 0⟩)], []⟩, [.tcp 2]]
  obtain ⟨s, hr, h1, hlog, hnone, hinc, h2⟩ : ∃ s, SysReachable tailedRing s ∧
      (∀ j, (s.node j).prop.state = .run ∧ (s.node j).recv.state = .run) ∧
      logsOf 0 0 s.trace = [(1, 1)] ∧ logsOf 2 0 s.trace = [] ∧ incsOf 1 0 s.trace = [] ∧
      (s.node 1).storage 0 1 = 2 :=
    Lts.Reachable.exists_of_run labels (by decide +kernel)
  refine ⟨s, hr, h1, tailedRing_offRing, h2, ?_⟩
  rintro ⟨part, hsub, hsum⟩
  have hpart : part 0 = [] ∨ part 0 = [(1, 1)] := List.sublist_singleton.mp (hlog ▸ hsub 0)
  have hempty : part 2 = [] := List.sublist_nil.mp (hnone ▸ hsub 2)
  -- node 0 の log は一つだから、高々一度なら値は 1 までである
  have hone := congrFun hsum 1
  rw [show tailedRing.nodeSet.erase 1 = {0, 2} by decide,
    Finset.sum_pair (by decide : (0 : Fin 3) ≠ 2), hempty, h2,
    show incsOf (tailedRing.id 1) 0 s.trace = [] from hinc] at hone
  rcases hpart with h0 | h0
  · rw [h0] at hone
    revert hone
    decide
  · rw [h0] at hone
    revert hone
    decide

end QuiltDB
