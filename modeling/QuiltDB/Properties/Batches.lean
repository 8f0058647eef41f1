import QuiltDB.Lib.Segments
import QuiltDB.Properties.Shape

/-!
# batch は割れない

propagator が一度の flush で送り出した自分の range を batch と呼ぶ。batch は 0 から隙間なく並び、
system のどこにある range も、いくつかの続いた batch をちょうど合わせたものである。

その理由は、range の両端がいつも batch の切れ目（`cutsOf`）にあることである。
-/

namespace QuiltDB

variable {V Node : Type} [DecidableEq Node]

/-! ## batch -/

/-- 閉区間 `[st, end_]` を半開区間として見る。 -/
def UpdateRange.seg (r : UpdateRange) : Int × Int := (r.st, r.end_ + 1)

/-- propagator `id` が table `t` の buffer を送った時の、自分の range。 -/
def Event.batch (id : NodeId) (t : TableId) : Event V → Option UpdateRange
  | .sent k t' b => if k = id ∧ t' = t then b.getNodeRange id else none
  | _ => none

/-- 履歴の中の batch の列。 -/
def batches (id : NodeId) (t : TableId) (trace : List (Event V)) : List UpdateRange :=
  trace.filterMap (Event.batch id t)

theorem batch_local {id : NodeId} {t : TableId} :
    Event.Local (V := V) id t (Event.batch id t) := by
  intro e he
  cases e with
  | sent k t' b =>
    have h : k = id ∧ t' = t := of_not_not fun hne => he (if_neg hne)
    exact ⟨h.1, beq_iff_eq.mpr h.2⟩
  | inc | logHandled | myUpdatesSent | registered | ackReceived | termAckSent | received
  | recorded => exact absurd rfl he

/-- batch の切れ目。 -/
def cutsOf (id : NodeId) (t : TableId) (trace : List (Event V)) : List Int :=
  Segments.cuts 0 ((batches id t trace).map UpdateRange.seg)

/-- 両端が切れ目にある。 -/
def OnCuts (t : TableId) (trace : List (Event V)) (id : NodeId) (r : UpdateRange) : Prop :=
  r.st ∈ cutsOf id t trace ∧ r.end_ + 1 ∈ cutsOf id t trace

theorem batches_append (id : NodeId) (t : TableId) (tr ev : List (Event V)) :
    batches id t (tr ++ ev) = batches id t tr ++ batches id t ev := by
  simp [batches]

theorem OnCuts.mono {t : TableId} {tr ev : List (Event V)} {id : NodeId} {r : UpdateRange}
    (h : OnCuts t tr id r) : OnCuts t (tr ++ ev) id r := by
  unfold OnCuts cutsOf at *
  rw [batches_append, List.map_append]
  exact ⟨Segments.mem_cuts_append_left h.1, Segments.mem_cuts_append_left h.2⟩

/-! ## 不変量 -/

/-- buffer の slot の range は、どれも両端が切れ目にある。 -/
def SlotsOnCuts (t : TableId) (trace : List (Event V)) (b : UpdateBuffer V) : Prop :=
  ∀ s ∈ b.slots, 0 ≤ s.nodeId → OnCuts t trace s.nodeId s.range

/-- node 一つの中の range。 -/
structure NodeCuts (C : SysConfig Node V) (t : TableId) (trace : List (Event V)) (j : Node)
    (v : TabView V) : Prop where
  /-- 自分の batch は 0 から `st_` まで隙間なく並ぶ。 -/
  own : Segments.Chain (· = ·) 0 ((batches (C.id j) t trace).map UpdateRange.seg)
    v.pt.myUpdateRange.st
  peers : ∀ id r, v.pt.tablePeersUpdateRange.lookup id = some r → OnCuts t trace id r
  pend : ∀ b, v.pend = some b → ∀ e ∈ b.iterNodeRanges, e.1 ≠ C.id j → OnCuts t trace e.1 e.2
  fwd : ∀ b ∈ v.fwd, SlotsOnCuts t trace b

structure Cuts (C : SysConfig Node V) (t : TableId) (S : TabSys Node V) : Prop where
  node : ∀ j, NodeCuts C t S.trace j (S.view j)
  chan : ∀ u, ∀ b ∈ S.chan u, SlotsOnCuts t S.trace b

variable {C : SysConfig Node V} {t : TableId} {j : Node} {v v' : TabView V}
  {tr ev : List (Event V)}

omit [DecidableEq Node] in
theorem SlotsOnCuts.mono {b : UpdateBuffer V} (h : SlotsOnCuts t tr b) :
    SlotsOnCuts t (tr ++ ev) b := fun s hs hn => (h s hs hn).mono

/-- 詰まった buffer では、iterator に見える range だけを調べればよい。 -/
theorem slotsOnCuts_of_iter {b : UpdateBuffer V} (hb : ∃ k, b.Packed b.iterNodeRanges k)
    (h : ∀ e ∈ b.iterNodeRanges, OnCuts t tr e.1 e.2) : SlotsOnCuts t tr b := by
  obtain ⟨k, hk⟩ := hb
  intro s hs hn
  exact h s.entry (hk.mem_of_slot hs hn)

theorem SlotsOnCuts.iter {b : UpdateBuffer V} (h : SlotsOnCuts t tr b) :
    ∀ e ∈ b.iterNodeRanges, OnCuts t tr e.1 e.2 := by
  intro e he
  rw [UpdateBuffer.iterNodeRanges_eq] at he
  obtain ⟨s, hs, rfl⟩ := List.mem_map.mp he
  have hocc := List.mem_takeWhile_imp hs
  exact h s ((List.takeWhile_prefix _).subset hs) (of_decide_eq_true hocc)

theorem OnCuts.advance {id : NodeId} {r : UpdateRange} (h : OnCuts t tr id r) :
    OnCuts t tr id r.advance := by
  unfold UpdateRange.advance
  split
  · exact ⟨h.2, h.2⟩
  · exact h

/-! ## 一歩で加わる batch -/

section effect

variable [Zero V] {ib : Option (UpdateBuffer V)} {push : List (UpdateBuffer V)}

omit [Zero V] in
theorem batches_sent (id : NodeId) (t : TableId) (b : UpdateBuffer V) :
    batches id t [.sent id t b] = (b.getNodeRange id).toList := by
  have h : Event.batch id t (.sent id t b) = b.getNodeRange id := if_pos ⟨rfl, rfl⟩
  unfold batches
  rw [List.filterMap_cons, h]
  cases b.getNodeRange id <;> rfl

omit [Zero V] in
theorem FlushSpec.getNodeRange_own {pt : PropTable V} {o : FlushOrder V} {buff : UpdateBuffer V}
    {peers : AList fun _ : NodeId => UpdateRange} (h : FlushSpec C j pt o buff peers)
    (hp : ∀ id r, pt.tablePeersUpdateRange.lookup id = some r → id ≠ C.id j) :
    buff.getNodeRange (C.id j)
      = if pt.myUpdateRange.pending then some pt.myUpdateRange else none := by
  obtain ⟨k, hk⟩ := h.ok.packed
  have hpeer : (o.peers.filter fun e => e.2.pending).find? (fun e => e.1 == C.id j) = none := by
    rw [List.find?_eq_none]
    intro e he
    rw [beq_iff_eq]
    exact hp _ _ ((h.mem e).mp (List.mem_filter.mp he).1)
  rw [hk.getNodeRange_eq (C.id_nonneg j), h.ranges, Propagator.outRanges, List.find?_append, hpeer,
    Option.none_or]
  split
  · simp [SysConfig.nodeConfig]
  · rfl

/-- 自分の一歩で増える batch は、今の自分の range である。 -/
theorem NodeShape.batches_own (hs : NodeShape C j v)
    (h : TabEff (C.nodeConfig j) t v ib v' push ev) :
    (batches (C.id j) t ev = [] ∧ v'.pt.myUpdateRange.st = v.pt.myUpdateRange.st) ∨
    (batches (C.id j) t ev = [v.pt.myUpdateRange] ∧ v.pt.myUpdateRange.pending = true ∧
      v'.pt.myUpdateRange.st = v.pt.myUpdateRange.end_ + 1) := by
  cases h with
  | @log _ _ key delta =>
    refine Or.inl ⟨rfl, ?_⟩
    dsimp only
    rw [(addLog_range (C.nodeConfig j) t v.pt key delta).1]
  | @send o buff peers _ _ _ hv hst hb =>
    have hf := hs.flush hv hst hb
    have hget := hf.getNodeRange_own fun id r hr => (hs.peers id r hr).2.1
    have hev : batches (C.id j) t [.sent (C.nodeConfig j).myId t buff]
        = (buff.getNodeRange (C.id j)).toList := batches_sent ..
    rw [hev, hget]
    by_cases hp : v.pt.myUpdateRange.pending = true
    · exact Or.inr ⟨by rw [if_pos hp]; rfl, hp, rfl⟩
    · refine Or.inl ⟨by rw [if_neg hp]; rfl, ?_⟩
      have hle := hs.range
      have hgt : ¬v.pt.myUpdateRange.st ≤ v.pt.myUpdateRange.end_ := by
        simpa [UpdateRange.pending] using hp
      show v.pt.myUpdateRange.end_ + 1 = _
      omega
  | @reply buff _ hpend _ =>
    have hown := hs.own buff hpend
    obtain ⟨k, hk⟩ := (hs.pend buff hpend).packed
    refine Or.inr ⟨?_, ((hs.pend buff hpend).ids _ hown).2, rfl⟩
    have hev : batches (C.id j) t [.ackReceived (C.nodeConfig j).myId t,
        .sent (C.nodeConfig j).myId t buff] = (buff.getNodeRange (C.id j)).toList := batches_sent ..
    rw [hev, hk.getNodeRange_mem hown]
    rfl
  | record => exact Or.inl ⟨filterMap_recorded (fun _ _ => rfl) _, rfl⟩
  | skip | inc | dropLog | stop | ask | register | recvStop | discard | noPeer | process
  | dropBuffer => exact Or.inl ⟨rfl, rfl⟩

end effect

/-! ## 一歩で保たれること -/

section step

variable [Zero V] {ib : Option (UpdateBuffer V)} {push : List (UpdateBuffer V)}

omit [DecidableEq Node] [Zero V] in
/-- 他の node の一歩の後。 -/
theorem NodeCuts.frame (h : NodeCuts C t tr j v) (hev : batches (C.id j) t ev = []) :
    NodeCuts C t (tr ++ ev) j v where
  own := by
    rw [batches_append, hev, List.append_nil]
    exact h.own
  peers := fun id r hr => (h.peers id r hr).mono
  pend := fun b hb e he hne => (h.pend b hb e he hne).mono
  fwd := fun b hb => (h.fwd b hb).mono

/-- 自分の batch の列は、一歩の後も 0 から `st_` まで並ぶ。 -/
theorem NodeCuts.own_step (hs : NodeShape C j v) (h : NodeCuts C t tr j v)
    (he : TabEff (C.nodeConfig j) t v ib v' push ev) :
    Segments.Chain (· = ·) 0 ((batches (C.id j) t (tr ++ ev)).map UpdateRange.seg)
      v'.pt.myUpdateRange.st := by
  rw [batches_append, List.map_append]
  rcases hs.batches_own he with ⟨h1, h2⟩ | ⟨h1, h2, h3⟩
  · rw [h1, h2]
    simpa using h.own
  · rw [h1, h3]
    have hlt : v.pt.myUpdateRange.st ≤ v.pt.myUpdateRange.end_ := of_decide_eq_true h2
    exact h.own.concat rfl (by omega)

omit [DecidableEq Node] [Zero V] in
/-- 送り終えた自分の range は、両端が切れ目にある。 -/
theorem NodeCuts.own_onCuts (h : NodeCuts C t tr j v)
    (hev : batches (C.id j) t ev = [v.pt.myUpdateRange]) :
    OnCuts t (tr ++ ev) (C.id j) v.pt.myUpdateRange := by
  have hst := h.own.end_mem_cuts
  unfold OnCuts cutsOf
  rw [batches_append, hev, List.map_append]
  refine ⟨Segments.mem_cuts_append_left hst, ?_⟩
  simp [Segments.cuts, UpdateRange.seg]

omit [Zero V] in
/-- flush が書く peer の range。 -/
theorem NodeCuts.out_peers (h : NodeCuts C t tr j v) {o : FlushOrder V} {buff : UpdateBuffer V}
    {peers : AList fun _ : NodeId => UpdateRange} (hf : FlushSpec C j v.pt o buff peers) :
    (∀ e ∈ buff.iterNodeRanges, e.1 ≠ C.id j → OnCuts t tr e.1 e.2) ∧
      ∀ id r, peers.lookup id = some r → OnCuts t tr id r := by
  constructor
  · intro e he hne
    rw [hf.ranges, Propagator.outRanges, List.mem_append] at he
    rcases he with he | he
    · exact h.peers _ _ ((hf.mem e).mp (List.mem_filter.mp he).1)
    · split at he
      · exact absurd (congrArg Prod.fst (List.mem_singleton.mp he)) hne
      · cases he
  · intro id r hr
    rw [hf.peers id, Option.map_eq_some_iff] at hr
    obtain ⟨r₀, hr₀, rfl⟩ := hr
    exact (h.peers id r₀ hr₀).advance

omit [DecidableEq Node] [Zero V] in
/-- 送る buffer の range は、送った後の切れ目にある。 -/
theorem NodeCuts.push_onCuts (h : NodeCuts C t tr j v) {buff : UpdateBuffer V} (hb : ChanOk C buff)
    (hpeer : ∀ e ∈ buff.iterNodeRanges, e.1 ≠ C.id j → OnCuts t tr e.1 e.2)
    (hown : ∀ e ∈ buff.iterNodeRanges, e.1 = C.id j →
      e.2 = v.pt.myUpdateRange ∧ batches (C.id j) t ev = [v.pt.myUpdateRange]) :
    SlotsOnCuts t (tr ++ ev) buff := by
  refine slotsOnCuts_of_iter hb.packed ?_
  intro e he
  by_cases hid : e.1 = C.id j
  · obtain ⟨h1, h2⟩ := hown e he hid
    rw [hid, h1]
    exact h.own_onCuts h2
  · exact (hpeer e he hid).mono

omit [DecidableEq Node] [Zero V] in
/-- `st_` が進んだ一歩では、自分の range が batch になっている。 -/
theorem own_batch_of_pending {r : UpdateRange} {st : Int} (hp : r.pending = true)
    (hst : st = r.end_ + 1)
    (h : (batches (C.id j) t ev = [] ∧ st = r.st) ∨
      (batches (C.id j) t ev = [r] ∧ r.pending = true ∧ st = r.end_ + 1)) :
    batches (C.id j) t ev = [r] := by
  have hle : r.st ≤ r.end_ := of_decide_eq_true hp
  rcases h with ⟨-, h2⟩ | ⟨h1, -⟩
  · omega
  · exact h1

theorem NodeCuts.step (hs : NodeShape C j v) (h : NodeCuts C t tr j v)
    (hib : ∀ b, ib = some b → SlotsOnCuts t tr b)
    (he : TabEff (C.nodeConfig j) t v ib v' push ev) :
    NodeCuts C t (tr ++ ev) j v' ∧ ∀ b ∈ push, SlotsOnCuts t (tr ++ ev) b := by
  have hown := h.own_step hs he
  have hbat := hs.batches_own he
  have hnil : ∀ b ∈ ([] : List (UpdateBuffer V)), SlotsOnCuts t (tr ++ ev) b :=
    by rintro _ ⟨⟩
  have hpeers : ∀ id r, v.pt.tablePeersUpdateRange.lookup id = some r → OnCuts t (tr ++ ev) id r :=
    fun id r hr => (h.peers id r hr).mono
  have hpend : ∀ b, v.pend = some b → ∀ e ∈ b.iterNodeRanges, e.1 ≠ C.id j →
      OnCuts t (tr ++ ev) e.1 e.2 := fun b hb e he hne => (h.pend b hb e he hne).mono
  have hfwd : ∀ b ∈ v.fwd, SlotsOnCuts t (tr ++ ev) b := fun b hb => (h.fwd b hb).mono
  cases he with
  | skip | inc | dropLog | stop | register | recvStop | discard | noPeer =>
    exact ⟨⟨hown, hpeers, hpend, hfwd⟩, hnil⟩
  | @log _ _ key delta =>
    refine ⟨⟨hown, ?_, hpend, hfwd⟩, hnil⟩
    dsimp only
    rw [(addLog_range (C.nodeConfig j) t v.pt key delta).2]
    exact hpeers
  | @ask o buff peers myBuff tc _ _ _ _ hv hst hb =>
    obtain ⟨h1, h2⟩ := h.out_peers (hs.flush hv hst hb)
    refine ⟨⟨hown, fun id r hr => (h2 id r hr).mono, ?_, hfwd⟩, hnil⟩
    intro b hb' e he hne
    cases hb'
    exact (h1 e he hne).mono
  | @send o buff peers _ _ _ hv hst hb =>
    have hf := hs.flush hv hst hb
    obtain ⟨h1, h2⟩ := h.out_peers hf
    refine ⟨⟨hown, fun id r hr => (h2 id r hr).mono, hpend, hfwd⟩, ?_⟩
    intro b hb'
    rw [List.mem_singleton.mp hb']
    refine h.push_onCuts hf.ok h1 ?_
    -- 自分の range は、この一歩で切れ目になる
    intro e he hid
    obtain ⟨k, hk⟩ := hf.ok.packed
    have hget := hk.getNodeRange_mem (hid ▸ he : (C.id j, e.2) ∈ buff.iterNodeRanges)
    rw [hf.getNodeRange_own fun id r hr => (hs.peers id r hr).2.1] at hget
    split at hget
    · next hp => exact ⟨(Option.some.inj hget).symm, own_batch_of_pending hp rfl hbat⟩
    · cases hget
  | @reply buff _ hp _ =>
    refine ⟨⟨hown, hpeers, (by rintro _ ⟨⟩), hfwd⟩, ?_⟩
    intro b hb'
    rw [List.mem_singleton.mp hb']
    refine h.push_onCuts (hs.pend buff hp) (h.pend buff hp) ?_
    intro e he hid
    obtain ⟨k, hk⟩ := (hs.pend buff hp).packed
    have hmem := hs.own buff hp
    have heq := List.inj_on_of_nodup_map hk.nodup he hmem hid
    refine ⟨congrArg Prod.snd heq, ?_⟩
    exact own_batch_of_pending ((hs.pend buff hp).ids _ hmem).2 rfl hbat
  | @process b b' r r' tc _ _ _ _ hd =>
    refine ⟨⟨hown, hpeers, hpend, ?_⟩, hnil⟩
    intro q hq
    rcases List.mem_append.mp hq with hq | hq
    · exact hfwd q hq
    -- 自分の slot を消しても、残る slot は届いた buffer のものである
    · split at hq
      · rw [List.mem_singleton.mp hq]
        exact fun s hs hn => (hib b rfl s (Receiver.dedup_slots hd hs hn) hn).mono
      · cases hq
  | @record b rest tc peers _ _ hf _ hrec =>
    have hb : b ∈ v.fwd := by rw [hf]; exact List.mem_cons_self
    refine ⟨⟨hown, ?_, hpend, fun q hq => hfwd q (by rw [hf]; exact List.mem_cons_of_mem _ hq)⟩,
      hnil⟩
    intro id r hr
    dsimp only at hr
    rcases Propagator.recordRanges_lookup (hs.fwd b hb).nodup hrec id with
      ⟨-, hsame⟩ | ⟨r₁, he, -, hnew⟩ | ⟨r₁, r₀, he, hold, -, hnew⟩
    · rw [hsame] at hr
      exact hpeers id r hr
    · rw [hnew] at hr
      cases hr
      exact (hfwd b hb).iter _ he
    · -- 続きを足しても、始まりは前のままである
      rw [hnew] at hr
      cases hr
      exact ⟨(hpeers _ _ hold).1, ((hfwd b hb).iter _ he).2⟩
  | @dropBuffer b rest _ hf =>
    exact ⟨⟨hown, hpeers, hpend, fun q hq => hfwd q (by rw [hf]; exact List.mem_cons_of_mem _ hq)⟩,
      hnil⟩

omit [DecidableEq Node] [Zero V] in
theorem Cuts.of_delivers {Q : Node → UpdateBuffer V → Prop} {S : TabSys Node V} (hi : Cuts C t S)
    (hib : S.Delivers C Q j ib) : ∀ b, ib = some b → SlotsOnCuts t S.trace b := by
  intro b hb
  obtain ⟨⟨u, -, hu⟩, -⟩ := hib b hb
  exact hi.chan u b hu

theorem Cuts.step {Q : Node → UpdateBuffer V → Prop} {S S' : TabSys Node V} (hs : Shape C S)
    (hi : Cuts C t S) (h : TabStep C t Q S S') : Cuts C t S' := by
  obtain ⟨h1, h2⟩ := h.forall_node (I := fun tr j v => NodeCuts C t tr j v)
    (J := fun tr _ b => SlotsOnCuts t tr b) hi.node hi.chan
    (fun j _ _ _ _ hib he => (hi.node j).step (hs.node j) (hi.of_delivers hib) he)
    (fun j k _ _ _ _ hne he hk =>
      hk.frame (batch_local.filterMap_other (he.nodeId_ne hne)))
    (fun _ _ _ hb => hb.mono)
  exact ⟨h1, h2⟩

omit [DecidableEq Node] in
theorem Cuts.start : Cuts C t (TabSys.start : TabSys Node V) := by
  refine ⟨fun j => ?_, by rintro _ _ ⟨⟩⟩
  constructor <;> simp [TabSys.start, batches]

theorem TabReach.cuts {Q : Node → UpdateBuffer V → Prop} {S : TabSys Node V}
    (h : TabReach C t Q S) : Cuts C t S :=
  h.invariant Cuts.start fun _ _ hr hs hi => hi.step hr.shape hs

end step

/-! ## system のどこにある range も batch の和である -/

/-- buffer の埋まった slot に `id` の range `r` がある。 -/
def UpdateBuffer.HasRange (b : UpdateBuffer V) (id : NodeId) (r : UpdateRange) : Prop :=
  ∃ s ∈ b.slots, s.nodeId = id ∧ s.range = r

/-- `id` の range `r` が system の中にある場所。 -/
inductive SysState.Carries (s : SysState Node V) (t : TableId) (id : NodeId) (r : UpdateRange) :
    Prop
  /-- TCP の channel の中 -/
  | channel {u : Node} {b : UpdateBuffer V} : .eprUpdateBuffer t b ∈ s.tcp u → b.HasRange id r →
      Carries s t id r
  /-- receiver から propagator への途中 -/
  | forwarded {j : Node} {b : UpdateBuffer V} : .epUpdateBuffer t b ∈ (s.node j).updQ →
      b.HasRange id r → Carries s t id r
  /-- propagator から receiver への途中 -/
  | registering {j : Node} {b : UpdateBuffer V} : .eMyUpdates t b ∈ (s.node j).pairQ →
      b.HasRange id r → Carries s t id r
  /-- 登録の返事を待っている buffer の中 -/
  | waiting {j : Node} {b : UpdateBuffer V} {todo : List TableId} :
      (s.node j).prop.pc = .waitAck t b todo → b.HasRange id r → Carries s t id r
  /-- `table_peers_update_range` の中 -/
  | peers {j : Node} : ((s.node j).prop.tab t).tablePeersUpdateRange.lookup id = some r →
      Carries s t id r

/-- `o` の batch の列。最後の一つは、登録の返事を待って今送ろうとしているものかもしれない。 -/
def ownBatches (C : SysConfig Node V) (s : SysState Node V) (t : TableId) (o : Node) :
    List UpdateRange :=
  batches (C.id o) t s.trace ++
    (((s.node o).prop.pc.ofTable t).bind fun b => b.getNodeRange (C.id o)).toList

section system

variable {s : SysState Node V} {o : Node} {r : UpdateRange}

/-- table `t` の出来事だけを見ても、batch の列は同じである。 -/
theorem batches_filter (id : NodeId) (t : TableId) (tr : List (Event V)) :
    batches id t (tr.filter (Event.isOf t)) = batches id t tr :=
  batch_local.filterMap_filter tr

omit [DecidableEq Node] in
/-- 返事を待っている間、その buffer の自分の range は今の `my_update_range` である。 -/
theorem NodeShape.waiting_own (h : NodeShape C j v) {b : UpdateBuffer V} (hb : v.pend = some b) :
    b.getNodeRange (C.id j) = some v.pt.myUpdateRange ∧ v.pt.myUpdateRange.pending = true := by
  obtain ⟨k, hk⟩ := (h.pend b hb).packed
  exact ⟨hk.getNodeRange_mem (h.own b hb), ((h.pend b hb).ids _ (h.own b hb)).2⟩

omit [DecidableEq Node] in
theorem Cuts.ownBatches_chain (hs : Shape C (s.tab t)) (hi : Cuts C t (s.tab t)) (o : Node) :
    ∃ e, Segments.Chain (· = ·) 0 ((ownBatches C s t o).map UpdateRange.seg) e := by
  have hown := (hi.node o).own
  rw [show (s.tab t).trace = s.trace.filter (Event.isOf t) from rfl, batches_filter] at hown
  unfold ownBatches
  cases hp : (s.node o).prop.pc.ofTable t with
  | none => exact ⟨_, by simpa using hown⟩
  | some b =>
    obtain ⟨hr, hpend⟩ := (hs.node o).waiting_own hp
    have hle : ((s.tab t).view o).pt.myUpdateRange.st ≤ ((s.tab t).view o).pt.myUpdateRange.end_ :=
      of_decide_eq_true hpend
    rw [Option.bind_some, hr, Option.toList_some, List.map_append]
    exact ⟨_, hown.concat rfl (by omega)⟩

omit [DecidableEq Node] in
/-- 両端が切れ目にある range は、続いた batch の和である。 -/
theorem Cuts.union_of_mem (hs : Shape C (s.tab t)) (hi : Cuts C t (s.tab t))
    (hr : r.st ≤ r.end_)
    (h1 : r.st ∈ Segments.cuts 0 ((ownBatches C s t o).map UpdateRange.seg))
    (h2 : r.end_ + 1 ∈ Segments.cuts 0 ((ownBatches C s t o).map UpdateRange.seg)) :
    ∃ rs, rs ≠ [] ∧ rs <:+: ownBatches C s t o ∧
      Segments.Chain (· = ·) r.st (rs.map UpdateRange.seg) (r.end_ + 1) := by
  obtain ⟨e, he⟩ := hi.ownBatches_chain hs o
  obtain ⟨zs, hne, ⟨pre, post, hinf⟩, hc⟩ := he.between_cuts h1 h2 (by omega)
  obtain ⟨l₁, l₂, hl, hl₁, hl₂⟩ := List.map_eq_append_iff.mp hinf.symm
  obtain ⟨l₃, l₄, rfl, hl₃, hl₄⟩ := List.map_eq_append_iff.mp hl₁
  subst hl₄
  refine ⟨l₄, fun h => hne (by rw [h]; rfl), ⟨l₃, l₂, hl.symm⟩, hc⟩

omit [DecidableEq Node] in
theorem OnCuts.union (hs : Shape C (s.tab t)) (hi : Cuts C t (s.tab t)) (hr : r.st ≤ r.end_)
    (h : OnCuts t (s.tab t).trace (C.id o) r) :
    ∃ rs, rs ≠ [] ∧ rs <:+: ownBatches C s t o ∧
      Segments.Chain (· = ·) r.st (rs.map UpdateRange.seg) (r.end_ + 1) := by
  unfold OnCuts cutsOf at h
  rw [show (s.tab t).trace = s.trace.filter (Event.isOf t) from rfl, batches_filter] at h
  refine hi.union_of_mem hs hr ?_ ?_
  · rw [ownBatches, List.map_append]
    exact Segments.mem_cuts_append_left h.1
  · rw [ownBatches, List.map_append]
    exact Segments.mem_cuts_append_left h.2

omit [DecidableEq Node] in
/-- 返事を待っている間の自分の range は、最後の batch である。 -/
theorem Shape.union_own (hs : Shape C (s.tab t)) {b : UpdateBuffer V}
    (hb : ((s.tab t).view o).pend = some b) :
    ∃ rs, rs ≠ [] ∧ rs <:+: ownBatches C s t o ∧
      Segments.Chain (· = ·) ((s.tab t).view o).pt.myUpdateRange.st (rs.map UpdateRange.seg)
        (((s.tab t).view o).pt.myUpdateRange.end_ + 1) := by
  obtain ⟨hr, hp⟩ := (hs.node o).waiting_own hb
  have hle : ((s.tab t).view o).pt.myUpdateRange.st ≤ ((s.tab t).view o).pt.myUpdateRange.end_ :=
    of_decide_eq_true hp
  have hpc : (s.node o).prop.pc.ofTable t = some b := hb
  refine ⟨[((s.tab t).view o).pt.myUpdateRange], List.cons_ne_nil _ _, ?_, rfl, by
    simp [UpdateRange.seg]; omega, rfl⟩
  refine ⟨batches (C.id o) t s.trace, [], ?_⟩
  rw [ownBatches, hpc, Option.bind_some, hr]
  simp

variable [Zero V] [DecidableEq V]

/-- **batch は割れない。** system のどこにある range も、続いたいくつかの batch の和である。 -/
theorem range_union_of_batches (h : SysReachable C s) (hr : r.st ≤ r.end_)
    (hc : s.Carries t (C.id o) r) :
    ∃ rs, rs ≠ [] ∧ rs <:+: ownBatches C s t o ∧
      Segments.Chain (· = ·) r.st (rs.map UpdateRange.seg) (r.end_ + 1) := by
  have hs : Shape C (s.tab t) := (h.tabReach t).shape
  have hi : Cuts C t (s.tab t) := (h.tabReach t).cuts
  cases hc with
  | @channel u b hb hslot =>
    obtain ⟨slot, hmem, hid, rfl⟩ := hslot
    have hb' : b ∈ (s.tab t).chan u :=
      List.mem_filterMap.mpr ⟨_, hb, by simp [PropRecvMsg.ofTable]⟩
    refine OnCuts.union hs hi hr ?_
    rw [← hid]
    exact hi.chan u b hb' slot hmem (hid ▸ C.id_nonneg o)
  | @forwarded j b hb hslot =>
    obtain ⟨slot, hmem, hid, rfl⟩ := hslot
    have hb' : b ∈ ((s.tab t).view j).fwd :=
      List.mem_filterMap.mpr ⟨_, hb, by simp [PropagatorMsg.ofTable]⟩
    refine OnCuts.union hs hi hr ?_
    rw [← hid]
    exact (hi.node j).fwd b hb' slot hmem (hid ▸ C.id_nonneg o)
  | @peers j hl => exact OnCuts.union hs hi hr ((hi.node j).peers _ _ hl)
  | @registering j b hb hslot =>
    obtain ⟨slot, hmem, hid, rfl⟩ := hslot
    have hb' : b ∈ ((s.tab t).view j).reg :=
      List.mem_filterMap.mpr ⟨_, hb, by simp [ReceiverMsg.ofTable]⟩
    have hslot := ((hs.node j).regRange b hb').mem_of_slot hmem (hid ▸ C.id_nonneg o)
    obtain ⟨hj, hrange⟩ := Prod.mk.inj (List.mem_singleton.mp hslot)
    obtain rfl : o = j := C.id_injective (hid.symm.trans hj)
    rw [hrange]
    cases hp : ((s.tab t).view o).pend with
    | none =>
      rw [(hs.node o).wait hp] at hb'
      cases hb'
    | some b' => exact hs.union_own hp
  | @waiting j b todo hpc hslot =>
    obtain ⟨slot, hmem, hid, rfl⟩ := hslot
    have hp : ((s.tab t).view j).pend = some b := by
      simp [SysState.tab, NodeState.tabView, hpc, PropagatorPc.ofTable]
    obtain ⟨k, hk⟩ := ((hs.node j).pend b hp).packed
    have hslot := hk.mem_of_slot hmem (hid ▸ C.id_nonneg o)
    by_cases hj : o = j
    · subst hj
      have heq := List.inj_on_of_nodup_map hk.nodup hslot ((hs.node o).own b hp) hid
      rw [(Prod.mk.inj heq).2]
      exact hs.union_own hp
    · refine OnCuts.union hs hi hr ?_
      have hne : slot.nodeId ≠ C.id j := fun h => hj (C.id_injective (hid.symm.trans h))
      rw [← hid]
      exact (hi.node j).pend b hp slot.entry hslot hne

/-- node 0 の二つの batch が node 1 の表で一つの range になった所で、`range_union_of_batches` を使う。 -/
theorem range_union_pairRing :
    ∃ s, SysReachable pairRing s ∧ s.Carries 0 (pairRing.id 0) ⟨0, 1⟩ ∧
      ∃ rs, rs ≠ [] ∧ rs <:+: ownBatches pairRing s 0 0 ∧
        Segments.Chain (· = ·) 0 (rs.map UpdateRange.seg) 2 := by
  let batch : List (SysLabel (Fin 2) (BitVec 32)) := List.flatten
    [incLabels 0 1 1, tickLabels 0 ⟨[(1, 1)], [], [(1, 1)]⟩, [.tcp 0, .node 1 .pullRecv]]
  obtain ⟨s, hr, hpeers⟩ : ∃ s, SysReachable pairRing s ∧
      ((s.node 1).prop.tab 0).tablePeersUpdateRange.lookup (pairRing.id 0) = some ⟨0, 1⟩ :=
    Lts.Reachable.exists_of_run (batch ++ batch) (by decide +kernel)
  have hc : s.Carries 0 (pairRing.id 0) ⟨0, 1⟩ := .peers hpeers
  exact ⟨s, hr, hc, range_union_of_batches hr (by decide) hc⟩

end system

end QuiltDB
