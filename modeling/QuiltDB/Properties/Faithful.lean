import QuiltDB.Properties.OwnBatches

/-!
# range は中身を表す

どの buffer も、運んでいる range の log の和をちょうど運んでいる。propagator の store は、まだ送って
いない range の log の和を持ち、table は、自分の `Inc` と受け取った range の log の和を持つ。

receiver が自分の update を除く所だけは、除き方が正しいことを仮定する（`DedupExact`）。森ではそもそも
自分の update が戻らず、輪では登録した batch がちょうど引かれる。
-/

namespace QuiltDB

open Segments Totals Slices

variable {V Node : Type}

/-- 全ての node。 -/
def Topology.nodeSet (T : Topology Node) : Finset Node := ⟨T.nodes, T.nodes_nodup⟩

theorem Topology.mem_nodeSet (T : Topology Node) (o : Node) : o ∈ T.nodeSet := T.mem_nodes o

/-! ## 定義 -/

section definitions

variable [AddCommMonoid V]

/-- buffer の運ぶ range の log の和。 -/
def carried (C : SysConfig Node V) (t : TableId) (trace : List (Event V)) (b : UpdateBuffer V) :
    Key → V :=
  ∑ o ∈ C.nodeSet, piece (logsOf (C.id o) t trace) (b.segOf (C.id o))

/-- buffer の update の和は、運ぶ range の log の和である。 -/
structure Faithful (C : SysConfig Node V) (t : TableId) (trace : List (Event V))
    (b : UpdateBuffer V) : Prop where
  total : total b.updates = carried C t trace b
  bound : ∀ o s, b.segOf (C.id o) = some s → s.2 ≤ (logsOf (C.id o) t trace).length

variable [DecidableEq Node]

/-- 自分の update を除いた buffer `b'` は、他の node の range とその log をちょうど運ぶ。 -/
structure DedupExact (C : SysConfig Node V) (t : TableId) (trace : List (Event V)) (j : Node)
    (b b' : UpdateBuffer V) : Prop where
  total : total b'.updates
    = ∑ o ∈ C.nodeSet.erase j, piece (logsOf (C.id o) t trace) (b.segOf (C.id o))
  own : b'.segOf (C.id j) = none
  peer : ∀ o, o ≠ j → b'.segOf (C.id o) = b.segOf (C.id o)

omit [AddCommMonoid V] in
/-- 記録して、まだ送っていない `o` の range。 -/
def TabView.pendingSeg (C : SysConfig Node V) (j o : Node) (v : TabView V) : Option (Int × Int) :=
  if o = j then v.ownSeg
  else (v.pt.tablePeersUpdateRange.lookup (C.id o)).map UpdateRange.seg

/-- propagator の store と、node の中の buffer。 -/
structure NodeHeld (C : SysConfig Node V) (t : TableId) (trace : List (Event V)) (j : Node)
    (v : TabView V) : Prop where
  /-- 間隔が正でない propagator は log の delta を捨て、何も送らない。 -/
  store : v.pRun = true → 0 < C.nanosec j → content v.pt.updateStore
    = ∑ o ∈ C.nodeSet, piece (logsOf (C.id o) t trace) (v.pendingSeg C j o)
  bound : ∀ o s, v.pendingSeg C j o = some s → s.2 ≤ (logsOf (C.id o) t trace).length
  pend : ∀ b, v.pend = some b → Faithful C t trace b
  fwd : ∀ b ∈ v.fwd, Faithful C t trace b

/-- node の table。 -/
structure NodeTable (C : SysConfig Node V) (t : TableId) (trace : List (Event V)) (j : Node)
    (v : TabView V) : Prop where
  storage : v.storage = total (incsOf (C.id j) t trace)
    + ∑ o ∈ C.nodeSet.erase j,
        ((recvSegs C t o trace j).map (slice (logsOf (C.id o) t trace))).sum
  bound : ∀ o, ∀ s ∈ recvSegs C t o trace j, s.2 ≤ (logsOf (C.id o) t trace).length

end definitions

/-! ## 履歴が伸びても変わらないこと -/

section append

variable [AddCommMonoid V] {C : SysConfig Node V} {t : TableId} {tr : List (Event V)}
  {b b' : UpdateBuffer V}

/-- 収まっている range の和は、履歴が伸びても変わらない。 -/
theorem piece_logs_append {id : NodeId} {s : Option (Int × Int)}
    (h : ∀ x, s = some x → x.2 ≤ (logsOf id t tr).length) (ev : List (Event V)) :
    piece (logsOf id t (tr ++ ev)) s = piece (logsOf id t tr) s := by
  rw [logsOf_append, piece_append _ h]

omit [AddCommMonoid V] in
theorem length_logs_append {id : NodeId} {x : Int} (h : x ≤ (logsOf id t tr).length)
    (ev : List (Event V)) : x ≤ (logsOf id t (tr ++ ev)).length := by
  rw [logsOf_append, List.length_append]
  omega

theorem Faithful.append (h : Faithful C t tr b) (ev : List (Event V)) :
    Faithful C t (tr ++ ev) b := by
  refine ⟨?_, fun o s hs => length_logs_append (h.bound o s hs) ev⟩
  rw [h.total, carried, carried]
  exact Finset.sum_congr rfl fun o _ => (piece_logs_append (h.bound o) ev).symm

variable [DecidableEq Node] {j : Node} {v : TabView V}

theorem DedupExact.faithful (h : DedupExact C t tr j b b') (hb : Faithful C t tr b) :
    Faithful C t tr b' := by
  refine ⟨?_, fun o s hs => ?_⟩
  · rw [h.total, carried, ← Finset.add_sum_erase _ _ (C.mem_nodeSet j), h.own, piece_none, zero_add]
    refine Finset.sum_congr rfl fun o ho => ?_
    rw [h.peer o (Finset.ne_of_mem_erase ho)]
  · by_cases ho : o = j
    · rw [ho, h.own] at hs
      cases hs
    · rw [h.peer o ho] at hs
      exact hb.bound o s hs

/-- 何も動かさない node の store と buffer。 -/
theorem NodeHeld.append (h : NodeHeld C t tr j v) (ev : List (Event V)) :
    NodeHeld C t (tr ++ ev) j v := by
  refine ⟨fun hr hn => ?_, fun o s hs => length_logs_append (h.bound o s hs) ev,
    fun b hb => (h.pend b hb).append ev, fun b hb => (h.fwd b hb).append ev⟩
  rw [h.store hr hn]
  exact Finset.sum_congr rfl fun o _ => (piece_logs_append (h.bound o) ev).symm

theorem sum_slices_append {id : NodeId} {xs : List (Int × Int)}
    (h : ∀ s ∈ xs, s.2 ≤ (logsOf id t tr).length) (ev : List (Event V)) :
    (xs.map (slice (logsOf id t (tr ++ ev)))).sum = (xs.map (slice (logsOf id t tr))).sum := by
  refine congrArg List.sum (List.map_congr_left fun s hs => ?_)
  rw [logsOf_append, slice_append _ (h s hs)]

/-- `Inc` も受け取りも無ければ、table は変わらない。 -/
theorem NodeTable.append (h : NodeTable C t tr j v) {ev : List (Event V)}
    (hincs : incsOf (C.id j) t ev = []) (hrecv : receivedBy (C.id j) t ev = []) {v' : TabView V}
    (hst : v'.storage = v.storage) : NodeTable C t (tr ++ ev) j v' := by
  have hsegs : ∀ o, recvSegs C t o (tr ++ ev) j = recvSegs C t o tr j := fun o =>
    (recvTop_frame o tr hrecv).1
  refine ⟨?_, fun o s hs => ?_⟩
  · rw [hst, h.storage, incsOf_append, hincs, List.append_nil]
    congr 1
    refine Finset.sum_congr rfl fun o _ => ?_
    rw [hsegs o, sum_slices_append (h.bound o)]
  · rw [hsegs o] at hs
    exact length_logs_append (h.bound o s hs) ev

end append

/-! ## table -/

section table

variable [AddCommMonoid V] [DecidableEq Node] {C : SysConfig Node V} {t : TableId} {j : Node}
  {tr ev : List (Event V)} {v v' : TabView V} {b : UpdateBuffer V} {tc : TableConfig V}
  {ib : Option (UpdateBuffer V)} {push : List (UpdateBuffer V)}

/-- node `j` が buffer `b` から自分の update を除く時、いつも正しく除く。 -/
def DedupsExactly (C : SysConfig Node V) (t : TableId) (trace : List (Event V)) (j : Node)
    (v : TabView V) (b : UpdateBuffer V) : Prop :=
  ∀ tc r r' b', (C.tableDir j).lookup t = some tc → r.myUpdates t = v.my →
    Receiver.dedup (C.nodeConfig j) r t (.ofConfig tc) b = .ok (r', b') →
    DedupExact C t trace j b b'

/-- 受け取った buffer の、他の node の分を足す。 -/
theorem NodeTable.receive (h : NodeTable C t tr j v) (hb : Faithful C t tr b)
    (hst : v'.storage = v.storage
      + ∑ o ∈ C.nodeSet.erase j, piece (logsOf (C.id o) t tr) (b.segOf (C.id o))) :
    NodeTable C t (tr ++ [.received (C.id j) t b]) j v' := by
  have hlogs : ∀ id, logsOf id t (tr ++ [.received (C.id j) t b]) = logsOf id t tr := fun id => by
    rw [logsOf_append]
    exact List.append_nil _
  have hincs : incsOf (C.id j) t (tr ++ [.received (C.id j) t b]) = incsOf (C.id j) t tr := by
    rw [incsOf_append]
    exact List.append_nil _
  refine ⟨?_, fun o s hs => ?_⟩
  · rw [hst, h.storage, hincs, add_assoc, ← Finset.sum_add_distrib]
    congr 1
    refine Finset.sum_congr rfl fun o _ => ?_
    rw [recvSegs_append, recvSegs_received, List.map_append, List.sum_append, hlogs,
      sum_slice_toList]
  · rw [hlogs]
    rw [recvSegs_append, recvSegs_received, List.mem_append, Option.mem_toList] at hs
    exact hs.elim (h.bound o s) (hb.bound o s)

theorem NodeTable.step (h : NodeTable C t tr j v) (htc : (C.tableDir j).lookup t = some tc)
    (hadd : tc.vaddFunc = (· + ·)) (happly : tc.applyUpdates = true)
    (hib : ∀ b, ib = some b → Faithful C t tr b ∧ DedupsExactly C t tr j v b)
    (he : TabEff (C.nodeConfig j) t v ib v' push ev) : NodeTable C t (tr ++ ev) j v' := by
  cases he with
  | skip | log | dropLog | stop | ask | send | reply | register | recvStop | discard
  | dropBuffer => exact h.append rfl rfl rfl
  | @record b => exact h.append (recorded_ledger _ _).1 (receivedBy_recorded _ _) rfl
  | @inc key delta tc' htc' =>
    obtain rfl : tc' = tc := Option.some.inj (htc'.symm.trans htc)
    have hev : incsOf (C.id j) t [.inc (C.nodeConfig j).myId t key delta] = [(key, delta)] := by
      simp [incsOf, Event.incDelta, SysConfig.nodeConfig]
    have hsegs : ∀ o, recvSegs C t o (tr ++ [.inc (C.nodeConfig j).myId t key delta]) j
        = recvSegs C t o tr j := fun o => (recvTop_frame o tr rfl).1
    refine ⟨?_, fun o s hs => ?_⟩
    · dsimp only
      rw [hadd, incRaw_add, h.storage, incsOf_append, hev, total_append, total_cons, total_nil,
        add_zero, add_right_comm]
      congr 1
      refine Finset.sum_congr rfl fun o _ => ?_
      rw [hsegs, sum_slices_append (h.bound o)]
    · rw [hsegs] at hs
      exact length_logs_append (h.bound o s hs) _
  | @noPeer b _ hno =>
    refine h.receive (hib b rfl).1 ?_
    -- 早く抜ける buffer には、他の node の range が無い
    have hnone : ∀ o ∈ C.nodeSet.erase j,
        piece (logsOf (C.id o) t tr) (b.segOf (C.id o)) = 0 := by
      intro o ho
      rw [segOf_of_carriesNoPeer hno fun heq => Finset.ne_of_mem_erase ho (C.id_injective heq),
        piece_none]
    rw [Finset.sum_eq_zero hnone, add_zero]
  | @process b b' r r' tc' _ _ htc' hr hd =>
    obtain rfl : tc' = tc := Option.some.inj (htc'.symm.trans htc)
    obtain ⟨hb, hded⟩ := hib b rfl
    refine h.receive hb ?_
    dsimp only
    rw [if_pos happly, hadd, foldl_incRaw, UpdateBuffer.iterUpdates_eq,
      (hded tc' r r' b' htc hr hd).total]

end table

/-! ## flush する分と記録する分 -/

section pending

variable [DecidableEq Node] {C : SysConfig Node V} {t : TableId} {o j : Node} {v : TabView V}

theorem pendingSeg_self : v.pendingSeg C j j = v.ownSeg := if_pos rfl

theorem pendingSeg_peer (ho : o ≠ j) :
    v.pendingSeg C j o = (v.pt.tablePeersUpdateRange.lookup (C.id o)).map UpdateRange.seg :=
  if_neg ho

/-- 送る分が無い range は空である。 -/
theorem seg_of_not_pending {r : UpdateRange} (hle : r.st ≤ r.end_ + 1) (hp : r.pending ≠ true) :
    r.seg.1 = r.seg.2 := by
  have hgt : ¬r.st ≤ r.end_ := fun h => hp (decide_eq_true h)
  show r.st = r.end_ + 1
  omega

/-- `st_` を進めた後の range は空で、終わりは変わらない。 -/
theorem seg_advance {r : UpdateRange} (hle : r.st ≤ r.end_ + 1) :
    r.advance.seg = (r.end_ + 1, r.end_ + 1) := by
  unfold UpdateRange.advance
  split
  · rfl
  · next hp => exact Prod.ext (seg_of_not_pending hle hp) rfl

/-- 空の range は、buffer に載せても載せなくても同じである。 -/
theorem FlushSpec.segOf_pending {fo : FlushOrder V} {buff : UpdateBuffer V}
    {peers : AList fun _ : NodeId => UpdateRange} (hs : NodeShape C j v) (hpend : v.pend = none)
    (hf : FlushSpec C j v.pt fo buff peers) (o : Node) :
    buff.segOf (C.id o) = v.pendingSeg C j o ∨
      (buff.segOf (C.id o) = none ∧ ∀ s, v.pendingSeg C j o = some s → s.1 = s.2) := by
  -- 送る分は、送り終えた所から flush で送り終える所までである
  have hseg : ∀ s, v.pendingSeg C j o = some s →
      s = (v.emitted C o j, flushedTo C o j v.pt peers) := by
    intro s hs'
    unfold TabView.emitted flushedTo
    by_cases ho : o = j
    · subst ho
      rw [pendingSeg_self, ownSeg_of_none hpend] at hs'
      rw [if_pos rfl, if_pos rfl, hpend, if_neg (by simp)]
      exact (Option.some.inj hs').symm
    · rw [pendingSeg_peer ho, Option.map_eq_some_iff] at hs'
      obtain ⟨r, hr, rfl⟩ := hs'
      have hadv := seg_advance (hs.peers _ _ hr).2.2
      rw [if_neg (Ne.symm ho), if_neg (Ne.symm ho), hf.peers, hr]
      exact Prod.ext rfl (congrArg Prod.fst hadv).symm
  rcases hf.segOf hs hpend (o := o) with ⟨h1, h2⟩ | ⟨h1, h2⟩
  · refine Or.inr ⟨h1, fun s hs' => ?_⟩
    rw [hseg s hs']
    exact h2.symm
  · left
    cases hp : v.pendingSeg C j o with
    | some s => rw [h1, hseg s hp]
    | none =>
      -- 表に無い peer では、どちらの端も 0 である
      have ho : o ≠ j := by
        rintro rfl
        rw [pendingSeg_self, ownSeg_of_none hpend] at hp
        cases hp
      rw [pendingSeg_peer ho, Option.map_eq_none_iff] at hp
      rw [TabView.emitted, flushedTo, if_neg (Ne.symm ho), if_neg (Ne.symm ho), hf.peers, hp] at h2
      exact absurd h2 (lt_irrefl _)

/-- flush した後に peer の送る分が残っていても、空である。 -/
theorem FlushSpec.pendingSeg_flushed {fo : FlushOrder V} {buff : UpdateBuffer V} {v' : TabView V}
    {peers : AList fun _ : NodeId => UpdateRange} (hs : NodeShape C j v)
    (hf : FlushSpec C j v.pt fo buff peers) (hpeers : v'.pt.tablePeersUpdateRange = peers)
    (ho : o ≠ j) {s : Int × Int} (h : v'.pendingSeg C j o = some s) :
    s.1 = s.2 ∧ ∃ s₀, v.pendingSeg C j o = some s₀ ∧ s.2 = s₀.2 := by
  rw [pendingSeg_peer ho, hpeers, hf.peers, Option.map_map, Option.map_eq_some_iff] at h
  obtain ⟨r, hr, rfl⟩ := h
  rw [Function.comp_apply, seg_advance (hs.peers _ _ hr).2.2]
  exact ⟨rfl, r.seg, by rw [pendingSeg_peer ho, hr]; rfl, rfl⟩

/-- 記録した後の、まだ送っていない peer の range。 -/
theorem pendingSeg_record (hs : NodeShape C j v) {b : UpdateBuffer V} {v' : TabView V}
    {peers : AList fun _ : NodeId => UpdateRange} (hb : FwdOk C j b)
    (hrec : Propagator.recordRanges v.pt.tablePeersUpdateRange b.iterNodeRanges = .ok peers)
    (hpeers : v'.pt.tablePeersUpdateRange = peers) (hown : v'.ownSeg = v.ownSeg) (o : Node) :
    (b.segOf (C.id o) = none ∧ v'.pendingSeg C j o = v.pendingSeg C j o) ∨
    (∃ s, b.segOf (C.id o) = some s ∧ v.pendingSeg C j o = none ∧ v'.pendingSeg C j o = some s) ∨
    ∃ x y z, b.segOf (C.id o) = some (y, z) ∧ v.pendingSeg C j o = some (x, y) ∧
      v'.pendingSeg C j o = some (x, z) ∧ x ≤ y ∧ y ≤ z := by
  by_cases ho : o = j
  · subst ho
    refine Or.inl ⟨UpdateBuffer.segOf_eq_none fun hmem => ?_, by
      rw [pendingSeg_self, pendingSeg_self, hown]⟩
    obtain ⟨e, he, heq⟩ := List.mem_map.mp hmem
    exact (hb.ids e he).2.1 heq
  · rw [pendingSeg_peer ho, pendingSeg_peer ho, hpeers]
    rcases Propagator.recordRanges_lookup hb.nodup hrec (C.id o) with
      ⟨h1, h2⟩ | ⟨r, hr, h1, h2⟩ | ⟨r, r₀, hr, h1, h2, h3⟩
    · exact Or.inl ⟨UpdateBuffer.segOf_eq_none h1, by rw [h2]⟩
    · exact Or.inr (Or.inl ⟨r.seg, UpdateBuffer.segOf_mem hb.nodup hr, by rw [h1]; rfl,
        by rw [h2]; rfl⟩)
    · have hle : r.st ≤ r.end_ := of_decide_eq_true (hb.ids _ hr).2.2
      have hle₀ := (hs.peers _ _ h1).2.2
      refine Or.inr (Or.inr ⟨r₀.st, r₀.end_ + 1, r.end_ + 1, ?_, by rw [h1]; rfl, by rw [h3]; rfl,
        hle₀, by omega⟩)
      rw [UpdateBuffer.segOf_mem hb.nodup hr, UpdateRange.seg, ← h2]

end pending

/-! ## propagator の store -/

section held

variable [AddCommMonoid V] [DecidableEq Node] {C : SysConfig Node V} {t : TableId} {j : Node}
  {tr ev : List (Event V)} {v v' : TabView V} {b : UpdateBuffer V} {tc : TableConfig V}
  {ib : Option (UpdateBuffer V)} {push : List (UpdateBuffer V)}

/-- 空の range の和は 0 である。 -/
theorem piece_eq_zero {l : List (Key × V)} {s : Option (Int × Int)}
    (h : ∀ x, s = some x → x.1 = x.2) : piece l s = 0 := by
  cases s with
  | none => rfl
  | some x =>
    obtain ⟨a, b⟩ := x
    obtain rfl : a = b := h (a, b) rfl
    exact slice_self l a

/-- store と送る分を動かさない一歩。 -/
theorem NodeHeld.quiet (h : NodeHeld C t tr j v)
    (hseg : ∀ o, v'.pendingSeg C j o = v.pendingSeg C j o)
    (hstore : v'.pRun = true → v.pRun = true ∧ v'.pt.updateStore = v.pt.updateStore)
    (hpend : v'.pend = v.pend) (hfwd : ∀ b ∈ v'.fwd, b ∈ v.fwd) : NodeHeld C t (tr ++ ev) j v' := by
  obtain ⟨h1, h2, h3, h4⟩ := h.append ev
  refine ⟨fun hr hn => ?_, fun o s hs => h2 o s (hseg o ▸ hs), by rw [hpend]; exact h3,
    fun b hb => h4 b (hfwd b hb)⟩
  obtain ⟨hr', hst⟩ := hstore hr
  rw [hst, h1 hr' hn]
  exact Finset.sum_congr rfl fun o _ => by rw [hseg o]

/-- flush した buffer は、store の中身をちょうど運ぶ。 -/
theorem NodeHeld.flush (h : NodeHeld C t tr j v) (hs : NodeShape C j v) (hrun : v.pRun = true)
    (hn : 0 < C.nanosec j) (hpend : v.pend = none) {fo : FlushOrder V} {buff : UpdateBuffer V}
    {peers : AList fun _ : NodeId => UpdateRange} (hv : fo.Valid v.pt)
    (hf : FlushSpec C j v.pt fo buff peers) : Faithful C t tr buff := by
  have hseg := hf.segOf_pending hs hpend
  refine ⟨?_, fun o s hs' => ?_⟩
  · rw [hf.total_updates hv, h.store hrun hn, carried]
    refine Finset.sum_congr rfl fun o _ => ?_
    rcases hseg o with h1 | ⟨h1, h2⟩
    · rw [h1]
    · rw [h1, piece_none, piece_eq_zero h2]
  · rcases hseg o with h1 | ⟨h1, -⟩
    · exact h.bound o s (h1 ▸ hs')
    · rw [h1] at hs'
      cases hs'

/-- flush した後は、送る分が残らない。 -/
theorem NodeHeld.flushed (h : NodeHeld C t tr j v) (hs : NodeShape C j v) {fo : FlushOrder V}
    {buff : UpdateBuffer V} {peers : AList fun _ : NodeId => UpdateRange}
    (hf : FlushSpec C j v.pt fo buff peers) (hst : v'.pt.updateStore = ∅)
    (hpeers : v'.pt.tablePeersUpdateRange = peers)
    (hown : ∀ s, v'.ownSeg = some s → s.1 = s.2 ∧ s.2 ≤ (logsOf (C.id j) t tr).length)
    (hpend : ∀ b, v'.pend = some b → Faithful C t tr b) (hfwd : v'.fwd = v.fwd) :
    NodeHeld C t tr j v' := by
  have hseg : ∀ o s, v'.pendingSeg C j o = some s →
      s.1 = s.2 ∧ s.2 ≤ (logsOf (C.id o) t tr).length := by
    intro o s hs'
    by_cases ho : o = j
    · subst ho
      exact hown s (pendingSeg_self (C := C) ▸ hs')
    · obtain ⟨h1, s₀, hs₀, h2⟩ := hf.pendingSeg_flushed hs hpeers ho hs'
      exact ⟨h1, h2 ▸ h.bound o s₀ hs₀⟩
  refine ⟨fun _ _ => ?_, fun o s hs' => (hseg o s hs').2, hpend, hfwd ▸ h.fwd⟩
  rw [hst, content_empty]
  exact (Finset.sum_eq_zero fun o _ => piece_eq_zero fun s hs' => (hseg o s hs').1).symm

/-- log を一つ処理すると、自分の分だけが増える。 -/
theorem NodeHeld.log (h : NodeHeld C t tr j v) (hs : NodeShape C j v) (ht : NodeTally C t tr j v)
    (htc : (C.tableDir j).lookup t = some tc)
    (hadd : tc.vaddFunc = (· + ·)) {key : Key} {delta : V}
    (hpt : v'.pt = Propagator.addLog (C.nodeConfig j) t v.pt key delta)
    (hrun : v'.pRun = v.pRun) (hpend : v.pend = none) (hpend' : v'.pend = none)
    (hfwd : v'.fwd = v.fwd) :
    NodeHeld C t (tr ++ [.logHandled (C.id j) t key delta]) j v' := by
  have hown : logsOf (C.id j) t (tr ++ [.logHandled (C.id j) t key delta])
      = logsOf (C.id j) t tr ++ [(key, delta)] := by
    rw [logsOf_append]
    simp [logsOf, Event.handledLog]
  obtain ⟨hrange, hpeers⟩ := addLog_range (C.nodeConfig j) t v.pt key delta
  have hseg : ∀ o, o ≠ j → v'.pendingSeg C j o = v.pendingSeg C j o := fun o ho => by
    rw [pendingSeg_peer ho, pendingSeg_peer ho, hpt, hpeers]
  have hseg' : v'.pendingSeg C j j
      = some (v.pt.myUpdateRange.st, v.pt.myUpdateRange.end_ + 1 + 1) := by
    rw [pendingSeg_self, ownSeg_of_none hpend', hpt, hrange]
    rfl
  refine ⟨fun hr hn => ?_, fun o s hs' => ?_, ?_, ?_⟩
  · have h0 := h.store (hrun ▸ hr) hn
    rw [← Finset.add_sum_erase _ _ (C.mem_nodeSet j), pendingSeg_self, ownSeg_of_none hpend,
      piece_some] at h0
    rw [hpt, content_addLog hn htc hadd, h0, ← Finset.add_sum_erase _ _ (C.mem_nodeSet j), hseg',
      piece_some, hown, slice_addLog hs ht, add_right_comm]
    congr 1
    refine Finset.sum_congr rfl fun o ho => ?_
    rw [hseg o (Finset.ne_of_mem_erase ho), piece_logs_append (h.bound o)]
  · by_cases ho : o = j
    · subst ho
      rw [hseg'] at hs'
      have hlen := ht.length
      rw [← Option.some.inj hs', hown, List.length_append, List.length_singleton]
      show v.pt.myUpdateRange.end_ + 1 + 1 ≤ _
      omega
    · rw [hseg o ho] at hs'
      exact length_logs_append (h.bound o s hs') _
  · rw [hpend']
    rintro _ ⟨⟩
  · rw [hfwd]
    exact fun b hb => (h.fwd b hb).append _

/-- 記録すると、buffer の運ぶ分が store に移る。 -/
theorem NodeHeld.record (h : NodeHeld C t tr j v) (hs : NodeShape C j v) (hb : b ∈ v.fwd)
    {peers : AList fun _ : NodeId => UpdateRange}
    (hrec : Propagator.recordRanges v.pt.tablePeersUpdateRange b.iterNodeRanges = .ok peers)
    (hpeers : v'.pt.tablePeersUpdateRange = peers) (hown : v'.ownSeg = v.ownSeg)
    (hrun : v.pRun = true)
    (hst : content v'.pt.updateStore = content v.pt.updateStore + total b.updates)
    (hpend : v'.pend = v.pend) (hfwd : ∀ b ∈ v'.fwd, b ∈ v.fwd) : NodeHeld C t tr j v' := by
  have hfb := h.fwd b hb
  have hcases := pendingSeg_record hs (hs.fwd b hb) hrec hpeers hown
  refine ⟨fun _ hn => ?_, fun o s hs' => ?_, by rw [hpend]; exact h.pend,
    fun q hq => h.fwd q (hfwd q hq)⟩
  · rw [hst, h.store hrun hn, hfb.total, carried, ← Finset.sum_add_distrib]
    refine Finset.sum_congr rfl fun o _ => ?_
    rcases hcases o with ⟨h1, h2⟩ | ⟨s, h1, h2, h3⟩ | ⟨x, y, z, h1, h2, h3, hxy, hyz⟩
    · rw [h1, h2, piece_none, add_zero]
    · rw [h1, h2, h3, piece_none, zero_add]
    · rw [h1, h2, h3, piece_some, piece_some, piece_some, slice_add _ hxy hyz]
  · rcases hcases o with ⟨-, h2⟩ | ⟨s', h1, -, h3⟩ | ⟨x, y, z, h1, -, h3, -, -⟩
    · exact h.bound o s (h2 ▸ hs')
    · exact hfb.bound o s (h1.trans (h3.symm.trans hs'))
    · rw [h3] at hs'
      rw [← Option.some.inj hs']
      exact hfb.bound o (y, z) h1

theorem NodeHeld.step (h : NodeHeld C t tr j v) (hs : NodeShape C j v) (ht : NodeTally C t tr j v)
    (htc : (C.tableDir j).lookup t = some tc)
    (hadd : tc.vaddFunc = (· + ·))
    (hib : ∀ b, ib = some b → Faithful C t tr b ∧ DedupsExactly C t tr j v b)
    (he : TabEff (C.nodeConfig j) t v ib v' push ev) :
    NodeHeld C t (tr ++ ev) j v' ∧ ∀ b ∈ push, Faithful C t (tr ++ ev) b := by
  have hnil : ∀ b ∈ ([] : List (UpdateBuffer V)), Faithful C t (tr ++ ev) b := by rintro _ ⟨⟩
  have hlen : v.pt.myUpdateRange.end_ + 1 ≤ (logsOf (C.id j) t tr).length := ht.length.ge
  cases he with
  | skip | inc | dropLog | register | recvStop | discard | noPeer =>
    exact ⟨h.quiet (fun _ => rfl) (fun hr => ⟨hr, rfl⟩) rfl fun _ hb => hb, hnil⟩
  | stop => exact ⟨h.quiet (fun _ => rfl) (by rintro ⟨⟩) rfl fun _ hb => hb, hnil⟩
  | dropBuffer _ hf =>
    refine ⟨h.quiet (fun _ => rfl) (fun hr => ⟨hr, rfl⟩) rfl fun q hq => ?_, hnil⟩
    rw [hf]
    exact List.mem_cons_of_mem _ hq
  | log _ hpend => exact ⟨h.log hs ht htc hadd rfl rfl hpend hpend rfl, hnil⟩
  | @ask fo buff peers myBuff _ hrun hpend _ hn hv hst hb =>
    have hf := hs.flush hv hst hb
    have hbuff := h.flush hs hrun hn hpend hv hf
    refine ⟨NodeHeld.append ?_ _, hnil⟩
    refine h.flushed hs hf rfl rfl (fun s hs' => ?_) ?_ rfl
    · rw [ownSeg_of_some rfl] at hs'
      cases hs'
    · rintro _ ⟨⟩
      exact hbuff
  | @send fo buff peers hrun hpend hn hv hst hb =>
    have hf := hs.flush hv hst hb
    have hbuff := h.flush hs hrun hn hpend hv hf
    refine ⟨NodeHeld.append ?_ _, fun b hb => ?_⟩
    · refine h.flushed hs hf rfl rfl (fun s hs' => ?_) h.pend rfl
      rw [TabView.ownSeg, if_neg (by simp [hpend])] at hs'
      rw [← Option.some.inj hs']
      exact ⟨rfl, hlen⟩
    · rw [List.mem_singleton.mp hb]
      exact hbuff.append _
  | @reply buff hrun hpend _ =>
    -- 返事を待つ間は自分の update を処理しないので、store の中身は変わらない
    have hown : v.pendingSeg C j j = none := by rw [pendingSeg_self, ownSeg_of_some hpend]
    refine ⟨NodeHeld.append ?_ _, fun b hb => ?_⟩
    · refine ⟨fun _ hn => ?_, fun o s hs' => ?_, (by rintro _ ⟨⟩), h.fwd⟩
      · refine (h.store hrun hn).trans (Finset.sum_congr rfl fun o _ => ?_)
        by_cases ho : o = j
        · subst ho
          rw [hown, pendingSeg_self, ownSeg_of_none rfl]
          exact (slice_self _ _).symm
        · rw [pendingSeg_peer ho, pendingSeg_peer ho]
          rfl
      · by_cases ho : o = j
        · subst ho
          rw [pendingSeg_self, ownSeg_of_none rfl] at hs'
          rw [← Option.some.inj hs']
          exact hlen
        · refine h.bound o s ?_
          rw [pendingSeg_peer ho] at hs' ⊢
          exact hs'
    · rw [List.mem_singleton.mp hb]
      exact (h.pend buff hpend).append _
  | @process b b' r r' tc' _ _ htc' hr hd =>
    obtain ⟨hb, hded⟩ := hib b rfl
    have hb' := (hded tc' r r' b' htc' hr hd).faithful hb
    have hfwd : ∀ q ∈ v.fwd ++ (if tc'.forwardUpdates then [b'] else []), Faithful C t tr q := by
      intro q hq
      rcases List.mem_append.mp hq with hq | hq
      · exact h.fwd q hq
      · split at hq
        · rw [List.mem_singleton.mp hq]
          exact hb'
        · cases hq
    refine ⟨NodeHeld.append ?_ _, hnil⟩
    exact ⟨h.store, h.bound, h.pend, hfwd⟩
  | @record b rest tc' peers hrun _ hf htc' hrec =>
    obtain rfl : tc' = tc := Option.some.inj (htc'.symm.trans htc)
    have hb : b ∈ v.fwd := by rw [hf]; exact List.mem_cons_self
    refine ⟨NodeHeld.append ?_ _, hnil⟩
    refine h.record hs hb hrec rfl rfl hrun ?_ rfl fun q hq => ?_
    · dsimp only
      rw [hadd, content_foldl_addUpdate, UpdateBuffer.iterUpdates_eq]
    · rw [hf]
      exact List.mem_cons_of_mem _ hq

end held

/-! ## system 全体 -/

section system

variable [AddCommMonoid V] [DecidableEq Node] {C : SysConfig Node V} {t : TableId}
  {Q : Node → UpdateBuffer V → Prop} {S S' : TabSys Node V}

/-- どの node も table `t` を登録していて、届いた update を自分の table にも足す。 -/
structure AppliesAll (C : SysConfig Node V) (t : TableId) : Prop where
  nanosec : ∀ j, 0 < C.nanosec j
  table : ∀ j, ∃ tc, (C.tableDir j).lookup t = some tc ∧ tc.vaddFunc = (· + ·) ∧
    tc.applyUpdates = true

/-- 集まり `P` の node の store と buffer と table は、range の表すものを持つ。 -/
structure FaithfulOn (C : SysConfig Node V) (t : TableId) (P : Node → Prop) (S : TabSys Node V) :
    Prop where
  held : ∀ j, P j → NodeHeld C t S.trace j (S.view j)
  table : ∀ j, P j → NodeTable C t S.trace j (S.view j)
  chan : ∀ u, P u → ∀ b ∈ S.chan u, Faithful C t S.trace b

/-- どの node の store と buffer と table も、range の表すものを持つ。 -/
abbrev AllFaithful (C : SysConfig Node V) (t : TableId) : TabSys Node V → Prop :=
  FaithfulOn C t fun _ => True

theorem FaithfulOn.start {P : Node → Prop} : FaithfulOn C t P (TabSys.start : TabSys Node V) := by
  refine ⟨fun j _ => ⟨fun _ _ => ?_, fun o s hs => ?_, (by rintro _ ⟨⟩), by rintro _ ⟨⟩⟩,
    fun j _ => ⟨?_, by rintro _ _ ⟨⟩⟩, by rintro _ _ _ ⟨⟩⟩
  · refine (Finset.sum_eq_zero fun o _ => piece_eq_zero fun s hs => ?_).symm
    unfold TabView.pendingSeg at hs
    split at hs <;> cases hs
    rfl
  · unfold TabView.pendingSeg at hs
    split at hs <;> cases hs
    exact le_rfl
  · refine (zero_add (M := Key → V) _ |>.trans (Finset.sum_eq_zero fun o _ => rfl)).symm

/-- 上流も集まりに入っていれば、集まりの外の node が何を送っても、集まりの中は変わらない。 -/
theorem FaithfulOn.step {P : Node → Prop} (hup : ∀ u d, C.down u = some d → P d → P u)
    (hC : ∀ j, P j → ∃ tc, (C.tableDir j).lookup t = some tc ∧ tc.vaddFunc = (· + ·) ∧
      tc.applyUpdates = true)
    (hs : Shape C S) (ht : ∀ j, NodeTally C t S.trace j (S.view j))
    (hded : ∀ j, P j → ∀ b, (∃ u, C.down u = some j ∧ b ∈ S.chan u) →
      ((S.view j).rRun = true → Q j b) → DedupsExactly C t S.trace j (S.view j) b)
    (hi : FaithfulOn C t P S) (h : TabStep C t Q S S') : FaithfulOn C t P S' := by
  suffices hall : (∀ j, P j → NodeHeld C t S'.trace j (S'.view j) ∧
        NodeTable C t S'.trace j (S'.view j)) ∧
      ∀ u, ∀ b ∈ S'.chan u, P u → Faithful C t S'.trace b from
    ⟨fun j hj => (hall.1 j hj).1, fun j hj => (hall.1 j hj).2, fun u hu b hb => hall.2 u b hb hu⟩
  refine h.forall_node (I := fun tr j v => P j → NodeHeld C t tr j v ∧ NodeTable C t tr j v)
    (J := fun tr u b => P u → Faithful C t tr b) (fun j hj => ⟨hi.held j hj, hi.table j hj⟩)
    (fun u b hb hu => hi.chan u hu b hb) ?_ ?_ (fun _ _ ev hb hu => (hb hu).append ev)
  · intro j ib v' push ev hib he
    have hib' : P j → ∀ b, ib = some b → Faithful C t S.trace b ∧
        DedupsExactly C t S.trace j (S.view j) b := by
      intro hj b hb
      obtain ⟨⟨u, hd, hu⟩, hq⟩ := hib b hb
      exact ⟨hi.chan u (hup u j hd hj) b hu, hded j hj b ⟨u, hd, hu⟩ hq⟩
    have hheld : ∀ hj : P j, NodeHeld C t (S.trace ++ ev) j v' ∧
        ∀ b ∈ push, Faithful C t (S.trace ++ ev) b := by
      intro hj
      obtain ⟨tc, htc, hadd, -⟩ := hC j hj
      exact (hi.held j hj).step (hs.node j) (ht j) htc hadd (hib' hj) he
    refine ⟨fun hj => ⟨(hheld hj).1, ?_⟩, fun b hb hj => (hheld hj).2 b hb⟩
    obtain ⟨tc, htc, hadd, happly⟩ := hC j hj
    exact (hi.table j hj).step htc hadd happly (hib' hj) he
  · -- 他の node の出来事では、log が増えるだけである
    intro j k ib v' push ev hk he hI hj
    have hev := he.nodeId_ne hk
    exact ⟨(hI hj).1.append ev, (hI hj).2.append (incDelta_local.filterMap_other hev)
      (receivedBy_other hev) rfl⟩

/-- **range は中身を表す。** どの range も失われず、自分の update が正しく除かれる run について。 -/
theorem TabReach.allFaithful (h : TabReach C t Q S) (hC : AppliesAll C t) (hl : Lossless C t Q S)
    (hded : ∀ S, TabReach C t Q S → AllFaithful C t S → ∀ u j b, C.down u = some j →
      b ∈ S.chan u → (S.view j).rRun = true → Q j b → DedupsExactly C t S.trace j (S.view j) b) :
    AllFaithful C t S := by
  refine h.invariant (I := fun S => Lossless C t Q S → AllFaithful C t S) (fun _ => .start) ?_ hl
  intro S S' hr hs hi hl
  have hl' := hl.of_step hs
  refine (hi hl').step (fun _ _ _ _ => trivial) (fun j _ => hC.table j) hr.shape
    (fun j => hr.nodeTally j) (fun j _ b hb hq => ?_) hs
  obtain ⟨u, hd, hu⟩ := hb
  exact hded S hr (hi hl') u j b hd hu (hl'.run j).2 (hq (hl'.run j).2)

/-- 受け取った range が 0 から続いていれば、table には他の node の log の先頭がある。 -/
theorem NodeTable.storage_eq {tr : List (Event V)} {j : Node} {v : TabView V}
    (h : NodeTable C t tr j v) (hf : ∀ o, NodeFlow (· = ·) C t o tr j v) :
    v.storage = total (incsOf (C.id j) t tr)
      + ∑ o ∈ C.nodeSet.erase j,
          total ((logsOf (C.id o) t tr).take (recvTop C t o tr j).toNat) := by
  rw [h.storage]
  congr 1
  refine Finset.sum_congr rfl fun o _ => ?_
  rw [sum_slice_of_chain _ (hf o).recv, slice_zero]

theorem NodeTable.recvTop_le {tr : List (Event V)} {j : Node} {v : TabView V}
    (h : NodeTable C t tr j v) {o : Node} (hf : NodeFlow (· = ·) C t o tr j v) :
    recvTop C t o tr j ≤ (logsOf (C.id o) t tr).length :=
  hf.recv.end_le (Int.natCast_nonneg _) (h.bound o)

end system

end QuiltDB
