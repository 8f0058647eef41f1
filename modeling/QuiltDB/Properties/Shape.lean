import QuiltDB.Properties.Buffer
import QuiltDB.Properties.TabView

/-!
# buffer と表の形

下流へ流れる buffer は前から詰まっていて、id が互いに異なり、空の range を運ばない。propagator の
表に自分の id は無く、receiver が登録した batch は自分の range を一つだけ運ぶ。
-/

namespace QuiltDB

variable {V Node : Type} [DecidableEq Node]

/-! ## 定義 -/

/-- 下流へ流れる buffer。 -/
structure ChanOk (C : SysConfig Node V) (b : UpdateBuffer V) : Prop where
  packed : ∃ k, b.Packed b.iterNodeRanges k
  ids : ∀ e ∈ b.iterNodeRanges, (∃ o, C.id o = e.1) ∧ e.2.pending = true
  updates : b.updates ≠ []

/-- node `j` の receiver が propagator に渡す buffer。自分の range は見えない。 -/
structure FwdOk (C : SysConfig Node V) (j : Node) (b : UpdateBuffer V) : Prop where
  nodup : (b.iterNodeRanges.map Prod.fst).Nodup
  ids : ∀ e ∈ b.iterNodeRanges, (∃ o, C.id o = e.1) ∧ e.1 ≠ C.id j ∧ e.2.pending = true
  updates : b.updates ≠ []

/-- node `j` が登録した batch。 -/
structure BatchOk (C : SysConfig Node V) (j : Node) (b : UpdateBuffer V) : Prop where
  range : ∃ r, b.Packed [(C.id j, r)] 0 ∧ r.pending = true
  updates : b.updates ≠ []

/-- node 一つの中の形。 -/
structure NodeShape (C : SysConfig Node V) (j : Node) (v : TabView V) : Prop where
  peers : ∀ id r, v.pt.tablePeersUpdateRange.lookup id = some r →
    (∃ o, C.id o = id) ∧ id ≠ C.id j ∧ r.st ≤ r.end_ + 1
  range : v.pt.myUpdateRange.st ≤ v.pt.myUpdateRange.end_ + 1
  pend : ∀ b, v.pend = some b → ChanOk C b
  fwd : ∀ b ∈ v.fwd, FwdOk C j b
  reg : ∀ b ∈ v.reg, BatchOk C j b
  my : ∀ b ∈ v.my.getD [], BatchOk C j b
  /-- 登録の返事を待っている buffer は、今の自分の range を運ぶ。 -/
  own : ∀ b, v.pend = some b → (C.id j, v.pt.myUpdateRange) ∈ b.iterNodeRanges
  regRange : ∀ b ∈ v.reg, b.Packed [(C.id j, v.pt.myUpdateRange)] 0
  wait : v.pend = none → v.reg = []

structure Shape (C : SysConfig Node V) (S : TabSys Node V) : Prop where
  node : ∀ j, NodeShape C j (S.view j)
  chan : ∀ u, ∀ b ∈ S.chan u, ChanOk C b

/-! ## flush の結果 -/

variable {C : SysConfig Node V} {t : TableId} {j : Node} {v v' : TabView V}

/-- flush が作る buffer と、`st_` を進めた表。 -/
structure FlushSpec (C : SysConfig Node V) (j : Node) (pt : PropTable V) (o : FlushOrder V)
    (buff : UpdateBuffer V) (peers : AList fun _ : NodeId => UpdateRange) : Prop where
  ok : ChanOk C buff
  ranges : buff.iterNodeRanges = Propagator.outRanges (C.nodeConfig j) pt o.peers
  updates : buff.updates = o.updates
  peers : ∀ id, peers.lookup id = (pt.tablePeersUpdateRange.lookup id).map UpdateRange.advance
  mem : ∀ e, e ∈ o.peers ↔ pt.tablePeersUpdateRange.lookup e.1 = some e.2

theorem updates_ne_nil {l : List (Key × V)} {m : AList fun _ : Key => V} (h : l.Perm (pairs m))
    (hm : m.entries ≠ []) : l ≠ [] := by
  rintro rfl
  have hnil : pairs m = [] := h.symm.eq_nil
  exact hm (List.map_eq_nil_iff.mp hnil)

theorem NodeShape.flush (hs : NodeShape C j v) {o : FlushOrder V} {buff : UpdateBuffer V}
    {peers : AList fun _ : NodeId => UpdateRange} (hv : o.Valid v.pt)
    (hst : v.pt.updateStore.entries ≠ [])
    (h : Propagator.buildBuffer (C.nodeConfig j) v.pt o = .ok (buff, peers)) :
    FlushSpec C j v.pt o buff peers := by
  have hmem : ∀ e, e ∈ o.peers ↔ v.pt.tablePeersUpdateRange.lookup e.1 = some e.2 := fun e => by
    rw [hv.2.1.mem_iff, mem_pairs]
  obtain ⟨h1, ⟨k, h2⟩, h3⟩ := Propagator.buildBuffer_spec hv (C.id_nonneg j)
    (fun id r hr => by
      obtain ⟨⟨o, rfl⟩, hne, -⟩ := hs.peers id r hr
      exact ⟨C.id_nonneg o, hne⟩) h
  have hiter := h2.iter
  refine ⟨⟨⟨k, hiter ▸ h2⟩, ?_, ?_⟩, hiter, h1, h3, hmem⟩
  · intro e he
    rw [hiter, Propagator.outRanges, List.mem_append] at he
    rcases he with he | he
    · obtain ⟨he1, he2⟩ := List.mem_filter.mp he
      exact ⟨(hs.peers _ _ ((hmem e).mp he1)).1, he2⟩
    · split at he
      · next hp =>
        rw [List.mem_singleton.mp he]
        exact ⟨⟨j, rfl⟩, hp⟩
      · cases he
  · rw [h1]
    exact updates_ne_nil hv.1 hst

theorem advance_le {r : UpdateRange} (h : r.st ≤ r.end_ + 1) :
    r.advance.st ≤ r.advance.end_ + 1 := by
  unfold UpdateRange.advance
  split
  · exact le_rfl
  · exact h

theorem FlushSpec.peers_shape {pt : PropTable V} {o : FlushOrder V} {buff : UpdateBuffer V}
    {peers : AList fun _ : NodeId => UpdateRange} (h : FlushSpec C j pt o buff peers)
    (hp : ∀ id r, pt.tablePeersUpdateRange.lookup id = some r →
      (∃ o, C.id o = id) ∧ id ≠ C.id j ∧ r.st ≤ r.end_ + 1) :
    ∀ id r, peers.lookup id = some r → (∃ o, C.id o = id) ∧ id ≠ C.id j ∧ r.st ≤ r.end_ + 1 := by
  intro id r hr
  rw [h.peers id, Option.map_eq_some_iff] at hr
  obtain ⟨r₀, hr₀, rfl⟩ := hr
  obtain ⟨h1, h2, h3⟩ := hp id r₀ hr₀
  exact ⟨h1, h2, advance_le h3⟩

/-! ## 一歩で保たれること -/

omit [DecidableEq Node] in
theorem ChanOk.fwdOk {b : UpdateBuffer V} (h : ChanOk C b)
    (hme : C.id j ∉ b.iterNodeRanges.map Prod.fst) : FwdOk C j b := by
  obtain ⟨k, hk⟩ := h.packed
  refine ⟨hk.nodup, fun e he => ?_, h.updates⟩
  obtain ⟨h1, h2⟩ := h.ids e he
  exact ⟨h1, fun heq => hme (heq ▸ List.mem_map_of_mem he), h2⟩

/-- 受け取った buffer を処理した結果。 -/
theorem NodeShape.dedup (hs : NodeShape C j v) {b b' : UpdateBuffer V} (hb : ChanOk C b)
    {r r' : Receiver V} {it : InternalTable V} (hr : r.myUpdates t = v.my)
    (h : Receiver.dedup (C.nodeConfig j) r t it b = .ok (r', b')) :
    FwdOk C j b' ∧ ∀ q ∈ (r'.myUpdates t).getD [], BatchOk C j q := by
  obtain ⟨k, hk⟩ := hb.packed
  rcases Receiver.dedup_spec hk (C.id_nonneg j) h with ⟨hme, rfl, rfl⟩ |
    ⟨pre, rng, post, queue, queue', b₁, hrs, hq, hrem, hq', hup, hiter⟩
  · exact ⟨hb.fwdOk hme, by rw [hr]; exact hs.my⟩
  · obtain ⟨-, hlen, hsuf⟩ := Receiver.removeMyUpdates_frame hrem
    refine ⟨⟨?_, ?_, ?_⟩, ?_⟩
    · have hnd := hk.nodup
      rw [hrs, List.map_append] at hnd
      rw [hiter]
      exact (List.nodup_append.mp hnd).1
    · intro e he
      rw [hiter] at he
      obtain ⟨h1, h2⟩ := hb.ids e (by rw [hrs]; simp [he])
      refine ⟨h1, fun heq => ?_, h2⟩
      have hnd := hk.nodup
      rw [hrs, List.map_append, List.map_cons] at hnd
      exact (List.nodup_append.mp hnd).2.2 e.1 (List.mem_map_of_mem he) (C.id j)
        List.mem_cons_self heq
    · rw [hup]
      exact fun hnil => hb.updates (List.length_eq_zero_iff.mp (by rw [← hlen, hnil]; rfl))
    · intro q hqm
      rw [hq', Option.getD_some] at hqm
      refine hs.my q ?_
      rw [← hr, hq, Option.getD_some]
      exact hsuf.subset hqm

omit [DecidableEq Node] in
/-- 届いた range を記録しても、表の形は変わらない。 -/
theorem FwdOk.peers_shape {b : UpdateBuffer V} (hb : FwdOk C j b)
    {m m' : AList fun _ : NodeId => UpdateRange}
    (hp : ∀ id r, m.lookup id = some r → (∃ o, C.id o = id) ∧ id ≠ C.id j ∧ r.st ≤ r.end_ + 1)
    (hrec : Propagator.recordRanges m b.iterNodeRanges = .ok m') :
    ∀ id r, m'.lookup id = some r → (∃ o, C.id o = id) ∧ id ≠ C.id j ∧ r.st ≤ r.end_ + 1 := by
  intro id r hr
  rcases Propagator.recordRanges_lookup hb.nodup hrec id with
    ⟨-, hsame⟩ | ⟨r₁, he, -, hnew⟩ | ⟨r₁, r₀, he, hold, hcont, hnew⟩
  · rw [hsame] at hr
    exact hp id r hr
  · obtain ⟨ho, hne, hpend⟩ := hb.ids _ he
    have hle : r₁.st ≤ r₁.end_ := of_decide_eq_true hpend
    rw [hnew] at hr
    cases hr
    exact ⟨ho, hne, by omega⟩
  · obtain ⟨ho, hne, hpend⟩ := hb.ids _ he
    have hle : r₁.st ≤ r₁.end_ := of_decide_eq_true hpend
    have hle₀ := (hp _ _ hold).2.2
    rw [hnew] at hr
    cases hr
    refine ⟨ho, hne, ?_⟩
    dsimp only
    omega

variable [Zero V]

theorem addLog_range (c : NodeConfig V) (t : TableId) (pt : PropTable V) (key : Key) (delta : V) :
    (Propagator.addLog c t pt key delta).myUpdateRange
        = { pt.myUpdateRange with end_ := pt.myUpdateRange.end_ + 1 } ∧
      (Propagator.addLog c t pt key delta).tablePeersUpdateRange = pt.tablePeersUpdateRange := by
  unfold Propagator.addLog
  dsimp only
  split
  · exact ⟨rfl, rfl⟩
  · split <;> exact ⟨rfl, rfl⟩

theorem NodeShape.step {ib : Option (UpdateBuffer V)} {push : List (UpdateBuffer V)}
    {ev : List (Event V)} (hs : NodeShape C j v) (hib : ∀ b, ib = some b → ChanOk C b)
    (h : TabEff (C.nodeConfig j) t v ib v' push ev) :
    NodeShape C j v' ∧ ∀ b ∈ push, ChanOk C b := by
  obtain ⟨h1, h2, h3, h4, h5, h6, h7, h8, h9⟩ := hs
  have hs : NodeShape C j v := ⟨h1, h2, h3, h4, h5, h6, h7, h8, h9⟩
  have hnil : ∀ b ∈ ([] : List (UpdateBuffer V)), ChanOk C b := by rintro _ ⟨⟩
  cases h with
  | skip => exact ⟨hs, hnil⟩
  | inc => exact ⟨⟨h1, h2, h3, h4, h5, h6, h7, h8, h9⟩, hnil⟩
  | @log l₁ l₂ key delta _ hpend =>
    obtain ⟨hr, hp⟩ := addLog_range (C.nodeConfig j) t v.pt key delta
    have hreg := h9 hpend
    refine ⟨⟨?_, ?_, h3, h4, h5, h6, ?_, ?_, h9⟩, hnil⟩
    · dsimp only
      rw [hp]
      exact h1
    · dsimp only
      rw [hr]
      dsimp only
      omega
    -- 自分の range が伸びるのは、登録の返事を待っていない時だけである
    · intro b hb
      rw [show v.pend = some b from hb] at hpend
      cases hpend
    · intro b hb
      rw [show b ∈ v.reg ↔ b ∈ [] by rw [hreg]] at hb
      cases hb
  | dropLog => exact ⟨⟨h1, h2, h3, h4, h5, h6, h7, h8, h9⟩, hnil⟩
  | stop => exact ⟨⟨h1, h2, h3, h4, h5, h6, h7, h8, h9⟩, hnil⟩
  | @ask o buff peers myBuff tc _ _ _ _ hv hst hb _ _ hmy hmb =>
    have hf := hs.flush hv hst hb
    obtain ⟨hp, hu, hk⟩ := Propagator.buildMyBuffer_spec (C.id_nonneg j) hmb
    refine ⟨⟨hf.peers_shape h1, h2, ?_, h4, ?_, h6, ?_, ?_, by rintro ⟨⟩⟩, hnil⟩
    · intro b hb'
      cases hb'
      exact hf.ok
    · intro b hb'
      rw [List.mem_singleton.mp hb']
      exact ⟨⟨_, hk, hp⟩, hu ▸ updates_ne_nil hv.2.2 hmy⟩
    · intro b hb'
      cases hb'
      rw [hf.ranges, Propagator.outRanges, if_pos hp]
      exact List.mem_append_right _ (List.mem_singleton_self _)
    · intro b hb'
      rw [List.mem_singleton.mp hb']
      exact hk
  | @send o buff peers _ hpend _ hv hst hb =>
    have hf := hs.flush hv hst hb
    have hreg := h9 hpend
    refine ⟨⟨hf.peers_shape h1, le_rfl, h3, h4, h5, h6, ?_, ?_, h9⟩, ?_⟩
    · intro b hb
      rw [show v.pend = some b from hb] at hpend
      cases hpend
    · intro b hb
      rw [show b ∈ v.reg ↔ b ∈ [] by rw [hreg]] at hb
      cases hb
    intro b hb'
    rw [List.mem_singleton.mp hb']
    exact hf.ok
  | @reply buff _ hpend hreg =>
    refine ⟨⟨h1, le_rfl, (by rintro _ ⟨⟩), h4, h5, h6, (by rintro _ ⟨⟩), ?_,
      fun _ => hreg⟩, ?_⟩
    · intro b hb
      rw [show b ∈ v.reg ↔ b ∈ [] by rw [hreg]] at hb
      cases hb
    intro b hb'
    rw [List.mem_singleton.mp hb']
    exact h3 _ hpend
  | @register b _ hreg =>
    refine ⟨⟨h1, h2, h3, h4, (by rintro _ ⟨⟩), ?_, h7, (by rintro _ ⟨⟩),
      fun _ => rfl⟩, hnil⟩
    intro q hq
    have hb : BatchOk C j b := h5 b (by rw [hreg]; exact List.mem_singleton_self _)
    dsimp only at hq
    -- RUN を出た receiver は登録しない
    split at hq
    · rw [Option.getD_some, List.mem_append] at hq
      rcases hq with hq | hq
      · exact h6 q hq
      · rw [List.mem_singleton.mp hq]
        exact hb
    · exact h6 q hq
  | recvStop =>
    refine ⟨⟨h1, h2, h3, h4, h5, ?_, h7, h8, h9⟩, hnil⟩
    intro q hq
    cases hm : v.my <;> simp [hm] at hq
  | discard => exact ⟨hs, hnil⟩
  | noPeer => exact ⟨hs, hnil⟩
  | @process b b' r r' tc _ _ htc hr hd =>
    obtain ⟨hfwd, hmy⟩ := hs.dedup (hib b rfl) hr hd
    refine ⟨⟨h1, h2, h3, ?_, h5, hmy, h7, h8, h9⟩, hnil⟩
    intro q hq
    rcases List.mem_append.mp hq with hq | hq
    · exact h4 q hq
    · split at hq
      · rw [List.mem_singleton.mp hq]
        exact hfwd
      · cases hq
  | @record b rest tc peers _ _ hf htc hrec =>
    have hb : FwdOk C j b := h4 b (by rw [hf]; exact List.mem_cons_self)
    exact ⟨⟨hb.peers_shape h1 hrec, h2, h3,
      fun q hq => h4 q (by rw [hf]; exact List.mem_cons_of_mem _ hq), h5, h6, h7, h8, h9⟩, hnil⟩
  | @dropBuffer b rest _ hf =>
    exact ⟨⟨h1, h2, h3, fun q hq => h4 q (by rw [hf]; exact List.mem_cons_of_mem _ hq), h5, h6,
      h7, h8, h9⟩, hnil⟩

omit [DecidableEq Node] [Zero V] in
theorem Shape.of_delivers {Q : Node → UpdateBuffer V → Prop} {S : TabSys Node V} (hs : Shape C S)
    {ib : Option (UpdateBuffer V)} (hib : S.Delivers C Q j ib) : ∀ b, ib = some b → ChanOk C b := by
  intro b hb
  obtain ⟨⟨u, -, hu⟩, -⟩ := hib b hb
  exact hs.chan u b hu

theorem Shape.step {Q : Node → UpdateBuffer V → Prop} {S S' : TabSys Node V} (hs : Shape C S)
    (h : TabStep C t Q S S') : Shape C S' := by
  obtain ⟨h1, h2⟩ := h.forall_node (I := fun _ j v => NodeShape C j v) (J := fun _ _ b => ChanOk C b)
    hs.node hs.chan (fun j _ _ _ _ hib he => (hs.node j).step (hs.of_delivers hib) he)
    (fun _ _ _ _ _ _ _ _ hk => hk) (fun _ _ _ hb => hb)
  exact ⟨h1, h2⟩

omit [DecidableEq Node] in
theorem Shape.start : Shape C (TabSys.start : TabSys Node V) := by
  refine ⟨fun j => ?_, by rintro _ _ ⟨⟩⟩
  constructor <;> simp [TabSys.start]

/-- 着けるどの状態でも形は保たれている。 -/
theorem TabReach.shape {Q : Node → UpdateBuffer V → Prop} {S : TabSys Node V}
    (h : TabReach C t Q S) : Shape C S :=
  h.invariant Shape.start fun _ _ _ hs hi => hi.step hs

end QuiltDB
