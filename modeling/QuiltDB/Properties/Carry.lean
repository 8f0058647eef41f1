import QuiltDB.Properties.Shape

/-!
# range の届く先

`o` の range は、`o` から下流へ辿って着く node にしか現れない。`o` が輪の上にあるか、`o` の下流に輪が
無ければ、どの node にも `o` の range を運ぶ上流は高々一つである（`SingleFeed`）。
-/

namespace QuiltDB

variable {V Node : Type}

/-! ## 下流へ辿る -/

/-- `o` から下流へ辿って `j` に着く。 -/
def Topology.Feeds (T : Topology Node) (o j : Node) : Prop :=
  Relation.ReflTransGen (fun a b => T.down a = some b) o j

/-- `o` の update を運ぶ上流は、どの node にも高々一つしかない。 -/
def Topology.SingleFeed (T : Topology Node) (o : Node) : Prop :=
  ∀ u u' d, T.Feeds o u → T.Feeds o u' → T.down u = some d → T.down u' = some d → u = u'

/-- `o` から下流へ辿る道は輪に入らない。 -/
def Topology.AvoidsRings (T : Topology Node) (o : Node) : Prop :=
  ∀ j d, T.Feeds o j → T.down j = some d → ¬T.Feeds d j

/-- `j` から下流へ辿っても `j` に戻らない。 -/
def Topology.OffRing (T : Topology Node) (j : Node) : Prop :=
  ∀ d, T.down j = some d → ¬T.Feeds d j

/-- 輪が一つも無い。 -/
def Topology.IsForest (T : Topology Node) : Prop := ∀ o, T.AvoidsRings o

section topology

variable {T : Topology Node} {o u u' d : Node}

theorem Topology.Feeds.down (h : T.Feeds o u) (hd : T.down u = some d) : T.Feeds o d :=
  Relation.ReflTransGen.tail h hd

/-- 下流は一つだから、二つの行き先は一方が他方の先にある。 -/
theorem Topology.Feeds.total (h : T.Feeds o u) (h' : T.Feeds o u') : T.Feeds u u' ∨ T.Feeds u' u :=
  Relation.ReflTransGen.total_of_right_unique
    (fun _ _ _ h1 h2 => Option.some.inj (h1.symm.trans h2)) h h'

/-- 一歩以上辿って着くなら、まず下流に着く。 -/
theorem Topology.Feeds.next (h : T.Feeds u u') (hd : T.down u = some d) (hne : u ≠ u') :
    T.Feeds d u' := by
  rcases Relation.ReflTransGen.cases_head h with rfl | ⟨d', hd', h'⟩
  · exact absurd rfl hne
  · rw [hd] at hd'
    obtain rfl := Option.some.inj hd'
    exact h'

/-- 輪の外の node は、自分の上流に何も送らない。 -/
theorem Topology.OffRing.not_feeds (h : T.OffRing d) (hd : T.down u = some d) : ¬T.Feeds d u := by
  intro hback
  rcases Relation.ReflTransGen.cases_head hback with rfl | ⟨x, hx, hxu⟩
  · exact h d hd .refl
  · exact h x hx (Topology.Feeds.down hxu hd)

/-- 輪の外の node の上流は、輪の外にある。 -/
theorem Topology.OffRing.up (h : T.OffRing d) (hd : T.down u = some d) : T.OffRing u := by
  intro d' hd'
  obtain rfl : d = d' := Option.some.inj (hd.symm.trans hd')
  exact h.not_feeds hd

/-- 輪に入らない道の上の node は、輪の外にある。 -/
theorem Topology.AvoidsRings.offRing (h : T.AvoidsRings o) (hu : T.Feeds o u) : T.OffRing u :=
  fun d => h u d hu

/-- 輪の外の node に着く node は、輪の外にある。 -/
theorem Topology.OffRing.of_feeds (h : T.OffRing u) (hf : T.Feeds o u) : T.OffRing o := by
  induction hf with
  | refl => exact h
  | tail _ hd ih => exact ih (h.up hd)

/-- 輪に入らない道の途中に流れ込む道も、輪に入らない。 -/
theorem Topology.AvoidsRings.of_feeds (h : T.AvoidsRings o) (hu : T.Feeds o u)
    (hu' : T.Feeds u' u) : T.AvoidsRings u' := by
  intro x d hx
  rcases hu'.total hx with hux | hxu
  · exact h.offRing (hu.trans hux) d
  · exact (h.offRing hu).of_feeds hxu d

theorem Topology.IsForest.offRing (h : T.IsForest) (u : Node) : T.OffRing u :=
  (h u).offRing .refl

/-- 道が輪に入らなければ、運ぶ上流は一つである。 -/
theorem Topology.AvoidsRings.singleFeed (h : T.AvoidsRings o) : T.SingleFeed o := by
  intro u u' d hu hu' hd hd'
  by_contra hne
  rcases hu.total hu' with hp | hp
  · exact h u' d hu' hd' (hp.next hd hne)
  · exact h u d hu hd (hp.next hd' (Ne.symm hne))

/--
`o` に戻ってくる道があれば、運ぶ上流は一つである。

`o` から着く node は有限個で、どれも着く node の下流になっている。有限の集合の上で全射だから単射である。
-/
theorem Topology.Feeds.singleFeed (h : T.Feeds o u) (hd : T.down u = some o) : T.SingleFeed o := by
  classical
  let next : Node → Node := fun x => (T.down x).getD x
  let fed : Finset Node := T.nodes.toFinset.filter (T.Feeds o)
  have hmem : ∀ x, x ∈ fed ↔ T.Feeds o x := fun x => by simp [fed, T.mem_nodes x]
  have hnext : ∀ {x y}, T.down x = some y → next x = y := fun hxy => by simp [next, hxy]
  have hmaps : Set.MapsTo next fed fed := by
    intro x hx
    rw [Finset.mem_coe, hmem] at hx ⊢
    cases hx' : T.down x with
    | none => simpa [next, hx'] using hx
    | some y => exact (hnext hx').symm ▸ hx.down hx'
  have hsurj : Set.SurjOn next fed fed := by
    intro y hy
    rw [Finset.mem_coe, hmem] at hy
    rcases Relation.ReflTransGen.cases_tail hy with rfl | ⟨x, hx, hxy⟩
    · exact ⟨u, (hmem u).mpr h, hnext hd⟩
    · exact ⟨x, (hmem x).mpr hx, hnext hxy⟩
  have hinj := Finset.injOn_of_surjOn_of_card_le next hmaps hsurj le_rfl
  intro x x' y hx hx' hy hy'
  exact hinj ((hmem x).mpr hx) ((hmem x').mpr hx') ((hnext hy).trans (hnext hy').symm)

end topology

/-! ## 不変量 -/

/-- buffer の range は、どれも `j` に着く node のものである。 -/
def CarriesFed (C : SysConfig Node V) (j : Node) (b : UpdateBuffer V) : Prop :=
  ∀ e ∈ b.iterNodeRanges, ∀ o, C.id o = e.1 → C.Feeds o j

structure NodeCarry (C : SysConfig Node V) (j : Node) (v : TabView V) : Prop where
  peers : ∀ o r, v.pt.tablePeersUpdateRange.lookup (C.id o) = some r → C.Feeds o j
  pend : ∀ b, v.pend = some b → CarriesFed C j b
  fwd : ∀ b ∈ v.fwd, CarriesFed C j b

structure Carry (C : SysConfig Node V) (S : TabSys Node V) : Prop where
  node : ∀ j, NodeCarry C j (S.view j)
  chan : ∀ u, ∀ b ∈ S.chan u, CarriesFed C u b

variable [DecidableEq Node] {C : SysConfig Node V} {t : TableId} {j : Node} {v v' : TabView V}

theorem FlushSpec.carriesFed {o : FlushOrder V} {buff : UpdateBuffer V}
    {peers : AList fun _ : NodeId => UpdateRange} (hf : FlushSpec C j v.pt o buff peers)
    (h : NodeCarry C j v) :
    CarriesFed C j buff ∧ ∀ o r, peers.lookup (C.id o) = some r → C.Feeds o j := by
  constructor
  · intro e he o ho
    rw [hf.ranges, Propagator.outRanges, List.mem_append] at he
    rcases he with he | he
    · exact h.peers o e.2 (ho ▸ (hf.mem e).mp (List.mem_filter.mp he).1)
    · split at he
      · rw [List.mem_singleton.mp he] at ho
        obtain rfl := C.id_injective ho
        exact .refl
      · cases he
  · intro o r hr
    rw [hf.peers, Option.map_eq_some_iff] at hr
    obtain ⟨r₀, hr₀, -⟩ := hr
    exact h.peers o r₀ hr₀

omit [DecidableEq Node] in
theorem Receiver.dedup_carriesFed {c : NodeConfig V} {r r' : Receiver V} {it : InternalTable V}
    {b b' : UpdateBuffer V} (hb : ChanOk C b) (hid : 0 ≤ c.myId)
    (h : Receiver.dedup c r t it b = .ok (r', b')) (hf : CarriesFed C j b) :
    CarriesFed C j b' := by
  obtain ⟨k, hk⟩ := hb.packed
  rcases Receiver.dedup_spec hk hid h with
    ⟨-, -, rfl⟩ | ⟨pre, rng, post, _, _, _, hrs, -, -, -, -, hit⟩
  · exact hf
  · intro e he
    rw [hit] at he
    exact hf e (by rw [hrs]; simp [he])

variable [Zero V] {ib : Option (UpdateBuffer V)} {push : List (UpdateBuffer V)}
  {ev : List (Event V)}

theorem NodeCarry.step (hs : NodeShape C j v) (h : NodeCarry C j v)
    (hib : ∀ b, ib = some b → ChanOk C b ∧ CarriesFed C j b)
    (he : TabEff (C.nodeConfig j) t v ib v' push ev) :
    NodeCarry C j v' ∧ ∀ b ∈ push, CarriesFed C j b := by
  have hnil : ∀ b ∈ ([] : List (UpdateBuffer V)), CarriesFed C j b := by rintro _ ⟨⟩
  cases he with
  | skip | inc | dropLog | stop | register | recvStop | discard | noPeer =>
    exact ⟨⟨h.peers, h.pend, h.fwd⟩, hnil⟩
  | @log _ _ key delta =>
    refine ⟨⟨?_, h.pend, h.fwd⟩, hnil⟩
    dsimp only
    rw [(addLog_range (C.nodeConfig j) t v.pt key delta).2]
    exact h.peers
  | @ask o buff peers myBuff tc _ _ _ _ hv hst hb =>
    obtain ⟨h1, h2⟩ := (hs.flush hv hst hb).carriesFed h
    exact ⟨⟨h2, fun b hb => Option.some.inj hb ▸ h1, h.fwd⟩, hnil⟩
  | @send o buff peers _ _ _ hv hst hb =>
    obtain ⟨h1, h2⟩ := (hs.flush hv hst hb).carriesFed h
    exact ⟨⟨h2, h.pend, h.fwd⟩, fun b hb => List.mem_singleton.mp hb ▸ h1⟩
  | @reply buff _ hp _ =>
    exact ⟨⟨h.peers, (by rintro _ ⟨⟩), h.fwd⟩,
      fun b hb => List.mem_singleton.mp hb ▸ h.pend buff hp⟩
  | @process b b' r r' tc _ _ _ _ hd =>
    obtain ⟨hok, hfed⟩ := hib b rfl
    refine ⟨⟨h.peers, h.pend, ?_⟩, hnil⟩
    intro q hq
    rcases List.mem_append.mp hq with hq | hq
    · exact h.fwd q hq
    · split at hq
      · rw [List.mem_singleton.mp hq]
        exact Receiver.dedup_carriesFed hok (C.id_nonneg j) hd hfed
      · cases hq
  | @record b rest tc peers _ _ hf _ hrec =>
    have hb : b ∈ v.fwd := by rw [hf]; exact List.mem_cons_self
    refine ⟨⟨?_, h.pend, fun q hq => h.fwd q (by rw [hf]; exact List.mem_cons_of_mem _ hq)⟩, hnil⟩
    intro o r hr
    dsimp only at hr
    rcases Propagator.recordRanges_lookup (hs.fwd b hb).nodup hrec (C.id o) with
      ⟨-, hsame⟩ | ⟨r₁, he, -⟩ | ⟨r₁, r₀, he, -⟩
    · rw [hsame] at hr
      exact h.peers o r hr
    · exact h.fwd b hb _ he o rfl
    · exact h.fwd b hb _ he o rfl
  | @dropBuffer b rest _ hf =>
    exact ⟨⟨h.peers, h.pend, fun q hq => h.fwd q (by rw [hf]; exact List.mem_cons_of_mem _ hq)⟩,
      hnil⟩

theorem Carry.step {Q : Node → UpdateBuffer V → Prop} {S S' : TabSys Node V} (hs : Shape C S)
    (hi : Carry C S) (h : TabStep C t Q S S') : Carry C S' := by
  obtain ⟨h1, h2⟩ := h.forall_node (I := fun _ j v => NodeCarry C j v)
    (J := fun _ u b => CarriesFed C u b) hi.node hi.chan
    (fun j ib _ _ _ hib he => by
      refine (hi.node j).step (hs.node j) (fun b hb => ?_) he
      obtain ⟨⟨u, hd, hu⟩, -⟩ := hib b hb
      exact ⟨hs.chan u b hu, fun e he o ho => (hi.chan u b hu e he o ho).down hd⟩)
    (fun _ _ _ _ _ _ _ _ hk => hk) (fun _ _ _ hb => hb)
  exact ⟨h1, h2⟩

/-- 着けるどの状態でも、range は下流にしか無い。 -/
theorem TabReach.carry {Q : Node → UpdateBuffer V → Prop} {S : TabSys Node V}
    (h : TabReach C t Q S) : Carry C S := by
  refine h.invariant (I := Carry C) ?_ fun _ _ hr hs hi => hi.step hr.shape hs
  refine ⟨fun j => ?_, by rintro _ _ ⟨⟩⟩
  constructor <;> simp [TabSys.start]

end QuiltDB
