import QuiltDB.Properties.Buffer
import QuiltDB.Properties.PropRun
import QuiltDB.Comm.System

/-!
# batch の符号化

tick で作る buffer は、store の個数と peer の個数から容量を決めて作るので、`AppendUpdate` も
`UpdateNodeRange` も落ちず、二つの iterator で読み直すと store の中身と range がそのまま得られる。

そのために要るのは、propagator の表に自分の id が無いことと、自分の update があれば自分の range も
空でないことである。どちらも run の間ずっと保たれる。
-/

namespace QuiltDB

open Propagator

variable {V : Type} {c : NodeConfig V} {p p' : Propagator V} {i : PropInput V} {out : PropOut V}

/-- paired receiver は、自分の range を除いてから buffer を渡す。 -/
def forwarded (c : NodeConfig V) : PropInput V → Bool
  | .update (.epUpdateBuffer _ b) => decide (c.myId ∉ b.iterNodeRanges.map Prod.fst)
  | _ => true

/-- table 一つの表と自分の range について、run の間ずっと成り立つこと。 -/
structure TabRanges (c : NodeConfig V) (t : TableId) (pt : PropTable V) : Prop where
  /-- 自分の id は peer の表に入らない。 -/
  peers : ∀ id r, pt.tablePeersUpdateRange.lookup id = some r → 0 ≤ id ∧ id ≠ c.myId
  range : pt.myUpdateRange.st ≤ pt.myUpdateRange.end_ + 1
  /-- 自分の update があれば、自分の range は空でない。 -/
  mine : pt.myUpdateStore.entries ≠ [] → pt.myUpdateRange.pending = true
  /-- 自分の update を別に持つのは、loop する table だけである。 -/
  loop : pt.myUpdateStore.entries ≠ [] → ∃ tc, c.tableDir.lookup t = some tc ∧ tc.loop = true

structure Ranges (c : NodeConfig V) (p : Propagator V) : Prop where
  tab : ∀ t, TabRanges c t (p.tab t)
  wait : ∀ t b todo, p.pc = .waitAck t b todo → (p.tab t).myUpdateStore.entries = []

/-! ## 一つの table -/

variable {t : TableId} {pt : PropTable V}

theorem TabRanges.start : TabRanges c t
    { updateStore := ∅, tablePeersUpdateRange := ∅, myUpdateRange := ⟨0, -1⟩, myUpdateStore := ∅ } where
  peers := by rintro _ _ ⟨⟩
  range := le_rfl
  mine := fun h => absurd rfl h
  loop := fun h => absurd rfl h

theorem TabRanges.close (h : TabRanges c t pt) (hm : pt.myUpdateStore.entries = []) :
    TabRanges c t (closeMyRange pt) where
  peers := h.peers
  range := le_rfl
  mine := fun hne => absurd hm hne
  loop := fun hne => absurd hm hne

theorem TabRanges.flush (h : TabRanges c t pt) {o : FlushOrder V} {buff : UpdateBuffer V}
    {peers : AList fun _ : NodeId => UpdateRange} (hid : 0 ≤ c.myId) (ho : o.Valid pt)
    (hb : buildBuffer c pt o = .ok (buff, peers)) :
    TabRanges c t { pt with updateStore := ∅, tablePeersUpdateRange := peers } where
  peers := fun id r hr => by
    rw [(buildBuffer_spec ho hid h.peers hb).2.2 id, Option.map_eq_some_iff] at hr
    obtain ⟨r₀, hr₀, -⟩ := hr
    exact h.peers id r₀ hr₀
  range := h.range
  mine := h.mine
  loop := h.loop

theorem TabRanges.log [Zero V] (h : TabRanges c t pt) (key : Key) (delta : V) :
    TabRanges c t (addLog c t pt key delta) := by
  have hrange := h.range
  have hpending : ∀ r : UpdateRange, r = { pt.myUpdateRange with end_ := pt.myUpdateRange.end_ + 1 } →
      r.st ≤ r.end_ + 1 ∧ r.pending = true := by
    rintro r rfl
    refine ⟨?_, decide_eq_true ?_⟩
    · dsimp only
      omega
    · exact hrange
  unfold addLog
  dsimp only
  split
  · next htc =>
    refine ⟨h.peers, (hpending _ rfl).1, fun hne => (hpending _ rfl).2, h.loop⟩
  · next tc htc =>
    split
    · exact ⟨h.peers, (hpending _ rfl).1, fun hne => (hpending _ rfl).2, h.loop⟩
    · refine ⟨h.peers, (hpending _ rfl).1, fun hne => (hpending _ rfl).2, fun hne => ?_⟩
      by_cases hl : tc.loop = true
      · exact ⟨tc, htc, hl⟩
      · rw [if_neg hl] at hne
        exact h.loop hne

theorem TabRanges.record (h : TabRanges c t pt) {b : UpdateBuffer V}
    {peers : AList fun _ : NodeId => UpdateRange} {store : AList fun _ : Key => V}
    (hb : c.myId ∉ b.iterNodeRanges.map Prod.fst)
    (hr : recordRanges pt.tablePeersUpdateRange b.iterNodeRanges = .ok peers) :
    TabRanges c t { pt with updateStore := store, tablePeersUpdateRange := peers } where
  peers := fun id r hl => by
    rcases recordRanges_mem hr (AList.lookup_isSome.mp (by rw [hl]; rfl)) with hmem | hmem
    · obtain ⟨r₀, hr₀⟩ := Option.isSome_iff_exists.mp (AList.lookup_isSome.mpr hmem)
      exact h.peers id r₀ hr₀
    · refine ⟨?_, fun heq => hb (heq ▸ hmem)⟩
      obtain ⟨e, he, rfl⟩ := List.mem_map.mp hmem
      exact UpdateBuffer.iterNodeRanges_nonneg he
  range := h.range
  mine := h.mine
  loop := h.loop

/-! ## run の間 -/

theorem Ranges.exitTest (h : Ranges c p) : Ranges c p.exitTest := by
  rw [exitTest_eq]
  refine ⟨h.tab, fun t b todo hpc => ?_⟩
  dsimp only at hpc
  split at hpc
  · cases hpc
  · exact h.wait t b todo hpc

/-- table 一つを書き換え、返事を待たない所へ移る一歩。 -/
theorem Ranges.update (h : Ranges c p) (hpt : TabRanges c t pt) {pc : PropagatorPc V}
    (hpc : ∀ t b todo, pc ≠ .waitAck t b todo) :
    Ranges c { p with tab := Function.update p.tab t pt, pc := pc } where
  tab := fun t' => by
    by_cases ht : t' = t
    · subst ht
      dsimp only
      rw [Function.update_self]
      exact hpt
    · dsimp only
      rw [Function.update_of_ne ht]
      exact h.tab t'
  wait := fun t b todo heq => absurd heq (hpc t b todo)

theorem Ranges.step [Zero V] (hid : 0 ≤ c.myId) (h : Ranges c p) (hi : forwarded c i = true)
    (he : PropEff c p i p' out) : Ranges c p' := by
  have hpoll : p.pc = .poll → ∀ t b todo, p.pc ≠ .waitAck t b todo := by
    intro hpc t b todo
    rw [hpc]
    rintro ⟨⟩
  cases he with
  | trigger | skip => exact ⟨h.tab, by rintro _ _ _ ⟨⟩⟩
  | @ask o t todo buff peers tc myBuff _ ho _ hb =>
    have hflush := (h.tab t).flush hid ho hb
    refine ⟨fun t' => ?_, fun t' b todo' hpc => ?_⟩
    · by_cases ht : t' = t
      · subst ht
        dsimp only
        rw [Function.update_self]
        exact ⟨hflush.peers, hflush.range, fun h => absurd rfl h, fun h => absurd rfl h⟩
      · dsimp only
        rw [Function.update_of_ne ht]
        exact h.tab t'
    · cases hpc
      dsimp only
      rw [Function.update_self]
      rfl
  | @send o t todo buff peers _ ho _ hb hmy =>
    have hflush := (h.tab t).flush hid ho hb
    refine h.update (hflush.close ?_) (by rintro _ _ _ ⟨⟩)
    by_contra hne
    obtain ⟨tc, htc, hl⟩ := (h.tab t).loop hne
    exact hne (hmy tc htc hl)
  | reply hpc => exact h.update ((h.tab _).close (h.wait _ _ _ hpc)) (by rintro _ _ _ ⟨⟩)
  | flushEnd =>
    refine ⟨h.tab, fun t b todo hpc => ?_⟩
    rw [flushEnd] at hpc
    dsimp only at hpc
    split at hpc <;> cases hpc
  | timerStopped => exact Ranges.exitTest ⟨h.tab, by rintro _ _ _ ⟨⟩⟩
  | log hpc => exact h.update ((h.tab _).log _ _) (hpoll hpc)
  | record hpc _ _ hr => exact h.update ((h.tab _).record (of_decide_eq_true hi) hr) (hpoll hpc)
  | drop => exact h
  | internalTerminate hpc =>
    refine ⟨fun t => ?_, fun t b todo heq => absurd heq (hpoll hpc t b todo)⟩
    have ht := h.tab t
    exact ⟨ht.peers, ht.range, ht.mine, ht.loop⟩
  | recvAck => exact Ranges.exitTest ⟨h.tab, h.wait⟩
  | terminate _ _ hp =>
    obtain ⟨d, r, rfl | rfl⟩ := hp
    · exact ⟨h.tab, h.wait⟩
    · exact Ranges.exitTest ⟨h.tab, h.wait⟩

variable [Zero V] [DecidableEq V]

/-- 渡される buffer に自分の range が無い run で着ける状態。 -/
abbrev PropReachable (c : NodeConfig V) : PropHist V → Prop :=
  PropReachableUnder c fun _ i => forwarded c i = true

theorem PropReachable.ranges (hid : 0 ≤ c.myId) {s : PropHist V} (h : PropReachable c s) :
    Ranges c s.prop := by
  refine PropReachableUnder.invariant (I := fun s => Ranges c s.prop) h ?_ ?_
  · exact ⟨fun t => TabRanges.start, by rintro _ _ _ ⟨⟩⟩
  · exact fun s i p' out _ hi he hI => hI.step hid hi he

/--
**tick で作る buffer は落ちずに作れ、読み直すと store の中身と送るべき range がちょうど一度ずつ
得られる。自分の update があれば、`EMyUpdates` の buffer についても同じである。**
-/
theorem batch_encoding_faithful (hid : 0 ≤ c.myId) {s : PropHist V} (h : PropReachable c s)
    {o : FlushOrder V} (ho : o.Valid (s.prop.tab t)) :
    (∃ buff peers, buildBuffer c (s.prop.tab t) o = .ok (buff, peers) ∧
      buff.iterUpdates.Perm (pairs (s.prop.tab t).updateStore) ∧
      (buff.iterNodeRanges.map Prod.fst).Nodup ∧
      ∀ id r, (id, r) ∈ buff.iterNodeRanges ↔ r.st ≤ r.end_ ∧
        ((s.prop.tab t).tablePeersUpdateRange.lookup id = some r ∨
          (id = c.myId ∧ r = (s.prop.tab t).myUpdateRange))) ∧
    ((s.prop.tab t).myUpdateStore.entries ≠ [] → ∃ b₁ myBuff,
      appendUpdates (UpdateBuffer.createUpdateBuffer
        (s.prop.tab t).myUpdateStore.entries.length 1) o.mine = some b₁ ∧
      b₁.updateNodeRange c.myId (s.prop.tab t).myUpdateRange.st (s.prop.tab t).myUpdateRange.end_
        = some myBuff ∧
      buildMyBuffer c (s.prop.tab t) o.mine = .ok myBuff ∧
      myBuff.iterUpdates.Perm (pairs (s.prop.tab t).myUpdateStore) ∧
      myBuff.iterNodeRanges = [(c.myId, (s.prop.tab t).myUpdateRange)]) := by
  have hr := (h.ranges hid).tab t
  generalize s.prop.tab t = pt at ho hr ⊢
  refine ⟨?_, fun hne => ?_⟩
  · obtain ⟨buff, peers, hok, hup, ⟨k, hk⟩, -⟩ := buildBuffer_ok ho hid hr.peers
    refine ⟨buff, peers, hok, ?_, ?_, fun id r => ?_⟩
    · rw [UpdateBuffer.iterUpdates_eq, hup]
      exact ho.1
    · rw [hk.iter]
      exact hk.nodup
    · rw [hk.iter, outRanges, List.mem_append, List.mem_filter, ho.2.1.mem_iff, mem_pairs,
        UpdateRange.pending, decide_eq_true_eq]
      constructor
      · rintro (⟨hl, hle⟩ | hmem)
        · exact ⟨hle, Or.inl hl⟩
        · split at hmem
          · next hp =>
            obtain ⟨rfl, rfl⟩ := Prod.mk.inj (List.mem_singleton.mp hmem)
            exact ⟨of_decide_eq_true hp, Or.inr ⟨rfl, rfl⟩⟩
          · cases hmem
      · rintro ⟨hle, hl | ⟨rfl, rfl⟩⟩
        · exact Or.inl ⟨hl, hle⟩
        · right
          have hp : pt.myUpdateRange.pending = true := decide_eq_true hle
          rw [if_pos hp]
          exact List.mem_singleton_self _
  · obtain ⟨b₁, myBuff, h1, h2, h3, h4, h5⟩ := buildMyBuffer_ok hid ho.2.2 (hr.mine hne)
    refine ⟨b₁, myBuff, h1, h2, h3, ?_, h5.iter⟩
    rw [UpdateBuffer.iterUpdates_eq, h4]
    exact ho.2.2

/-- 二つの node の輪の node 0 が、自分の log と node 1 から渡された buffer を一つにまとめる tick。 -/
theorem batch_encoding_pairRing :
    ∃ s buff peers, PropReachable (pairRing.nodeConfig 0) s ∧ s.prop.pc = .flush [0] ∧
      buildBuffer (pairRing.nodeConfig 0) (s.prop.tab 0)
        ⟨[(2, 3), (1, 1)], [(1, ⟨0, 0⟩)], [(1, 1)]⟩ = .ok (buff, peers) ∧
      buff.iterUpdates.Perm (pairs (s.prop.tab 0).updateStore) := by
  let b : UpdateBuffer (BitVec 32) :=
    { updateCapacity := 1, updates := [(2, 3)], slots := [⟨1, 0, 0⟩], updateIter := 0,
      nodeRangeIter := 0 }
  obtain ⟨s, hr, hpc, hvalid⟩ : ∃ s, PropReachable (pairRing.nodeConfig 0) s ∧
      s.prop.pc = .flush [0] ∧
      FlushOrder.Valid ⟨[(2, 3), (1, 1)], [(1, ⟨0, 0⟩)], [(1, 1)]⟩ (s.prop.tab 0) :=
    Lts.ReachableUnder.exists_of_run [.update (.epUpdateLog 0 1 1), .update (.epUpdateBuffer 0 b),
      .timerTrigger [0]] (by decide +kernel)
  obtain ⟨buff, peers, hok, hperm, -⟩ := (batch_encoding_faithful (by decide) hr hvalid).1
  exact ⟨s, buff, peers, hr, hpc, hok, hperm⟩

end QuiltDB
