import QuiltDB.Properties.FlatReceive

/-!
# byte 列のままの hop

propagator が batch を詰めて送り、下流の receiver が処理し、その先の propagator が溜めるまでを、
byte 列のままの計算と列のモデルの計算で比べる。

* `buildBuffer_refines` — propagator が batch を詰める所
* `send_recv` — TCP の二つの frame
* `storeUpdateBuffer_refines` — paired propagator が溜める所
* `flat_hop_refines` — hop の全体
-/

namespace QuiltDB.FlatPath

open Checked FlatBuffer Bytes UpdateBuffer

variable {us cap k : Nat} {v : View} {b : UpdateBuffer Mem} {it : Bool} {m : Mem}

/-! ## 詰める -/

section build

/-- `AppendUpdate`。 -/
theorem Holds.appendUpdate (h : Holds us m b) (key : Key) {delta : Mem} (hd : delta.length = us) :
    ∃ r m', FlatBuffer.appendUpdate m key delta = some (r, m') ∧
      (r = 0 ↔ (b.appendUpdate key delta).isSome = true) ∧
      Holds us m' ((b.appendUpdate key delta).getD b) := by
  obtain ⟨cap, k, v, b₀, it, rfl, hsim, hsame⟩ := h
  obtain ⟨v', happ, -, -, hsim'⟩ := hsim.appendUpdate key hd
  have hcap := hsim.capacity
  refine ⟨_, v'.bytes, happ, ?_, .of_sim hsim' ?_⟩
  · rw [UpdateBuffer.appendUpdate, ← hsame.updates, ← hsame.capacity, hcap]
    split
    · exact iff_of_false (by decide) (by simp)
    · exact iff_of_true rfl rfl
  · rw [specStep, UpdateBuffer.appendUpdate, UpdateBuffer.appendUpdate, ← hsame.updates,
      ← hsame.capacity]
    split
    · exact hsame
    · exact ⟨rfl, hsame.slots, rfl⟩

/-- `AppendUpdate` の loop。 -/
theorem appendUpdates_refines (h : Holds us m b) {l : List (Key × Mem)}
    (hl : ∀ kv ∈ l, kv.2.length = us) :
    Refines (Holds us) (appendUpdates m l)
      ((Propagator.appendUpdates b l).elim (.error .appendFailed) .ok) := by
  induction l generalizing m b with
  | nil => exact .ok h
  | cons kv l ih =>
    obtain ⟨r, m', happ, hret, hm'⟩ := h.appendUpdate kv.1 (hl kv List.mem_cons_self)
    rw [appendUpdates, Propagator.appendUpdates]
    refine .access_bind happ ?_
    dsimp only
    cases hb : b.appendUpdate kv.1 kv.2 with
    | none =>
      rw [hb] at hret
      rw [if_neg fun h0 => Bool.false_ne_true (hret.mp h0)]
      exact .fail _
    | some b' =>
      rw [hb] at hret hm'
      rw [if_pos (hret.mpr rfl)]
      exact ih hm' fun x hx => hl x (List.mem_cons_of_mem _ hx)

/-- `int64_t` に収まる range。 -/
def FitsInt64 (r : UpdateRange) : Prop :=
  (-2 ^ 63 ≤ r.st ∧ r.st < 2 ^ 63) ∧ -2 ^ 63 ≤ r.end_ ∧ r.end_ < 2 ^ 63

/-- `int32_t` に収まる id。 -/
def FitsInt32 (id : NodeId) : Prop := -2 ^ 31 ≤ id ∧ id < 2 ^ 31

theorem Holds.updateFits (h : Holds us m b) {id : NodeId} (hid : FitsInt32 id) {r : UpdateRange}
    (hr : FitsInt64 r) :
    ∃ ret m', FlatBuffer.updateNodeRange m (.ofInt id) (.ofInt r.st) (.ofInt r.end_) = some (ret, m') ∧
      (ret = 0 ↔ (b.updateNodeRange id r.st r.end_).isSome = true) ∧
      Holds us m' ((b.updateNodeRange id r.st r.end_).getD b) := by
  have hspec := h.updateNodeRange (.ofInt id) (.ofInt r.st) (.ofInt r.end_)
  rwa [Int32.toInt_ofInt_of_le hid.1 hid.2, Int64.toInt_ofInt_of_le hr.1.1 hr.1.2,
    Int64.toInt_ofInt_of_le hr.2.1 hr.2.2] at hspec

/-- peer の range を書く loop。 -/
theorem emitPeerRanges_refines (h : Holds us m b) (peers : AList fun _ : NodeId => UpdateRange)
    {l : List (NodeId × UpdateRange)} (hl : ∀ e ∈ l, FitsInt32 e.1 ∧ FitsInt64 e.2) :
    Refines (fun x y => Holds us x.1 y.1 ∧ x.2 = y.2) (emitPeerRanges m peers l)
      ((Propagator.emitPeerRanges b peers l).elim (.error .nodeRangeFailed) .ok) := by
  induction l generalizing m b peers with
  | nil => exact .ok ⟨h, rfl⟩
  | cons e l ih =>
    obtain ⟨id, r⟩ := e
    have hrest : ∀ e ∈ l, FitsInt32 e.1 ∧ FitsInt64 e.2 := fun x hx => hl x (List.mem_cons_of_mem _ hx)
    rw [emitPeerRanges, Propagator.emitPeerRanges]
    split
    · obtain ⟨hid, hr⟩ := hl (id, r) List.mem_cons_self
      obtain ⟨ret, m', hupd, hret, hm'⟩ := h.updateFits hid hr
      refine .access_bind hupd ?_
      dsimp only
      cases hb : b.updateNodeRange id r.st r.end_ with
      | none =>
        rw [hb] at hret
        rw [if_neg fun h0 => Bool.false_ne_true (hret.mp h0)]
        exact .fail _
      | some b' =>
        rw [hb] at hret hm'
        rw [if_pos (hret.mpr rfl)]
        exact ih hm' _ hrest
    · exact ih h peers hrest

/-- 自分の range を書く。 -/
theorem emitMyRange_refines {c : NodeConfig Mem} (h : Holds us m b) (hid : FitsInt32 c.myId)
    {r : UpdateRange} (hr : FitsInt64 r) :
    Refines (Holds us) (emitMyRange c.myId m r)
      ((Propagator.emitMyRange c b r).elim (.error .nodeRangeFailed) .ok) := by
  rw [emitMyRange, Propagator.emitMyRange]
  split
  · obtain ⟨ret, m', hupd, hret, hm'⟩ := h.updateFits hid hr
    refine .access_bind hupd ?_
    dsimp only
    cases hb : b.updateNodeRange c.myId r.st r.end_ with
    | none =>
      rw [hb] at hret
      rw [if_neg fun h0 => Bool.false_ne_true (hret.mp h0)]
      exact .fail _
    | some b' =>
      rw [hb] at hret hm'
      rw [if_pos (hret.mpr rfl)]
      exact .ok hm'
  · exact .ok h

/-- `CreateUpdateBuffer` は、空の buffer を持つ byte 列を作る。 -/
theorem create_holds (hfit : layoutSize us cap k < 2 ^ 31) (fresh : Nat → UInt8)
    (hus : us < 2 ^ 31) :
    ∃ m, createUpdateBuffer (.ofNat us) (.ofNat cap) (.ofNat k) fresh = some m ∧
      Holds us m (UpdateBuffer.createUpdateBuffer cap k) := by
  obtain ⟨v, hcreate, hsim⟩ := createUpdateBuffer_sim hfit hus fresh
  exact ⟨v.bytes, hcreate, .of_sim hsim (.refl _)⟩

variable {c : NodeConfig Mem} {pt : PropTable Mem} {o : FlushOrder Mem}

/-- timer の枝で溜まっているものが、`us` byte の delta と `int32_t`・`int64_t` に収まる。 -/
structure Sized (us : Nat) (c : NodeConfig Mem) (pt : PropTable Mem) (o : FlushOrder Mem) : Prop where
  id : FitsInt32 c.myId
  size : us < 2 ^ 31
  updates : ∀ kv ∈ o.updates, kv.2.length = us
  mine : ∀ kv ∈ o.mine, kv.2.length = us
  peers : ∀ e ∈ o.peers, FitsInt32 e.1 ∧ FitsInt64 e.2
  range : FitsInt64 pt.myUpdateRange
  layout : layoutSize us pt.updateStore.entries.length
    (pt.tablePeersUpdateRange.entries.length + 1) < 2 ^ 31
  myLayout : layoutSize us pt.myUpdateStore.entries.length 1 < 2 ^ 31

/-- 下流へ送る buffer。 -/
theorem buildBuffer_refines (h : Sized us c pt o) (fresh : Nat → UInt8) :
    Refines (fun x y => Holds us x.1 y.1 ∧ x.2 = y.2) (buildBuffer c.myId us pt o fresh)
      (Propagator.buildBuffer c pt o) := by
  obtain ⟨m, hcreate, hm⟩ := create_holds h.layout fresh h.size
  rw [buildBuffer, Propagator.buildBuffer]
  refine .access_bind hcreate ?_
  refine (appendUpdates_refines hm h.updates).bind_elim (fun hb => by rw [hb]) fun m₁ b₁ hb₁ hm₁ => ?_
  rw [hb₁]
  refine (emitPeerRanges_refines hm₁ pt.tablePeersUpdateRange h.peers).bind_elim
    (fun hb => by simp only [hb]) ?_
  rintro ⟨m₂, peers⟩ ⟨b₂, _⟩ hb₂ ⟨hm₂, rfl⟩
  simp only [hb₂]
  refine (emitMyRange_refines hm₂ h.id h.range).bind_elim (fun hb => by simp only [hb])
    fun m₃ b₃ hb₃ hm₃ => ?_
  simp only [hb₃]
  exact .ok ⟨hm₃, rfl⟩

/-- paired receiver に渡す buffer。 -/
theorem buildMyBuffer_refines (h : Sized us c pt o) (fresh : Nat → UInt8) :
    Refines (Holds us) (buildMyBuffer c.myId us pt o.mine fresh)
      (Propagator.buildMyBuffer c pt o.mine) := by
  obtain ⟨m, hcreate, hm⟩ := create_holds h.myLayout fresh h.size
  rw [buildMyBuffer, Propagator.buildMyBuffer]
  refine .access_bind hcreate ?_
  refine (appendUpdates_refines hm h.mine).bind_elim (fun hb => by rw [hb]) fun m₁ b₁ hb₁ hm₁ => ?_
  rw [hb₁]
  dsimp only
  split
  · obtain ⟨ret, m₂, hupd, -, hm₂⟩ := hm₁.updateFits h.id h.range
    exact .access_bind hupd (.ok hm₂)
  · exact .fail _

end build

/-! ## 送る -/

/-- 送った frame から、同じ table の番号と同じ byte 列が取り出せる。 -/
theorem send_recv (h : Holds us m b) (tableId : Int32) :
    (sendUpdateBuffer tableId m >>= recvUpdateBuffer) = .ok (tableId, m) := by
  obtain ⟨cap, k, v, b₀, it, rfl, hsim, hsame⟩ := h
  have hlen := hsim.length_bytes
  have hsize : FlatBuffer.getField v.bytes .buffSize = some (Int32.ofNat (layoutSize us cap k)) := by
    rw [View.getField, hsim.field (f := .buffSize) (by decide)]
    rfl
  have hload : load v.bytes 0 (toSize (Int32.ofNat (layoutSize us cap k))).toNat = some v.bytes := by
    rw [toSize_ofNat hsim.fit, ← hlen]
    unfold load
    rw [if_pos (by omega)]
    simp
  have htype : loadInt32 (int32Bytes eprUpdateBuffer ++ int32Bytes tableId) 0
      = some eprUpdateBuffer := loadInt32_at (a := []) eprUpdateBuffer rfl
  have hid : loadInt32 (int32Bytes eprUpdateBuffer ++ int32Bytes tableId) 4 = some tableId := by
    rw [← List.append_nil (int32Bytes tableId)]
    exact loadInt32_at tableId rfl
  have hne : v.bytes ≠ [] := by
    intro hnil
    rw [hnil, layoutSize, List.length_nil] at hlen
    omega
  simp only [sendUpdateBuffer, recvUpdateBuffer, hsize, hload, htype, hid, access, bind, Except.bind,
    pure, Except.pure]
  rw [if_pos ⟨trivial, hne⟩]

/-! ## 溜める -/

section record

/-- range を記録する loop。 -/
theorem recordRanges_refines (h : Sim us cap k v b true) {fuel : Nat} (hf : b.remaining.length < fuel)
    (peers : AList fun _ : NodeId => UpdateRange) :
    Refines Eq (recordRanges fuel v.bytes peers) (Propagator.recordRanges peers b.remaining) := by
  induction fuel generalizing v b peers with
  | zero => cases hf
  | succ fuel ih =>
    rw [recordRanges]
    obtain ⟨r, v', hnext, ⟨rfl, hnone, -⟩ | ⟨id, range, b', rfl, hsome, hsim, -⟩⟩ :=
      nextNodeRange_spec h
    · obtain ⟨-, hrem⟩ | ⟨e, b', hb', -⟩ := b.nextNodeRange_cases
      · rw [hrem]
        exact .access_bind hnext (.ok rfl)
      · rw [hnone] at hb'
        cases hb'
    · obtain ⟨hb', -⟩ | ⟨e, b'', hb', hrem⟩ := b.nextNodeRange_cases
      · rw [hsome] at hb'
        cases hb'
      · obtain ⟨rfl, rfl⟩ := Prod.mk.inj (Option.some.inj (hsome.symm.trans hb'))
        rw [hrem, List.length_cons] at hf
        rw [hrem, Propagator.recordRanges]
        refine .access_bind hnext ?_
        dsimp only
        rw [show (UpdateRange.mk range.1.toInt range.2.toInt) = toRange range from rfl]
        cases Propagator.recordRange peers id.toInt (toRange range) with
        | error e => exact .fail e
        | ok peers' => exact ih hsim (by omega) peers'

/-- byte の数だけ回れば、range を読み切れる。 -/
theorem remaining_fuel (h : Sim us cap k v b it) : b.remaining.length < v.bytes.length + 1 := by
  have hbytes := h.length_bytes
  have hlen : b.remaining.length ≤ b.slots.length := by
    rw [remaining, List.length_map]
    exact ((List.takeWhile_prefix _).length_le).trans ((List.drop_sublist _ _).length_le)
  rw [h.slots, List.length_map, h.slotCount] at hlen
  rw [layoutSize] at hbytes
  omega

variable {c : NodeConfig Mem} {p : Propagator Mem} {t : TableId} {tc : TableConfig Mem}

/-- paired propagator の処理。 -/
theorem storeUpdateBuffer_refines (hus : 4 ≤ us) (htab : c.tableDir.lookup t = some tc)
    (hrun : p.state = .run) (h : Holds us m b) :
    Refines (fun x y => x = y.1.tab t ∧ y.1.state = .run) (storeUpdateBuffer tc us (p.tab t) m)
      (@Propagator.onUpdateBuffer Mem (zeroValue us) c p t b) := by
  let _ : Zero Mem := zeroValue us
  rw [storeUpdateBuffer, Propagator.onUpdateBuffer, htab]
  dsimp only
  rw [if_neg (not_not_intro hrun)]
  refine (iterUpdates_refines (readsDelta_logged hus) _ h (p.tab t).updateStore).bind
    (fun e he => by cases he) ?_
  rintro ⟨store, m₁⟩ y hy ⟨rfl, hm₁⟩
  cases hy
  obtain ⟨cap, k, v, b₀, it, rfl, hsim, hsame⟩ := hm₁
  obtain ⟨v', hstart, -, hsim'⟩ := hsim.startNodeRangeIteration
  have hrem : (specStep us k b₀ .startNodeRangeIteration).remaining = b.iterNodeRanges := by
    rw [iterNodeRanges_eq, ← hsame.slots]
    rfl
  refine .access_bind hstart ((recordRanges_refines hsim' (remaining_fuel hsim') _).bind ?_ ?_)
  · intro e he
    rw [hrem] at he
    rw [he]
  · intro peers peers' hpeers heq
    subst heq
    rw [hrem] at hpeers
    rw [hpeers]
    refine .ok ⟨?_, hrun⟩
    dsimp only
    rw [Function.update_self]

/-- 写しを順に溜める。 -/
theorem storeForward_refines (hus : 4 ≤ us) (htab : c.tableDir.lookup t = some tc)
    (hrun : p.state = .run) {forward : List Mem} {upd : List (PropagatorMsg Mem)}
    (h : List.Forall₂ (fun m msg => ∃ b, msg = .epUpdateBuffer t b ∧ Holds us m b) forward upd) :
    Refines (fun x y => x = y.tab t ∧ y.state = .run)
      (forward.foldlM (storeUpdateBuffer tc us) (p.tab t))
      (upd.foldlM (fun p msg => Prod.fst <$> @Propagator.handleUpdate Mem (zeroValue us) c p msg) p) := by
  induction h generalizing p with
  | nil => exact .ok ⟨rfl, hrun⟩
  | @cons m msg forward upd hmsg _ ih =>
    obtain ⟨b, rfl, hm⟩ := hmsg
    rw [List.foldlM_cons, List.foldlM_cons]
    refine (storeUpdateBuffer_refines hus htab hrun hm).bind ?_ ?_
    · intro e he
      have hmap : Prod.fst <$> @Propagator.handleUpdate Mem (zeroValue us) c p (.epUpdateBuffer t b)
          = .error e := congrArg (Prod.fst <$> ·) he
      rw [hmap]
      rfl
    · rintro pt ⟨p', out⟩ hp ⟨rfl, hrun'⟩
      have hmap : Prod.fst <$> @Propagator.handleUpdate Mem (zeroValue us) c p (.epUpdateBuffer t b)
          = .ok p' := congrArg (Prod.fst <$> ·) hp
      rw [hmap]
      exact ih hrun'

end record

/-! ## 一つの hop -/

theorem myBuffer_refines {a : NodeConfig Mem} {pt : PropTable Mem} {o : FlushOrder Mem}
    (h : Sized us a pt o) (loop : Bool) (fresh : Nat → UInt8) :
    Refines (Option.Rel (Holds us)) (flatMyBuffer a.myId loop us pt o fresh)
      (@myBuffer Mem (zeroValue us) a loop pt o) := by
  let _ : Zero Mem := zeroValue us
  rw [flatMyBuffer, myBuffer]
  split
  · exact (buildMyBuffer_refines h fresh).map fun _ _ hm => .some hm
  · exact .ok .none

/-- 二つの hop の後に残るものの対応。 -/
structure HopRel (us : Nat) (t : TableId) (x : FlatHop) (y : Hop Mem) : Prop where
  peers : x.peers = y.peers
  mine : Option.Rel (Holds us) x.mine y.mine
  queue : Option.Rel (List.Forall₂ (Holds us)) x.received.queue (y.receiver.myUpdates t)
  table : x.received.storage = y.storage t
  tab : x.tab = y.prop.tab t

/--
**byte 列のままの hop は、列のモデルの hop である。**

溜まっているものが `int32_t` と `int64_t` に収まり、値が 4 byte 以上で、`vsub_func` が値の大きさを変えなければ、
詰めてから先の propagator が溜めるまで、範囲の外を触らず、同じ `CHECK` に落ちるか、対応する peer の表・queue・
table・`update_store` を残す。値が 4 byte に足りないと、先の propagator の `VLOG(0)` が delta の後ろを読む。
-/
theorem flat_hop_refines {a b : NodeConfig Mem} {bId tableId : Int32} {tc : TableConfig Mem}
    {pt : PropTable Mem} {o : FlushOrder Mem} {r : Receiver Mem} {storage : TableId → Storage Mem}
    {p : Propagator Mem} {mems : Option (List Mem)} (hus : 4 ≤ us) (hsized : Sized us a pt o)
    (hid : b.myId = bId.toInt) (htab : b.tableDir.lookup tableId.toInt = some tc)
    (hvsub : ∀ x d, x.length = us → d.length = us → (tc.vsubFunc x d).length = us)
    (hr : r.state = .run) (hp : p.state = .run)
    (hq : Option.Rel (List.Forall₂ (Holds us)) mems (r.myUpdates tableId.toInt))
    (fresh : Nat → UInt8) :
    Refines (HopRel us tableId.toInt)
      (flatHop a b bId tableId tc us pt o fresh mems (storage tableId.toInt) (p.tab tableId.toInt))
      (@hop Mem (zeroValue us) a b tableId.toInt tc.loop pt o r storage p) := by
  let _ : Zero Mem := zeroValue us
  rw [flatHop, hop]
  refine (buildBuffer_refines hsized fresh).bind_bind ?_
  rintro ⟨m, peers⟩ ⟨buff, _⟩ ⟨hm, rfl⟩
  refine (myBuffer_refines hsized tc.loop fresh).bind_bind fun mine mine' hmine => ?_
  have hvsub' : ∀ itable, b.internalTable tableId.toInt = some itable →
      ∀ x d, x.length = us → d.length = us → (itable.vsubFunc x d).length = us := by
    intro itable hit
    rw [NodeConfig.internalTable, htab] at hit
    cases hit
    exact hvsub
  refine .ok_bind (send_recv hm tableId) ((receive_refines hid hvsub' hr hq hm).bind_bind ?_)
  rintro received ⟨r', storage', out⟩ hrel
  refine (storeForward_refines hus htab hp hrel.forward).bind_bind ?_
  rintro tab p' ⟨htab', -⟩
  exact .ok ⟨rfl, hmine, hrel.queue, hrel.table, htab'⟩

/-! ### `int` の table の例 -/

/-- `int` を置いた 4 byte。 -/
def word (n : Nat) : Mem := toLE 4 n

/-- `int` の足し算と引き算をする table。 -/
def wordTable : TableConfig Mem where
  vaddFunc x delta := word (ofLE x + ofLE delta)
  vsubFunc x delta := word (ofLE x + (2 ^ 32 - ofLE delta))
  loop := true
  applyUpdates := true
  forwardUpdates := true
  doUserCbk := false
  updateBuffCbk := 0

def wordNode (id peer : NodeId) : NodeConfig Mem where
  myId := id
  nanosec := 1
  downstreamRecv := peer
  expected := [peer]
  tableDir := (∅ : AList fun _ : TableId => TableConfig Mem).insert 0 wordTable

/-- node 1 の `Inc` した 3 に、node 0 が 7 を足して送る所。 -/
def relayTab : PropTable Mem where
  updateStore := (∅ : AList fun _ : Key => Mem).insert 5 (word 10)
  tablePeersUpdateRange := (∅ : AList fun _ : NodeId => UpdateRange).insert 1 { st := 0, end_ := 0 }
  myUpdateRange := { st := 0, end_ := 0 }
  myUpdateStore := (∅ : AList fun _ : Key => Mem).insert 5 (word 7)

def relayOrder : FlushOrder Mem :=
  ⟨[(5, word 10)], [(1, { st := 0, end_ := 0 })], [(5, word 7)]⟩

/-- node 1 が登録した batch。 -/
def ownBatch : UpdateBuffer Mem where
  updateCapacity := 1
  updates := [(5, word 3)]
  slots := [{ nodeId := 1, st := 0, end_ := 0 }]
  updateIter := 0
  nodeRangeIter := 0

theorem relay_sized : Sized 4 (wordNode 0 1) relayTab relayOrder where
  id := by unfold FitsInt32; decide
  size := by decide
  updates := by decide
  mine := by decide
  peers := by unfold FitsInt32 FitsInt64; decide
  range := by unfold FitsInt64; decide
  layout := by decide
  myLayout := by decide

/-- `ownBatch` を持つ byte 列がある。 -/
theorem ownBatch_holds : ∃ m, Holds 4 m ownBatch := by
  obtain ⟨m, -, hm⟩ := @create_holds 4 1 1 (by decide) (fun _ => 0) (by decide)
  obtain ⟨_, m₁, -, -, hm₁⟩ := hm.appendUpdate 5 (show (word 3).length = 4 from rfl)
  obtain ⟨_, m₂, -, -, hm₂⟩ := hm₁.updateNodeRange 1 0 0
  exact ⟨m₂, hm₂.congr ⟨by decide, by decide, by decide⟩⟩

/-- batch を一つ登録した node 1 の receiver。 -/
def ownReceiver : Receiver Mem :=
  { Receiver.start (wordNode 1 0) with myUpdates := fun _ => some [ownBatch] }

/-- node 1 が自分の 3 を引いて 7 だけを足す hop で、`flat_hop_refines` を使う。 -/
theorem flat_hop_refines_own_batch : ∃ m x, Holds 4 m ownBatch ∧
    flatHop (wordNode 0 1) (wordNode 1 0) 1 0 wordTable 4 relayTab relayOrder (fun _ => 0) (some [m])
      (fun _ => word 0) ((Propagator.start (wordNode 1 0)).tab 0) = .ok x ∧
    x.received.storage 5 = word 7 ∧ x.tab.updateStore.lookup 5 = some (word 7) := by
  obtain ⟨m, hm⟩ := ownBatch_holds
  have hhop : ((@hop Mem (zeroValue 4) (wordNode 0 1) (wordNode 1 0) 0 true relayTab relayOrder
      ownReceiver (fun _ _ => word 0) (Propagator.start (wordNode 1 0))).toOption.any fun y =>
        decide (y.storage 0 5 = word 7 ∧
          (y.prop.tab 0).updateStore.lookup 5 = some (word 7))) = true := by
    decide +kernel
  have hvsub : ∀ x d : Mem, x.length = 4 → d.length = 4 → (wordTable.vsubFunc x d).length = 4 :=
    fun _ _ _ _ => length_toLE 4 _
  have hid : (wordNode 1 0).myId = (1 : Int32).toInt := by decide
  have htab : (wordNode 1 0).tableDir.lookup (0 : Int32).toInt = some wordTable :=
    AList.lookup_insert _
  have hzero : (0 : Int32).toInt = 0 := by decide
  have hq : Option.Rel (List.Forall₂ (Holds 4)) (some [m]) (ownReceiver.myUpdates (0 : Int32).toInt) :=
    .some (.cons hm .nil)
  have hr : ownReceiver.state = .run := rfl
  have hp : (Propagator.start (wordNode 1 0)).state = .run := rfl
  have href := @flat_hop_refines 4 (wordNode 0 1) (wordNode 1 0) 1 0 wordTable relayTab relayOrder
    ownReceiver (fun _ _ => word 0) (Propagator.start (wordNode 1 0)) (some [m]) (by decide)
    relay_sized hid htab hvsub hr hp hq fun _ => 0
  rw [hzero, show wordTable.loop = true from rfl] at href
  cases hres : @hop Mem (zeroValue 4) (wordNode 0 1) (wordNode 1 0) 0 true relayTab relayOrder
      ownReceiver (fun _ _ => word 0) (Propagator.start (wordNode 1 0)) with
  | error e =>
    rw [hres] at hhop
    cases hhop
  | ok y =>
    rw [hres] at hhop href
    obtain ⟨hstorage, hstore⟩ := of_decide_eq_true hhop
    obtain ⟨x, hx, hrel⟩ := href.exists_ok
    refine ⟨m, x, hm, hx, ?_, ?_⟩
    · rw [hrel.table, hstorage]
    · rw [hrel.tab, hstore]

end QuiltDB.FlatPath
