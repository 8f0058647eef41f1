import QuiltDB.Properties.FlatSim

/-!
# byte 列は update の列を実装する

呼び出し一つの対応（`Properties/FlatSim.lean`）を、呼び出しの列についての帰納法で広げる。

* `flat_buffer_refines` — どの呼び出しの列も範囲の中だけを触り、列のモデルのとおりに答える
* `buffer_size_exact_iff` — `int32_t` の大きさと offset が正確なのは、配置が `int32_t` に収まる時に限る
-/

namespace QuiltDB.FlatBuffer

open Bytes

variable {us cap k : Nat} {s : State} {b : UpdateBuffer (List UInt8)}

/-! ## 触る範囲 -/

/--
呼び出しが触らない byte。

node range の呼び出しは、`node_range_iter_offset_` より前の header と update の領域を変えない。
update の呼び出しは、`node_range_iter_offset_` と node range の領域を変えない。
-/
structure Touches (k : Nat) (op : Op) (m m' : List UInt8) : Prop where
  header : op.onNodeRange = true → m'.take 40 = m.take 40
  updates : op.onNodeRange = true → m'.drop (44 + 20 * k) = m.drop (44 + 20 * k)
  nodeRanges : op.onNodeRange = false →
    (m'.drop 40).take (4 + 20 * k) = (m.drop 40).take (4 + 20 * k)

theorem Touches.of_node {v v' : View} {op : Op} (hop : op.onNodeRange = true)
    (hk : v.slots.length = k) (h : NodeLocal v v') : Touches k op v.bytes v'.bytes := by
  refine ⟨fun _ => h.take_bytes, fun _ => ?_, fun hf => ?_⟩
  · rw [← hk]
    exact h.drop_bytes
  · rw [hop] at hf
    cases hf

theorem Touches.of_update {v v' : View} {op : Op} (hop : op.onNodeRange = false)
    (hk : v.slots.length = k) (h : UpdateLocal v v') : Touches k op v.bytes v'.bytes := by
  refine ⟨fun hf => ?_, fun hf => ?_, fun _ => ?_⟩
  · rw [hop] at hf
    cases hf
  · rw [hop] at hf
    cases hf
  · rw [← hk]
    exact h.nodeRange_bytes

/-! ## 呼び出し一つと対応 -/

/-- 使う側の状態と列のモデルの対応。返された delta のポインタは、どれも update の delta を指す。 -/
structure Rel (us cap k : Nat) (s : State) (b : UpdateBuffer (List UInt8)) : Prop where
  view : ∃ v, s.mem = v.bytes ∧ Sim us cap k v b s.iterating
  pointers : ∀ p ∈ s.pointers, ∃ j < b.updates.length, p = deltaOffset us k j

/-- node range の書き換えは update の列に触らない。 -/
theorem applyOp_updates (b : UpdateBuffer (List UInt8)) (op : RangeOp) :
    (b.applyOp op).updates = b.updates := by
  cases op with
  | update id st end_ =>
    rw [UpdateBuffer.applyOp, UpdateBuffer.updateNodeRange]
    split
    · rfl
    · cases modifyFirst (fun s => s.nodeId == -1) _ b.slots <;> rfl
  | delete id =>
    rw [UpdateBuffer.applyOp, UpdateBuffer.deleteNodeRange]
    cases UpdateBuffer.deleteSlot id b.slots <;> rfl

/-- update は減らない。 -/
theorem length_specStep (us k : Nat) (b : UpdateBuffer (List UInt8)) (op : Op) :
    b.updates.length ≤ (specStep us k b op).updates.length := by
  cases op with
  | appendUpdate key update =>
    rw [specStep, UpdateBuffer.appendUpdate]
    split
    · exact le_rfl
    · rw [Option.getD_some, List.length_append]
      exact Nat.le_add_right _ _
  | startIteration =>
    rw [specStep, UpdateBuffer.startIteration]
    split <;> exact le_rfl
  | nextUpdate =>
    rw [specStep, UpdateBuffer.nextUpdate]
    cases b.updates[b.updateIter]? <;> exact le_rfl
  | writeDelta ptr delta =>
    rw [specStep, List.length_modify]
  | updateNodeRange id st end_ => exact (congrArg List.length (applyOp_updates b _)).ge
  | deleteNodeRange id => exact (congrArg List.length (applyOp_updates b _)).ge
  | nextNodeRange =>
    cases hget : b.slots[b.nodeRangeIter]? with
    | none =>
      have hnone : b.nextNodeRange = none := if_pos (List.getElem?_eq_none_iff.mp hget)
      rw [specStep, hnone]
      rfl
    | some s =>
      rw [specStep, nextNodeRange_at hget]
      split <;> exact le_rfl
  | getUpdate key => exact le_rfl
  | getNodeRange id => exact le_rfl
  | startNodeRangeIteration => exact le_rfl

theorem pointers_mono {ps : List Int} {n n' : Nat} (hn : n ≤ n')
    (h : ∀ p ∈ ps, ∃ j < n, p = deltaOffset us k j) : ∀ p ∈ ps, ∃ j < n', p = deltaOffset us k j := by
  intro p hp
  obtain ⟨j, hj, rfl⟩ := h p hp
  exact ⟨j, hj.trans_le hn, rfl⟩

/-- 約束を守った呼び出しは範囲の中で終わり、対応を保つ。 -/
theorem step_rel (h : Rel us cap k s b) {op : Op} (ha : Allowed us s op) :
    ∃ s', step s op = some s' ∧ Rel us cap k s' (specStep us k b op) ∧ Touches k op s.mem s'.mem := by
  obtain ⟨mem, ptrs, iterating⟩ := s
  obtain ⟨⟨v, rfl, hsim⟩, hptr⟩ := h
  have hk := hsim.slotCount
  have hptr' := pointers_mono (length_specStep us k b op) hptr
  cases op with
  | appendUpdate key update =>
    obtain ⟨v', heq, -, hloc, hsim'⟩ := hsim.appendUpdate key ha
    refine ⟨⟨v'.bytes, ptrs, iterating⟩, ?_, ⟨⟨v', rfl, hsim'⟩, hptr'⟩, Touches.of_update rfl hk hloc⟩
    rw [step, heq]
    rfl
  | startIteration =>
    obtain ⟨r, v', heq, hloc, hsim', -, -⟩ := hsim.startIteration
    refine ⟨⟨v'.bytes, ptrs, iterating⟩, ?_, ⟨⟨v', rfl, hsim'⟩, hptr'⟩, Touches.of_update rfl hk hloc⟩
    rw [step, heq]
    rfl
  | nextUpdate =>
    obtain ⟨v', heq, hloc, hsim'⟩ := hsim.nextUpdate
    generalize hr : Option.map _ _ = r at heq
    refine ⟨⟨v'.bytes, (r.map Prod.snd).toList ++ ptrs, iterating⟩, ?_, ⟨⟨v', rfl, hsim'⟩, ?_⟩,
      Touches.of_update rfl hk hloc⟩
    · rw [step, heq]
      rfl
    · intro p hp
      rcases List.mem_append.mp hp with hp | hp
      · -- 返されたポインタは iterator の指していた update を指す
        rw [← hr, Option.map_map, Option.mem_toList, Option.map_eq_some_iff] at hp
        obtain ⟨kv, hkv, rfl⟩ := hp
        have hlt := (List.getElem?_eq_some_iff.mp hkv).1
        exact ⟨b.updateIter, hlt.trans_le (length_specStep us k b _), rfl⟩
      · exact hptr' p hp
  | getUpdate key =>
    have heq := hsim.getUpdate key
    generalize hr : Option.map _ _ = r at heq
    refine ⟨⟨v.bytes, r.toList ++ ptrs, iterating⟩, ?_, ⟨⟨v, rfl, hsim⟩, ?_⟩,
      Touches.of_update rfl hk (UpdateLocal.refl v)⟩
    · rw [step, heq]
      rfl
    · intro p hp
      rcases List.mem_append.mp hp with hp | hp
      · rw [← hr, Option.mem_toList, Option.map_eq_some_iff] at hp
        obtain ⟨j, hj, rfl⟩ := hp
        exact ⟨j, (List.findIdx?_eq_some_iff_findIdx_eq.mp hj).1, rfl⟩
      · exact hptr' p hp
  | writeDelta ptr delta =>
    obtain ⟨hmem, hlen⟩ := ha
    obtain ⟨j, hj, rfl⟩ := hptr ptr hmem
    obtain ⟨v', heq, hloc, hsim'⟩ := hsim.writeDelta hj hlen
    refine ⟨⟨v'.bytes, ptrs, iterating⟩, ?_, ⟨⟨v', rfl, hsim'⟩, hptr'⟩, Touches.of_update rfl hk hloc⟩
    rw [step, heq]
    rfl
  | updateNodeRange id st end_ =>
    obtain ⟨v', heq, hloc, hsim'⟩ := hsim.updateNodeRange id st end_
    refine ⟨⟨v'.bytes, ptrs, iterating⟩, ?_, ⟨⟨v', rfl, hsim'⟩, hptr'⟩, Touches.of_node rfl hk hloc⟩
    rw [step, heq]
    rfl
  | deleteNodeRange id =>
    obtain ⟨v', heq, hloc, hsim'⟩ := hsim.deleteNodeRange id
    refine ⟨⟨v'.bytes, ptrs, iterating⟩, ?_, ⟨⟨v', rfl, hsim'⟩, hptr'⟩, Touches.of_node rfl hk hloc⟩
    rw [step, heq]
    rfl
  | getNodeRange id =>
    obtain ⟨r, heq, -⟩ := hsim.getNodeRange id
    refine ⟨⟨v.bytes, ptrs, iterating⟩, ?_, ⟨⟨v, rfl, hsim⟩, hptr⟩, Touches.of_node rfl hk (NodeLocal.refl v)⟩
    rw [step, heq]
    rfl
  | startNodeRangeIteration =>
    obtain ⟨v', heq, hloc, hsim'⟩ := hsim.startNodeRangeIteration
    refine ⟨⟨v'.bytes, ptrs, true⟩, ?_, ⟨⟨v', rfl, hsim'⟩, hptr'⟩,
      Touches.of_node rfl hk hloc⟩
    rw [step, heq]
    rfl
  | nextNodeRange =>
    have hit : iterating = true := ha
    subst hit
    obtain ⟨r, v', heq, -, hloc, hsim'⟩ := hsim.nextNodeRange
    refine ⟨⟨v'.bytes, ptrs, true⟩, ?_, ⟨⟨v', rfl, hsim'⟩, hptr'⟩, Touches.of_node rfl hk hloc⟩
    rw [step, heq]
    rfl

/-- 約束を守った呼び出しの列は、範囲の中で終わり、対応を保つ。 -/
theorem run_rel (h : Rel us cap k s b) {ops : List Op} (hl : Legal us s ops) :
    ∃ s', run s ops = some s' ∧ Rel us cap k s' (ops.foldl (specStep us k) b) := by
  induction ops generalizing s b with
  | nil => exact ⟨s, rfl, h⟩
  | cons op ops ih =>
    obtain ⟨ha, hrest⟩ := hl
    obtain ⟨s₁, hstep, hrel, -⟩ := step_rel h ha
    rw [hstep] at hrest
    obtain ⟨s₂, hrun, hrel₂⟩ := ih hrel hrest
    refine ⟨s₂, ?_, hrel₂⟩
    rw [run, hstep]
    exact hrun

/-! ## 列のモデルのとおりに答える -/

/-- `StartIteration` から `NULL` まで読むと、残りの update がそのまま得られる。 -/
theorem Sim.drainUpdates {v : View} {it : Bool} (h : Sim us cap k v b it) {fuel : Nat}
    (hf : b.updates.length < fuel + b.updateIter) :
    FlatBuffer.drainUpdates us fuel v.bytes = some (b.updates.drop b.updateIter) := by
  induction fuel generalizing v b with
  | zero =>
    have hiter := h.iter
    omega
  | succ fuel ih =>
    obtain ⟨v', heq, -, hsim'⟩ := h.nextUpdate
    rw [FlatBuffer.drainUpdates, heq]
    cases hget : b.updates[b.updateIter]? with
    | none =>
      rw [List.drop_eq_nil_of_le (List.getElem?_eq_none_iff.mp hget)]
      rfl
    | some kv =>
      obtain ⟨hlt, hkv⟩ := List.getElem?_eq_some_iff.mp hget
      have hnext : specStep us k b .nextUpdate = { b with updateIter := b.updateIter + 1 } := by
        rw [specStep, UpdateBuffer.nextUpdate, hget]
        rfl
      rw [hnext] at hsim'
      have hload := hsim'.loadDelta (j := b.updateIter) hget
      have hrest := ih hsim' (show b.updates.length < fuel + (b.updateIter + 1) by omega)
      simp only [bind, Option.bind_some, Option.map_some]
      rw [hload, Option.bind_some, hrest, Option.bind_some, List.drop_eq_getElem_cons hlt, hkv]
      rfl

/-- byte 列の状態 `s` が、列のモデルの buffer `b` のとおりに振る舞う。 -/
structure FlatRefines (us cap k : Nat) (s : State) (b : UpdateBuffer (List UInt8)) : Prop where
  /-- byte 列の長さが `buff_size_` である。 -/
  size : s.mem.length = layoutSize us cap k ∧
    getField s.mem .buffSize = some (Int32.ofNat (layoutSize us cap k))
  /-- 約束を守った次の呼び出しは、`[0, buff_size_)` の外を読み書きしない。 -/
  inBounds : ∀ op, Allowed us s op → (step s op).isSome = true
  /-- node range の呼び出しと update の呼び出しは、互いの領域に触らない。 -/
  touches : ∀ op s', Allowed us s op → step s op = some s' → Touches k op s.mem s'.mem
  /-- `StartIteration` の後に `NextUpdate` を呼び続けると、今の update が順に得られて `NULL` になる。 -/
  iteration : ∃ r m, startIteration s.mem = some (r, m) ∧
    ∀ fuel, b.updates.length < fuel → drainUpdates us fuel m = some b.updates
  /-- `NextUpdate` は iterator の指す update の key とポインタを返す。 -/
  next : ∃ m, nextUpdate s.mem
    = some ((b.updates[b.updateIter]?).map fun kv => (kv.1, deltaOffset us k b.updateIter), m)
  /-- ポインタの先には今の delta がある。 -/
  current : ∀ j kv, b.updates[j]? = some kv → load s.mem (deltaOffset us k j) us = some kv.2
  /-- `GetUpdate` は、その key を持つ最初の update を返し、無ければ `NULL` を返す。 -/
  lookup : ∀ key, getUpdate s.mem key
    = some ((b.updates.findIdx? fun kv => kv.1 == key).map (deltaOffset us k))
  /-- `AppendUpdate` が `-1` を返すのは一杯の時に限り、その時は何も変えない。 -/
  append : ∀ key delta, delta.length = us → ∃ r m, appendUpdate s.mem key delta = some (r, m) ∧
    (r = -1 ↔ b.updates.length = cap) ∧ (r = -1 → m = s.mem)
  /-- `UpdateNodeRange` と `DeleteNodeRange` の返り値。 -/
  rangeUpdate : ∀ id st end_, ∃ m, updateNodeRange s.mem id st end_
    = some (if b.returnsZero (.update id.toInt st.toInt end_.toInt) then 0 else -1, m)
  rangeDelete : ∀ id, ∃ m, deleteNodeRange s.mem id
    = some (if b.returnsZero (.delete id.toInt) then 0 else -1, m)
  rangeGet : ∀ id, ∃ r, getNodeRange s.mem id = some r ∧ b.getNodeRange id.toInt = r.map toRange
  rangeNext : s.iterating = true → ∃ r m, nextNodeRange s.mem = some (r, m) ∧
    b.nextNodeRange.map Prod.fst = r.map fun x => (x.1.toInt, toRange x.2)

theorem Rel.refines (h : Rel us cap k s b) : FlatRefines us cap k s b := by
  have hrel := h
  obtain ⟨⟨v, hv, hsim⟩, -⟩ := h
  constructor
  case size =>
    rw [hv, hsim.length_bytes, View.getField, hsim.field (by decide)]
    exact ⟨rfl, rfl⟩
  case inBounds =>
    intro op ha
    obtain ⟨s', hs', -⟩ := step_rel hrel ha
    rw [hs']
    rfl
  case touches =>
    intro op s' ha hs'
    obtain ⟨s'', hs'', -, ht⟩ := step_rel hrel ha
    rw [hs', Option.some.injEq] at hs''
    rw [hs'']
    exact ht
  case iteration =>
    obtain ⟨r, v', heq, -, hsim', hzero, hupd⟩ := hsim.startIteration
    refine ⟨r, v'.bytes, by rw [hv, heq], fun fuel hf => ?_⟩
    rw [hsim'.drainUpdates (by rw [hupd, hzero]; omega), hzero, hupd, List.drop_zero]
  case next =>
    obtain ⟨v', heq, -⟩ := hsim.nextUpdate
    exact ⟨v'.bytes, by rw [hv, heq]⟩
  case current =>
    intro j kv hj
    rw [hv, hsim.loadDelta hj]
  case lookup =>
    intro key
    rw [hv, hsim.getUpdate]
  case append =>
    intro key delta hd
    obtain ⟨v', heq, hsame, -⟩ := hsim.appendUpdate key hd
    refine ⟨_, v'.bytes, by rw [hv, heq], ?_, ?_⟩
    · split
      · next hfull => exact iff_of_true rfl hfull
      · next hfull => exact iff_of_false (by decide) hfull
    · split
      · next hfull =>
        rw [hsame hfull, hv]
        exact fun _ => rfl
      · exact fun hc => absurd hc (by decide)
  case rangeUpdate =>
    intro id st end_
    obtain ⟨v', heq, -⟩ := hsim.updateNodeRange id st end_
    exact ⟨v'.bytes, by rw [hv, heq]⟩
  case rangeDelete =>
    intro id
    obtain ⟨v', heq, -⟩ := hsim.deleteNodeRange id
    exact ⟨v'.bytes, by rw [hv, heq]⟩
  case rangeGet =>
    intro id
    rw [hv]
    exact hsim.getNodeRange id
  case rangeNext =>
    intro hit
    rw [hit] at hsim
    obtain ⟨r, v', heq, hr, -⟩ := hsim.nextNodeRange
    exact ⟨r, v'.bytes, by rw [hv, heq], hr⟩

/-- 生成の直後の状態。 -/
def fresh (m : List UInt8) : State := { mem := m, pointers := [], iterating := false }

theorem exists_ofNat {v : Int32} (h : 0 ≤ v) : ∃ n, n < 2 ^ 31 ∧ v = Int32.ofNat n ∧ v.toInt.toNat = n :=
  ⟨v.toInt.toNat, v.toNatClampNeg_lt, (Int32.ofNat_toNatClampNeg v h).symm, rfl⟩

/--
**負でない大きさで作り、正確な配置が `int32_t` に収まる buffer は、約束を守ったどの呼び出しの列の
後でも、範囲の中だけを触り、互いの領域に触らず、update の列のとおりに答える。**
-/
theorem flat_buffer_refines (updateSize updateCapacity nodeRangeCapacity : Int32)
    (hus : 0 ≤ updateSize) (hcap : 0 ≤ updateCapacity) (hk : 0 ≤ nodeRangeCapacity)
    (hfit : layoutSize updateSize.toInt.toNat updateCapacity.toInt.toNat
      nodeRangeCapacity.toInt.toNat < 2 ^ 31) (content : Nat → UInt8) :
    ∃ m, createUpdateBuffer updateSize updateCapacity nodeRangeCapacity content = some m ∧
      ∀ ops, Legal updateSize.toInt.toNat (fresh m) ops →
        ∃ s, run (fresh m) ops = some s ∧
          FlatRefines updateSize.toInt.toNat updateCapacity.toInt.toNat nodeRangeCapacity.toInt.toNat s
            (ops.foldl (specStep updateSize.toInt.toNat nodeRangeCapacity.toInt.toNat)
              (UpdateBuffer.createUpdateBuffer updateCapacity.toInt.toNat
                nodeRangeCapacity.toInt.toNat)) := by
  obtain ⟨us, husLt, rfl, husEq⟩ := exists_ofNat hus
  obtain ⟨cap, -, rfl, hcapEq⟩ := exists_ofNat hcap
  obtain ⟨k, -, rfl, hkEq⟩ := exists_ofNat hk
  rw [husEq, hcapEq, hkEq] at hfit ⊢
  obtain ⟨v, hv, hsim⟩ := createUpdateBuffer_sim hfit husLt content
  refine ⟨v.bytes, hv, fun ops hl => ?_⟩
  have hrel : Rel us cap k (fresh v.bytes) (UpdateBuffer.createUpdateBuffer cap k) :=
    ⟨⟨v, rfl, hsim⟩, by rintro _ ⟨⟩⟩
  obtain ⟨s, hrun, hs⟩ := run_rel hrel hl
  exact ⟨s, hrun, hs.refines⟩

/-- 二つの update を入れ、途中で delta を書き換え、node range も使う列。 -/
theorem flat_buffer_refines_two_updates :
    ∃ m s, createUpdateBuffer 2 2 1 (fun _ => 7) = some m ∧
      run (fresh m) [.appendUpdate 5 [1, 2], .startIteration, .nextUpdate, .updateNodeRange 3 0 1,
        .writeDelta 72 [3, 4], .startNodeRangeIteration, .nextNodeRange, .deleteNodeRange 3,
        .appendUpdate 6 [5, 6], .getUpdate 6, .appendUpdate 7 [0, 0]] = some s ∧
      FlatRefines 2 2 1 s
        { updateCapacity := 2, updates := [(5, [3, 4]), (6, [5, 6])], slots := [⟨-1, 0, 1⟩],
          updateIter := 1, nodeRangeIter := 1 } := by
  obtain ⟨m, hm, h⟩ := flat_buffer_refines 2 2 1 (by decide) (by decide) (by decide) (by decide)
    fun _ => 7
  have hmem : m = (createUpdateBuffer 2 2 1 fun _ => 7).getD [] := by
    rw [hm]
    rfl
  obtain ⟨s, hrun, hs⟩ := h [.appendUpdate 5 [1, 2], .startIteration, .nextUpdate,
    .updateNodeRange 3 0 1, .writeDelta 72 [3, 4], .startNodeRangeIteration, .nextNodeRange,
    .deleteNodeRange 3, .appendUpdate 6 [5, 6], .getUpdate 6, .appendUpdate 7 [0, 0]] (by
      rw [hmem]
      decide +kernel)
  exact ⟨m, s, hm, hrun, hs⟩

/-! ## 大きさと offset -/

/-- 溜まった update を全て入れることは、列のモデルで順に足すことに当たる。 -/
theorem Sim.appendAll {v : View} {it : Bool} (h : Sim us cap k v b it)
    {pending : List (Key × List UInt8)} (hlen : b.updates.length + pending.length ≤ cap)
    (hd : ∀ kv ∈ pending, kv.2.length = us) :
    ∃ v', FlatBuffer.appendAll v.bytes pending = some v'.bytes ∧
      Sim us cap k v' { b with updates := b.updates ++ pending } it := by
  induction pending generalizing v b with
  | nil =>
    refine ⟨v, rfl, ?_⟩
    rw [List.append_nil]
    exact h
  | cons kv pending ih =>
    rw [List.length_cons] at hlen
    have hlt : b.updates.length < cap := by omega
    have hkv := hd kv List.mem_cons_self
    have hlen' : (b.updates ++ [kv]).length + pending.length ≤ cap := by
      rw [List.length_append, List.length_singleton]
      omega
    obtain ⟨v', heq, hsim⟩ := ih (h.append hlt kv.1 hkv) hlen'
      fun x hx => hd x (List.mem_cons_of_mem _ hx)
    refine ⟨v', ?_, ?_⟩
    · rw [FlatBuffer.appendAll, h.appendUpdate_bytes hlt kv.1 hkv]
      exact heq
    · rw [List.append_cons]
      exact hsim

/--
timer の枝が作る buffer の大きさと offset が正確である。

`covers` は、確保した `buff_size_` byte が、constructor と `AppendUpdate` の書く byte を全て
含むことを言う。
-/
structure SizesExact (updateSize updateCapacity nodeRangeCapacity : Int32) : Prop where
  buffSize : (getBuffSize updateSize updateCapacity nodeRangeCapacity).toInt =
    layoutSize updateSize.toInt.toNat updateCapacity.toInt.toNat nodeRangeCapacity.toInt.toNat
  updateSt : (updateStOffset nodeRangeCapacity).toInt =
    updateOffset updateSize.toInt.toNat nodeRangeCapacity.toInt.toNat 0
  updateEnd : ((fun o => advance o updateSize)^[updateCapacity.toInt.toNat]
      (updateStOffset nodeRangeCapacity)).toInt =
    updateOffset updateSize.toInt.toNat nodeRangeCapacity.toInt.toNat updateCapacity.toInt.toNat
  covers : ∀ content pending, pending.length = updateCapacity.toInt.toNat →
    (∀ kv ∈ pending, kv.2.length = updateSize.toInt.toNat) →
    ∃ m m', createUpdateBuffer updateSize updateCapacity nodeRangeCapacity content = some m ∧
      appendAll m pending = some m'

theorem advance_iterate (us k n : Nat) :
    (fun o => advance o (Int32.ofNat us))^[n] (Int32.ofNat (updateOffset us k 0))
      = Int32.ofNat (updateOffset us k n) := by
  induction n with
  | zero => rfl
  | succ n ih => rw [Function.iterate_succ_apply', ih, advance_ofNat, updateOffset_succ]

/--
**負でない `int32_t` のどの大きさについても、`GetBuffSize` と offset が正確で、確保した byte 列が
書かれる byte を全て含むのは、正確な配置の大きさが `2 ^ 31` 未満の時で、その時に限る。**
-/
theorem buffer_size_exact_iff (updateSize updateCapacity nodeRangeCapacity : Int32)
    (hus : 0 ≤ updateSize) (hcap : 0 ≤ updateCapacity) (hk : 0 ≤ nodeRangeCapacity) :
    SizesExact updateSize updateCapacity nodeRangeCapacity ↔
      layoutSize updateSize.toInt.toNat updateCapacity.toInt.toNat nodeRangeCapacity.toInt.toNat
        < 2 ^ 31 := by
  constructor
  · intro h
    have hlt := (getBuffSize updateSize updateCapacity nodeRangeCapacity).toInt_lt
    rw [h.buffSize] at hlt
    exact_mod_cast hlt
  · obtain ⟨us, husLt, rfl, husEq⟩ := exists_ofNat hus
    obtain ⟨cap, -, rfl, hcapEq⟩ := exists_ofNat hcap
    obtain ⟨k, -, rfl, hkEq⟩ := exists_ofNat hk
    rw [husEq, hcapEq, hkEq]
    intro hfit
    have hoff0 : updateOffset us k 0 < 2 ^ 31 :=
      lt_of_le_of_lt (updateOffset_le (Nat.zero_le cap)) hfit
    have hst : updateStOffset (Int32.ofNat k) = Int32.ofNat (updateOffset us k 0) := by
      rw [updateStOffset_ofNat, updateOffset, Nat.zero_mul, Nat.add_zero]
    constructor
    case buffSize =>
      rw [husEq, hcapEq, hkEq, getBuffSize_ofNat, Int32.toInt_ofNat_of_lt hfit]
    case updateSt => rw [husEq, hkEq, hst, Int32.toInt_ofNat_of_lt hoff0]
    case updateEnd =>
      rw [husEq, hcapEq, hkEq, hst, advance_iterate]
      exact Int32.toInt_ofNat_of_lt hfit
    case covers =>
      rw [husEq, hcapEq]
      intro content pending hlen hd
      obtain ⟨v, hv, hsim⟩ := createUpdateBuffer_sim hfit husLt content
      obtain ⟨v', hv', -⟩ := hsim.appendAll (by rw [hlen]; exact (Nat.zero_add cap).le) hd
      exact ⟨v.bytes, v'.bytes, hv, hv'⟩

/-- 三つの 4 byte の update と二つの node range の buffer。 -/
theorem buffer_size_exact_small : SizesExact 4 3 2 :=
  (buffer_size_exact_iff 4 3 2 (by decide) (by decide) (by decide)).mpr (by decide)

/-- 1 MiB の update が 4096 個あると、`GetBuffSize` は折り返して 32832 byte だけを確保する。 -/
theorem buffer_size_wraps : ¬SizesExact 1048576 4096 1 := by
  intro h
  exact absurd h.buffSize (by decide +kernel)

end QuiltDB.FlatBuffer
