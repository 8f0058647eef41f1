import QuiltDB.Properties.Batches
import QuiltDB.Properties.Contents

/-!
# 受け取った update の扱い

receiver は `EPRUpdateBuffer` の buffer から自分の update を除き、残りを table に足し、paired
propagator に渡し、user の callback に渡す。

自分の range が queue の先頭の batch をいくつかつないだものである時、除去の do-while loop は
引いた batch の `end_` を `seq_num` に残し、次の batch の `st_` と比べる。
続きの batch の `st_` は `end_ + 1` なので、二つ目の batch で必ず `CHECK_EQ` が落ちる。

callback は `InternalTable` の constructor が写さないので、呼ぶ設定の table では未定義動作になる。
-/

namespace QuiltDB

open Segments Totals

variable {V : Type}

/-- 受け取った自分の range が、queue の先頭の batch を順につないだものである。 -/
structure CoversBatches (myId : NodeId) (recvRange : UpdateRange)
    (batches : List (UpdateBuffer V)) : Prop where
  nonempty : batches ≠ []
  /-- 登録される batch は update を一つは持つ。 -/
  updates : ∀ q ∈ batches, q.updates ≠ []
  ranges : ∃ rs : List UpdateRange, batches.map (fun q => q.getNodeRange myId) = rs.map some ∧
    Chain (· = ·) recvRange.st (rs.map UpdateRange.seg) (recvRange.end_ + 1)

/--
`b` から `batches` の update と自分の range を除いたものが `b'` である。
値は `vsub_func_` で一つずつ引く。
-/
structure RemovedBy (vsub : V → V → V) (myId : NodeId) (batches : List (UpdateBuffer V))
    (b b' : UpdateBuffer V) : Prop where
  keys : b'.updates.map Prod.fst = b.updates.map Prod.fst
  deltas : ∀ key, b'.getUpdate key
    = (b.getUpdate key).map fun x => (valuesAt (batches.flatMap fun q => q.updates) key).foldl vsub x
  mine : b'.getNodeRange myId = none
  others : ∀ id, 0 ≤ id → id ≠ myId → b'.getNodeRange id = b.getNodeRange id

namespace Receiver

/-- 先頭の batch の四つの検査が通る時の一回り。 -/
theorem removeMyUpdates_cons {myId : NodeId} {vsub : V → V → V} {recvRange myRange : UpdateRange}
    {q : UpdateBuffer V} {queue : List (UpdateBuffer V)} {b b₁ : UpdateBuffer V}
    (hr : q.getNodeRange myId = some myRange) (hcont : recvRange.contains myRange = true)
    (hne : q.updates ≠ []) (hsub : subtractUpdates vsub b q.updates = .ok b₁) :
    removeMyUpdates myId vsub recvRange (q :: queue) myRange.st b
      = if myRange.end_ < recvRange.end_ then
          removeMyUpdates myId vsub recvRange queue myRange.end_ b₁
        else .ok (queue, b₁) := by
  have hlen : q.updates.length ≠ 0 := fun h => hne (List.length_eq_zero_iff.mp h)
  have hdrain : UpdateBuffer.drainUpdates (q.updates.length + 1) { q with updateIter := 0 }
      = q.updates := by
    rw [UpdateBuffer.drainUpdates_eq (by simp)]
    exact List.drop_zero
  have hc : ¬(!recvRange.contains myRange) = true := by
    rw [hcont]
    decide
  rw [removeMyUpdates, hr]
  dsimp only
  rw [if_neg hc, if_neg (not_not.mpr rfl), UpdateBuffer.startIteration, if_neg hlen]
  dsimp only
  rw [hdrain, hsub]

/-- 続きの batch の `st_` は `seq_num` と合わない。 -/
theorem removeMyUpdates_next {myId : NodeId} {vsub : V → V → V} {recvRange myRange : UpdateRange}
    {q : UpdateBuffer V} {queue : List (UpdateBuffer V)} {b : UpdateBuffer V} {seqNum : Int}
    (hr : q.getNodeRange myId = some myRange) (hcont : recvRange.contains myRange = true)
    (hseq : myRange.st ≠ seqNum) :
    removeMyUpdates myId vsub recvRange (q :: queue) seqNum b = .error .seqNumMismatch := by
  have hc : ¬(!recvRange.contains myRange) = true := by
    rw [hcont]
    decide
  rw [removeMyUpdates, hr]
  dsimp only
  rw [if_neg hc, if_pos hseq]

/-- 自分の range を持つ buffer の除去は、loop の結果で決まる。 -/
theorem dedup_of_range {c : NodeConfig V} {r : Receiver V} {t : TableId} {it : InternalTable V}
    {b : UpdateBuffer V} {recvRange : UpdateRange} {queue : List (UpdateBuffer V)}
    (hrange : b.getNodeRange c.myId = some recvRange) (hq : r.myUpdates t = some queue) :
    dedup c r t it b
      = (removeMyUpdates c.myId it.vsubFunc recvRange queue recvRange.st b).map fun res =>
          ({ r with myUpdates := Function.update r.myUpdates t (some res.1) },
            (res.2.deleteNodeRange c.myId).getD res.2) := by
  rw [dedup, hrange]
  dsimp only
  rw [hq]
  dsimp only
  cases removeMyUpdates c.myId it.vsubFunc recvRange queue recvRange.st b with
  | error e => rfl
  | ok res => rfl

end Receiver

section removal

variable {c : NodeConfig V} {r : Receiver V} {t : TableId} {it : InternalTable V}
  {b : UpdateBuffer V} {rs : List (NodeId × UpdateRange)} {k : Nat} {recvRange : UpdateRange}
  {batches rest : List (UpdateBuffer V)}

/-- 一つの batch がそのまま戻ってきたなら、それだけを除く。 -/
theorem dedup_one_batch {q : UpdateBuffer V} (hid : 0 ≤ c.myId) (hb : b.Packed rs k)
    (hrange : b.getNodeRange c.myId = some recvRange) (hq : r.myUpdates t = some (q :: rest))
    (hqr : q.getNodeRange c.myId = some recvRange) (hne : q.updates ≠ [])
    (hkeys : ∀ kv ∈ q.updates, kv.1 ∈ b.updates.map Prod.fst) :
    ∃ b', Receiver.dedup c r t it b
        = .ok ({ r with myUpdates := Function.update r.myUpdates t (some rest) }, b') ∧
      RemovedBy it.vsubFunc c.myId [q] b b' := by
  obtain ⟨b₁, hsub⟩ := Receiver.subtractUpdates_ok it.vsubFunc hkeys
  obtain ⟨hk, hd⟩ := Receiver.subtractUpdates_spec hsub
  have hcont : recvRange.contains recvRange = true := by simp [UpdateRange.contains]
  -- 引いても slot は変わらないので、引いた後の buffer も詰まっている
  obtain ⟨pre, post, hrs⟩ := List.append_of_mem (hb.getNodeRange_some hid hrange)
  have hslots := (Receiver.subtractUpdates_frame hsub).1
  have hb₁ : b₁.Packed (pre ++ (c.myId, recvRange) :: post) k := by
    rw [← hrs]
    exact ⟨hslots.trans hb.slots, hb.nonneg, hb.nodup⟩
  have hdel := hb₁.deleteNodeRange_eq
  have hget : ∀ id, b₁.getNodeRange id = b.getNodeRange id := by
    intro id
    rw [UpdateBuffer.getNodeRange, hslots, UpdateBuffer.getNodeRange]
  refine ⟨(b₁.deleteNodeRange c.myId).getD b₁, ?_, ?_⟩
  · rw [Receiver.dedup_of_range hrange hq, Receiver.removeMyUpdates_cons hqr hcont hne hsub,
      if_neg (lt_irrefl _)]
    rfl
  · rw [hdel, Option.getD_some]
    refine ⟨hk, fun key => ?_, ?_, fun id h0 hne => ?_⟩
    · rw [List.flatMap_singleton]
      exact hd key
    · rw [hb₁.getNodeRange_deleteNodeRange hdel hid, if_pos rfl]
    · rw [hb₁.getNodeRange_deleteNodeRange hdel h0, if_neg hne, hget]

/-- 二つ以上の batch がつながって戻ってきたなら、二つ目の `CHECK_EQ` で落ちる。 -/
theorem dedup_two_batches {q₁ q₂ : UpdateBuffer V} {queue : List (UpdateBuffer V)}
    (hrange : b.getNodeRange c.myId = some recvRange)
    (hq : r.myUpdates t = some (q₁ :: q₂ :: queue)) (hne : q₁.updates ≠ [])
    (hkeys : ∀ kv ∈ q₁.updates, kv.1 ∈ b.updates.map Prod.fst) {r₁ r₂ : UpdateRange}
    (h1 : q₁.getNodeRange c.myId = some r₁) (h2 : q₂.getNodeRange c.myId = some r₂)
    (hst : r₁.st = recvRange.st) (hnext : r₂.st = r₁.end_ + 1) (hpos₁ : r₁.st ≤ r₁.end_)
    (hpos₂ : r₂.st ≤ r₂.end_) (hend : r₂.end_ ≤ recvRange.end_) :
    Receiver.dedup c r t it b = .error .seqNumMismatch := by
  obtain ⟨b₁, hsub⟩ := Receiver.subtractUpdates_ok it.vsubFunc hkeys
  have hcont₁ : recvRange.contains r₁ = true := by
    simp only [UpdateRange.contains, Bool.and_eq_true, decide_eq_true_eq]
    omega
  have hcont₂ : recvRange.contains r₂ = true := by
    simp only [UpdateRange.contains, Bool.and_eq_true, decide_eq_true_eq]
    omega
  rw [Receiver.dedup_of_range hrange hq, ← hst,
    Receiver.removeMyUpdates_cons h1 hcont₁ hne hsub, if_pos (by omega),
    Receiver.removeMyUpdates_next h2 hcont₂ (by omega)]
  rfl

variable (it) in
/-- つながった batch が一つならそれだけを除き、二つ以上なら落ちる。 -/
theorem dedup_of_covers (hid : 0 ≤ c.myId) (hb : b.Packed rs k)
    (hrange : b.getNodeRange c.myId = some recvRange) (hq : r.myUpdates t = some (batches ++ rest))
    (hcov : CoversBatches c.myId recvRange batches)
    (hkeys : ∀ q ∈ batches, ∀ kv ∈ q.updates, kv.1 ∈ b.updates.map Prod.fst) :
    (batches.length = 1 ∧ ∃ b', Receiver.dedup c r t it b
        = .ok ({ r with myUpdates := Function.update r.myUpdates t (some rest) }, b') ∧
      RemovedBy it.vsubFunc c.myId batches b b') ∨
    (1 < batches.length ∧ Receiver.dedup c r t it b = .error .seqNumMismatch) := by
  obtain ⟨rngs, hrngs, hchain⟩ := hcov.ranges
  rcases batches with _ | ⟨q₁, _ | ⟨q₂, qs⟩⟩
  · exact absurd rfl hcov.nonempty
  · left
    obtain ⟨r₁, rfl, h1⟩ : ∃ r₁, rngs = [r₁] ∧ q₁.getNodeRange c.myId = some r₁ := by
      obtain ⟨r₁, l, rfl, h1, hl⟩ := List.map_eq_cons_iff.mp hrngs.symm
      exact ⟨r₁, by rw [List.map_eq_nil_iff.mp hl], h1.symm⟩
    obtain ⟨hst, -, hend⟩ := hchain
    have hr : r₁ = recvRange := by
      cases r₁
      cases recvRange
      simp only [UpdateRange.seg, List.map_nil, chain_nil, add_left_inj] at hst hend
      rw [hst, hend]
    rw [hr] at h1
    exact ⟨rfl, dedup_one_batch hid hb hrange hq h1 (hcov.updates q₁ List.mem_cons_self)
      (hkeys q₁ List.mem_cons_self)⟩
  · right
    obtain ⟨r₁, r₂, rs', rfl, h1, h2⟩ : ∃ r₁ r₂ rs', rngs = r₁ :: r₂ :: rs' ∧
        q₁.getNodeRange c.myId = some r₁ ∧ q₂.getNodeRange c.myId = some r₂ := by
      obtain ⟨r₁, l, rfl, h1, hl⟩ := List.map_eq_cons_iff.mp hrngs.symm
      obtain ⟨r₂, l', rfl, h2, -⟩ := List.map_eq_cons_iff.mp hl
      exact ⟨r₁, r₂, l', rfl, h1.symm, h2.symm⟩
    obtain ⟨hst, hpos₁, hnext, hpos₂, hrest⟩ := hchain
    have hle := hrest.eq_le.le
    simp only [UpdateRange.seg] at hst hpos₁ hnext hpos₂ hle
    refine ⟨by simp, ?_⟩
    exact dedup_two_batches hrange hq (hcov.updates q₁ List.mem_cons_self)
      (hkeys q₁ List.mem_cons_self) h1 h2 hst.symm hnext.symm (by omega) (by omega) (by omega)

end removal

/-! ## 三つの動作 -/

section actions

variable {c : NodeConfig V} {storage : TableId → Storage V} {r : Receiver V} {t : TableId}
  {tc : TableConfig V} {b : UpdateBuffer V} {rs : List (NodeId × UpdateRange)} {k : Nat}
  {batches rest : List (UpdateBuffer V)}

end actions

/-! ## 値が群をなす場合 -/

section group

variable [AddCommGroup V] {c : NodeConfig V} {r : Receiver V} {t : TableId} {it : InternalTable V}
  {b : UpdateBuffer V} {rs : List (NodeId × UpdateRange)} {k : Nat} {recvRange : UpdateRange}
  {batches rest : List (UpdateBuffer V)}

/-- `b` から `batches` の update の和と自分の range を除いたものが `b'` である。 -/
structure Removed (myId : NodeId) (batches : List (UpdateBuffer V)) (b b' : UpdateBuffer V) :
    Prop where
  keys : b'.updates.map Prod.fst = b.updates.map Prod.fst
  deltas : ∀ key, b'.getUpdate key
    = (b.getUpdate key).map fun x => x - (batches.map fun q => total q.updates key).sum
  mine : b'.getNodeRange myId = none
  others : ∀ id, 0 ≤ id → id ≠ myId → b'.getNodeRange id = b.getNodeRange id

/-- 除去の loop は落ちずに終わり、`batches` だけを queue から取って、その分だけを除く。 -/
def RemovesBatches (c : NodeConfig V) (r : Receiver V) (t : TableId) (it : InternalTable V)
    (b : UpdateBuffer V) (batches rest : List (UpdateBuffer V)) : Prop :=
  ∃ b', Receiver.dedup c r t it b
      = .ok ({ r with myUpdates := Function.update r.myUpdates t (some rest) }, b') ∧
    Removed c.myId batches b b'

theorem total_flatMap (key : Key) (batches : List (UpdateBuffer V)) :
    total (batches.flatMap fun q => q.updates) key
      = (batches.map fun q => total q.updates key).sum := by
  induction batches with
  | nil => rfl
  | cons q batches ih =>
    rw [List.flatMap_cons, total_append, Pi.add_apply, ih, List.map_cons, List.sum_cons]

theorem RemovedBy.removed {myId : NodeId} {b' : UpdateBuffer V}
    (h : RemovedBy (fun x y => x - y) myId batches b b') : Removed myId batches b b' where
  keys := h.keys
  deltas := fun key => by
    rw [h.deltas]
    simp only [foldl_sub, total_flatMap]
  mine := h.mine
  others := h.others

/--
**受け取った buffer の自分の range が queue の先頭の batch をつないだものである時、
除去の loop がその batch だけを正しく除くのは、batch が一つの時で、その時に限る。**
-/
theorem own_removal_iff (hvsub : it.vsubFunc = fun x y => x - y) (hid : 0 ≤ c.myId)
    (hb : b.Packed rs k) (hrange : b.getNodeRange c.myId = some recvRange)
    (hq : r.myUpdates t = some (batches ++ rest)) (hcov : CoversBatches c.myId recvRange batches)
    (hkeys : ∀ q ∈ batches, ∀ kv ∈ q.updates, kv.1 ∈ b.updates.map Prod.fst) :
    RemovesBatches c r t it b batches rest ↔ batches.length = 1 := by
  rcases dedup_of_covers it hid hb hrange hq hcov hkeys with
    ⟨hlen, b', hd, hrem⟩ | ⟨hlen, herr⟩
  · rw [hvsub] at hrem
    exact iff_of_true ⟨b', hd, hrem.removed⟩ hlen
  · refine iff_of_false ?_ (by omega)
    rintro ⟨b', hd, -⟩
    rw [herr] at hd
    cases hd

end group

/-! ## 二つの node の輪での例 -/

/-- node `id` の update を一つ持つ batch。 -/
def batchOf (id : NodeId) (key : Key) (delta : BitVec 32) (st end_ : Int) :
    UpdateBuffer (BitVec 32) where
  updateCapacity := 1
  updates := [(key, delta)]
  slots := [⟨id, st, end_⟩]
  updateIter := 0
  nodeRangeIter := 0

/-- node 1 の update と一緒に戻ってきた、node 0 の `end_` までの update。 -/
def returnedBuffer (end_ : Int) : UpdateBuffer (BitVec 32) where
  updateCapacity := 2
  updates := [(1, 7), (2, 3)]
  slots := [⟨0, 0, end_⟩, ⟨1, 0, 0⟩]
  updateIter := 0
  nodeRangeIter := 0

theorem returnedBuffer_packed (end_ : Int) :
    (returnedBuffer end_).Packed [(0, ⟨0, end_⟩), (1, ⟨0, 0⟩)] 0 where
  slots := rfl
  nonneg := by simp
  nodup := by simp

/-- queue に `queue` を持つ、node 0 の RUN の receiver。 -/
def receiverWith (queue : List (UpdateBuffer (BitVec 32))) : Receiver (BitVec 32) :=
  { Receiver.start (pairRing.nodeConfig ⟨0, Nat.zero_lt_two⟩) with
    myUpdates := Function.update (fun _ => none) 0 (some queue) }

/-- 一つの batch が戻ってきた時は、後の batch を残してその分だけを除く。 -/
theorem own_removal_one_batch :
    RemovesBatches (pairRing.nodeConfig 0) (receiverWith [batchOf 0 1 5 0 0, batchOf 0 2 1 1 2]) 0
      (.ofConfig loopTable) (returnedBuffer 0) [batchOf 0 1 5 0 0] [batchOf 0 2 1 1 2] := by
  have hcov : CoversBatches (V := BitVec 32) 0 ⟨0, 0⟩ [batchOf 0 1 5 0 0] :=
    ⟨by simp, by simp [batchOf], [⟨0, 0⟩], rfl, rfl, by decide, rfl⟩
  exact (own_removal_iff rfl (le_refl 0) (returnedBuffer_packed 0) rfl rfl hcov
    (by simp [batchOf, returnedBuffer])).mpr rfl

/-- 二つの batch がつながって戻ってくると、除去の loop が落ちる。 -/
theorem own_removal_two_batches :
    CoversBatches (V := BitVec 32) 0 ⟨0, 2⟩ [batchOf 0 1 5 0 0, batchOf 0 2 1 1 2] ∧
      (returnedBuffer 2).getNodeRange 0 = some ⟨0, 2⟩ ∧
      ¬RemovesBatches (pairRing.nodeConfig 0) (receiverWith [batchOf 0 1 5 0 0, batchOf 0 2 1 1 2]) 0
        (.ofConfig loopTable) (returnedBuffer 2) [batchOf 0 1 5 0 0, batchOf 0 2 1 1 2] [] := by
  refine ⟨⟨by simp, by simp [batchOf], [⟨0, 0⟩, ⟨1, 2⟩], rfl, ?_⟩, rfl, ?_⟩
  · exact ⟨rfl, by decide, rfl, by decide, rfl⟩
  · rintro ⟨b', h, -⟩
    have hfail : Receiver.dedup (pairRing.nodeConfig 0)
        (receiverWith [batchOf 0 1 5 0 0, batchOf 0 2 1 1 2]) 0 (.ofConfig loopTable)
        (returnedBuffer 2) = .error .seqNumMismatch := by
      refine dedup_two_batches rfl rfl ?_ ?_ rfl rfl rfl rfl ?_ ?_ ?_
      · simp [batchOf]
      · simp [batchOf, returnedBuffer]
      all_goals decide
    rw [hfail] at h
    cases h

end QuiltDB
