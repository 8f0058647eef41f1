import QuiltDB.Comm.FlatPath
import QuiltDB.Properties.Buffer
import QuiltDB.Properties.FlatBuffer
import QuiltDB.Properties.Handlers

/-!
# byte 列のままの receiver

`Comm/FlatPath.lean` の receiver の計算を、`Comm/Receiver.lean` の同じ名前の計算に対応させる。

* `Holds` — byte 列が buffer の中身を持つ。iterator の位置は問わない
* `subtractLoop_refines`・`removeMyUpdates_refines` — ポインタの先で自分の分を引く loop
* `iterUpdates_refines` — ポインタの先の delta を順に読む loop
* `receive_refines` — receiver の処理の全体
-/

namespace QuiltDB.FlatPath

open Checked FlatBuffer Bytes UpdateBuffer

/-! ## 中身の対応 -/

/-- 二つの buffer の中身が同じである。iterator の位置は違ってもよい。 -/
structure SameData (b₀ b : UpdateBuffer Mem) : Prop where
  updates : b₀.updates = b.updates
  slots : b₀.slots = b.slots
  capacity : b₀.updateCapacity = b.updateCapacity

/-- byte 列 `m` が、delta の大きさが `us` の buffer `b` の中身を持つ。 -/
def Holds (us : Nat) (m : Mem) (b : UpdateBuffer Mem) : Prop :=
  ∃ cap k v b₀ it, m = View.bytes v ∧ Sim us cap k v b₀ it ∧ SameData b₀ b

variable {us cap k : Nat} {v : View} {b b₀ b' : UpdateBuffer Mem} {it : Bool} {m : Mem}

theorem SameData.refl (b : UpdateBuffer Mem) : SameData b b := ⟨rfl, rfl, rfl⟩

theorem SameData.trans (h : SameData b₀ b) (h' : SameData b b') : SameData b₀ b' :=
  ⟨h.updates.trans h'.updates, h.slots.trans h'.slots, h.capacity.trans h'.capacity⟩

theorem Holds.of_sim (h : Sim us cap k v b₀ it) (hb : SameData b₀ b) : Holds us v.bytes b :=
  ⟨cap, k, v, b₀, it, rfl, h, hb⟩

theorem Holds.congr (h : Holds us m b) (hb : SameData b b') : Holds us m b' := by
  obtain ⟨cap, k, v, b₀, it, hm, hsim, hs⟩ := h
  exact ⟨cap, k, v, b₀, it, hm, hsim, hs.trans hb⟩

/-! ### iterator だけを動かす呼び出し -/

theorem sameData_startIteration : SameData (specStep us k b .startIteration) b := by
  rw [specStep, UpdateBuffer.startIteration]
  split
  · exact .refl b
  · exact ⟨rfl, rfl, rfl⟩

theorem sameData_nextNodeRange : SameData (specStep us k b .nextNodeRange) b := by
  rw [specStep, UpdateBuffer.nextNodeRange]
  split
  · exact .refl b
  · dsimp only
    split
    · exact .refl b
    · split
      · exact .refl b
      · exact ⟨rfl, rfl, rfl⟩

/-! ### range の呼び出し -/

/-- `GetNodeRange`。 -/
theorem Holds.getNodeRange (h : Holds us m b) (id : Int32) :
    ∃ r, FlatBuffer.getNodeRange m id = some r ∧ b.getNodeRange id.toInt = r.map toRange := by
  obtain ⟨cap, k, v, b₀, it, rfl, hsim, hsame⟩ := h
  obtain ⟨r, hget, hrange⟩ := hsim.getNodeRange id
  refine ⟨r, hget, ?_⟩
  rw [← hrange, UpdateBuffer.getNodeRange, UpdateBuffer.getNodeRange, hsame.slots]

theorem SameData.applyOp (h : SameData b₀ b) (op : RangeOp) :
    SameData (b₀.applyOp op) (b.applyOp op) ∧ b₀.returnsZero op = b.returnsZero op := by
  cases op with
  | update id st end_ =>
    simp only [UpdateBuffer.applyOp, returnsZero, UpdateBuffer.updateNodeRange, h.slots]
    cases modifyFirst (fun s => s.nodeId == id) (fun s => { s with st := st, end_ := end_ })
        b.slots with
    | some slots => exact ⟨⟨h.updates, rfl, h.capacity⟩, rfl⟩
    | none =>
      cases modifyFirst (fun s => s.nodeId == -1) (fun _ => Slot.mk id st end_) b.slots with
      | some slots => exact ⟨⟨h.updates, rfl, h.capacity⟩, rfl⟩
      | none => exact ⟨h, rfl⟩
  | delete id =>
    simp only [UpdateBuffer.applyOp, returnsZero, UpdateBuffer.deleteNodeRange, h.slots]
    cases deleteSlot id b.slots with
    | some slots => exact ⟨⟨h.updates, rfl, h.capacity⟩, rfl⟩
    | none => exact ⟨h, rfl⟩

/-- `DeleteNodeRange`。戻り値は見られない。 -/
theorem Holds.deleteNodeRange (h : Holds us m b) (id : Int32) :
    ∃ r m', FlatBuffer.deleteNodeRange m id = some (r, m') ∧
      Holds us m' ((b.deleteNodeRange id.toInt).getD b) := by
  obtain ⟨cap, k, v, b₀, it, rfl, hsim, hsame⟩ := h
  obtain ⟨v', hdel, -, hsim'⟩ := hsim.deleteNodeRange id
  exact ⟨_, v'.bytes, hdel, .of_sim hsim' (hsame.applyOp (.delete id.toInt)).1⟩

/-- `UpdateNodeRange`。 -/
theorem Holds.updateNodeRange (h : Holds us m b) (id : Int32) (st end_ : Int64) :
    ∃ r m', FlatBuffer.updateNodeRange m id st end_ = some (r, m') ∧
      (r = 0 ↔ (b.updateNodeRange id.toInt st.toInt end_.toInt).isSome = true) ∧
      Holds us m' ((b.updateNodeRange id.toInt st.toInt end_.toInt).getD b) := by
  obtain ⟨cap, k, v, b₀, it, rfl, hsim, hsame⟩ := h
  obtain ⟨v', hupd, -, hsim'⟩ := hsim.updateNodeRange id st end_
  obtain ⟨hsame', hret⟩ := hsame.applyOp (.update id.toInt st.toInt end_.toInt)
  refine ⟨_, v'.bytes, hupd, ?_, .of_sim hsim' hsame'⟩
  rw [hret]
  split
  · exact iff_of_true rfl ‹_›
  · exact iff_of_false (by decide) ‹_›

/-! ## ポインタの先の書き換え -/

/-- 最初に見つかる要素の書き換えは、その番号の要素の書き換えである。 -/
theorem modifyFirst_eq_modify {α : Type} (p : α → Bool) (f : α → α) (l : List α) :
    modifyFirst p f l = (l.findIdx? p).map fun j => l.modify j f := by
  induction l with
  | nil => rfl
  | cons a l ih =>
    rw [modifyFirst, List.findIdx?_cons]
    by_cases ha : p a = true
    · simp [ha]
    · rw [if_neg ha, if_neg ha, ih, Option.map_map, Option.map_map]
      rfl

/-- 見つかった番号の要素は確かにある。 -/
theorem exists_of_findIdx? {α : Type} {p : α → Bool} {l : List α} {j : Nat}
    (h : l.findIdx? p = some j) : ∃ a, l[j]? = some a := by
  obtain ⟨hj, -⟩ := List.findIdx?_eq_some_iff_getElem.mp h
  exact ⟨l[j], List.getElem?_eq_getElem hj⟩

theorem modify_congr_at {α : Type} {l : List α} {j : Nat} {a : α} {f g : α → α}
    (hj : l[j]? = some a) (hfg : f a = g a) : l.modify j f = l.modify j g := by
  refine List.ext_getElem? fun i => ?_
  rw [List.getElem?_modify, List.getElem?_modify]
  by_cases hi : j = i
  · subst hi
    simp [hj, hfg]
  · simp [hi]

/-- byte の数だけ回れば、update を読み切れる。 -/
theorem fuel_enough (h : Sim us cap k v b it) :
    b.updates.length < v.bytes.length + 1 + b.updateIter := by
  have hbytes := h.length_bytes
  have hle := h.length_updates
  have hmul : cap ≤ cap * (8 + us) := Nat.le_mul_of_pos_right _ (by omega)
  rw [layoutSize] at hbytes
  omega

/-! ## 自分の分を引く -/

section subtract

/-- delta のポインタの先を `vsub` で書き換えることは、列のモデルの update の書き換えである。 -/
theorem sameData_writeDelta (us k : Nat) (hb : SameData b₀ b) {key : Key} {j : Nat}
    (hj : (b₀.updates.findIdx? fun kv => kv.1 == key) = some j) {kv : Key × Mem}
    (hkv : b₀.updates[j]? = some kv) (vsub : Mem → Mem → Mem) (myDelta : Mem) :
    ∃ b', b.modifyUpdate key (fun recvDelta => vsub recvDelta myDelta) = some b' ∧
      SameData (specStep us k b₀ (.writeDelta (deltaOffset us k j) (vsub kv.2 myDelta))) b' := by
  refine ⟨{ b with updates := b.updates.modify j fun x => (x.1, vsub x.2 myDelta) }, ?_, ?_⟩
  · rw [UpdateBuffer.modifyUpdate, modifyFirst_eq_modify, ← hb.updates, hj]
    rfl
  · refine ⟨?_, hb.slots, hb.capacity⟩
    simp only [specStep, slotIndex_deltaOffset]
    rw [← hb.updates]
    exact modify_congr_at hkv rfl

variable {vsub : Mem → Mem → Mem}

/-- 自分の update を引く loop。`bm` は残りを読んでいる自分の buffer である。 -/
theorem subtractLoop_refines (hvsub : ∀ a d, a.length = us → d.length = us → (vsub a d).length = us)
    {vm : View} {bm : UpdateBuffer Mem} (hmy : Sim us cap k vm bm it) (hrecv : Holds us m b)
    {fuel : Nat} (hf : bm.updates.length < fuel + bm.updateIter) :
    Refines (Holds us) (subtractLoop vsub us fuel vm.bytes m)
      (Receiver.subtractUpdates vsub b (bm.updates.drop bm.updateIter)) := by
  induction fuel generalizing vm bm m b with
  | zero =>
    have hiter := hmy.iter
    omega
  | succ fuel ih =>
    obtain ⟨vm', heq, -, hmy'⟩ := hmy.nextUpdate
    rw [subtractLoop]
    refine .access_bind heq ?_
    cases hget : bm.updates[bm.updateIter]? with
    | none =>
      rw [List.drop_eq_nil_of_le (List.getElem?_eq_none_iff.mp hget)]
      exact .ok hrecv
    | some my =>
      obtain ⟨hlt, hmyKv⟩ := List.getElem?_eq_some_iff.mp hget
      have hnext : specStep us k bm .nextUpdate = { bm with updateIter := bm.updateIter + 1 } := by
        rw [specStep, UpdateBuffer.nextUpdate, hget]
        rfl
      rw [hnext] at hmy'
      obtain ⟨capR, kR, vR, bR, itR, rfl, hsim, hsame⟩ := hrecv
      rw [List.drop_eq_getElem_cons hlt, hmyKv, Receiver.subtractUpdates]
      refine .access_bind (hsim.getUpdate my.1) ?_
      cases hidx : bR.updates.findIdx? fun kv => kv.1 == my.1 with
      | none =>
        have hnone : b.modifyUpdate my.1 (fun recvDelta => vsub recvDelta my.2) = none := by
          rw [UpdateBuffer.modifyUpdate, modifyFirst_eq_modify, ← hsame.updates, hidx]
          rfl
        rw [hnone]
        exact .fail _
      | some j =>
        obtain ⟨kv, hkv⟩ := exists_of_findIdx? hidx
        obtain ⟨b', hmod, hsame'⟩ := sameData_writeDelta us kR hsame hidx hkv vsub my.2
        have hjlt : j < bR.updates.length := (List.getElem?_eq_some_iff.mp hkv).1
        have hlen : (vsub kv.2 my.2).length = us :=
          hvsub _ _ (hsim.length_delta hkv) (hmy.length_delta hget)
        obtain ⟨vR', hstore, -, hsim'⟩ := hsim.writeDelta hjlt hlen
        rw [hmod]
        refine .access_bind (hsim.loadDelta hkv) (.access_bind (hmy'.loadDelta hget)
          (.access_bind hstore ?_))
        exact ih hmy' (.of_sim hsim' hsame') (show bm.updates.length < fuel + (bm.updateIter + 1) by
          omega)

/-- `StartIteration` が `0` を返すのは、update がある時である。 -/
theorem startIteration_ret (h : Sim us cap k v b it) {r : Int32} {m' : Mem}
    (heq : FlatBuffer.startIteration v.bytes = some (r, m')) : r = 0 ↔ b.updates.length ≠ 0 := by
  have hnum := h.field (f := .numUpdatesOccupied) (by decide)
  have hlen := h.length_updates
  have hcap := h.cap_lt
  have hzero : headerOf us cap k b .numUpdatesOccupied = 0 ↔ b.updates.length = 0 :=
    ofNat_inj (a := b.updates.length) (b := 0) (by omega) (by decide)
  unfold FlatBuffer.startIteration at heq
  simp only [View.getField, View.setField, bind, Option.bind_some, hnum] at heq
  by_cases hz : headerOf us cap k b .numUpdatesOccupied = 0
  · rw [if_pos hz] at heq
    cases heq
    exact iff_of_false (by decide) fun hne => hne (hzero.mp hz)
  · rw [if_neg hz] at heq
    cases heq
    exact iff_of_true rfl fun h0 => hz (hzero.mpr h0)

/-- header の field はいつでも読める。 -/
theorem logMyUpdates_ok (h : Sim us cap k v b it) : logMyUpdates v.bytes = .ok () := by
  simp only [logMyUpdates, View.getField, h.field (f := .buffSize) (by decide),
    h.field (f := .updateSize) (by decide), h.field (f := .updateCapacity) (by decide)]
  rfl

theorem containsRange_eq (r ur : Int64 × Int64) :
    containsRange r ur = (toRange r).contains (toRange ur) := by
  simp only [containsRange, UpdateRange.contains, toRange, ge_iff_le, Int64.le_iff_toInt_le]
  rfl

/-- 自分の batch を引く do-while loop。 -/
theorem removeMyUpdates_refines
    (hvsub : ∀ a d, a.length = us → d.length = us → (vsub a d).length = us) (id : Int32)
    (recvRange : Int64 × Int64) {mems : List Mem} {queue : List (UpdateBuffer Mem)}
    (hq : List.Forall₂ (Holds us) mems queue) (seqNum : Int64) (hrecv : Holds us m b) :
    Refines (fun x y => List.Forall₂ (Holds us) x.1 y.1 ∧ Holds us x.2 y.2)
      (removeMyUpdates id vsub us recvRange mems seqNum m)
      (Receiver.removeMyUpdates id.toInt vsub (toRange recvRange) queue seqNum.toInt b) := by
  induction hq generalizing seqNum m b with
  | nil => exact .fail _
  | @cons my bm mems queue hmy hq ih =>
    obtain ⟨r, hget, hbm⟩ := hmy.getNodeRange id
    obtain ⟨capM, kM, vM, b₀, itM, rfl, hsim, hsame⟩ := hmy
    rw [removeMyUpdates, Receiver.removeMyUpdates]
    refine .access_bind hget ?_
    rw [hbm]
    cases r with
    | none => exact .fail _
    | some myRange =>
      simp only [Option.map_some, containsRange_eq]
      split
      · exact .fail _
      · have hseq : (toRange myRange).st = seqNum.toInt ↔ myRange.1 = seqNum := Int64.toInt_inj
        by_cases hne : myRange.1 = seqNum
        · rw [if_neg (not_not_intro hne), if_neg (not_not_intro (hseq.mpr hne))]
          obtain ⟨ret, vM', hstart, -, hsim', hiter, hupd⟩ := hsim.startIteration
          refine .ok_bind (logMyUpdates_ok hsim) (.access_bind hstart ?_)
          dsimp only
          have hret := startIteration_ret hsim hstart
          rw [hsame.updates] at hret
          by_cases hzero : ret = 0
          · have hlen := hret.mp hzero
            have hst : bm.startIteration = some { bm with updateIter := 0 } := if_neg hlen
            rw [if_neg (not_not_intro hzero), hst]
            dsimp only
            rw [drainUpdates_eq (by simp), List.drop_zero]
            have hsub := subtractLoop_refines hvsub hsim' hrecv (fuel_enough hsim')
            rw [hiter, hupd, List.drop_zero, hsame.updates] at hsub
            refine hsub.bind (fun e he => by rw [he]) fun m' b' hb' hm' => ?_
            rw [hb']
            dsimp only
            have hlt : (toRange myRange).end_ < (toRange recvRange).end_ ↔ myRange.2 < recvRange.2 :=
              Int64.lt_iff_toInt_lt.symm
            by_cases hend : myRange.2 < recvRange.2
            · rw [if_pos hend, if_pos (hlt.mpr hend)]
              exact ih myRange.2 hm'
            · rw [if_neg hend, if_neg (mt hlt.mp hend)]
              exact .ok ⟨hq, hm'⟩
          · have hst : bm.startIteration = none := if_pos (not_not.mp (mt hret.mpr hzero))
            rw [if_pos hzero, hst]
            exact .fail _
        · rw [if_pos hne, if_pos (mt hseq.mp hne)]
          exact .fail _

/-- 自分の update と range を除く。 -/
theorem dedup_refines {c : NodeConfig Mem} {id : Int32} (hid : c.myId = id.toInt)
    {itable : InternalTable Mem}
    (hvsub : ∀ a d, a.length = us → d.length = us → (itable.vsubFunc a d).length = us)
    {r : Receiver Mem} {t : TableId} {mems : Option (List Mem)}
    (hq : Option.Rel (List.Forall₂ (Holds us)) mems (r.myUpdates t)) (hrecv : Holds us m b) :
    Refines (fun x y => Option.Rel (List.Forall₂ (Holds us)) x.1 (y.1.myUpdates t) ∧ Holds us x.2 y.2)
      (dedup id itable.vsubFunc us mems m) (Receiver.dedup c r t itable b) := by
  obtain ⟨range, hget, hb⟩ := hrecv.getNodeRange id
  rw [dedup, Receiver.dedup, hid, hb]
  refine .access_bind hget ?_
  cases range with
  | none => exact .ok ⟨hq, hrecv⟩
  | some range =>
    cases hmy : r.myUpdates t with
    | none =>
      rw [hmy] at hq
      cases hq
      exact .fail _
    | some queue =>
      rw [hmy] at hq
      cases hq with
      | @some mems _ hq =>
        have hst : (toRange range).st = range.1.toInt := rfl
        dsimp only [Option.map_some]
        rw [hst]
        refine (removeMyUpdates_refines hvsub id range hq range.1 hrecv).bind
          (fun e he => by rw [he]) ?_
        rintro ⟨mems', m'⟩ ⟨queue', b'⟩ hb' ⟨hq', hm'⟩
        rw [hb']
        obtain ⟨ret, m'', hdel, hm''⟩ := hm'.deleteNodeRange id
        refine .access_bind hdel (.ok ⟨?_, hm''⟩)
        dsimp only
        rw [Function.update_self]
        exact .some hq'

end subtract

/-! ## 受け取る -/

/-- `NextNodeRange` の答えと、その後の iterator。 -/
theorem nextNodeRange_spec (h : Sim us cap k v b true) :
    ∃ r v', FlatBuffer.nextNodeRange v.bytes = some (r, View.bytes v') ∧
      ((r = none ∧ b.nextNodeRange = none ∧ Sim us cap k v' b true) ∨
        ∃ id range b', r = some (id, range) ∧
          b.nextNodeRange = some ((id.toInt, toRange range), b') ∧ Sim us cap k v' b' true ∧
          SameData b' b) := by
  obtain ⟨r, v', hnext, hmap, -, hsim⟩ := h.nextNodeRange
  have hsame : SameData (specStep us k b .nextNodeRange) b := sameData_nextNodeRange
  refine ⟨r, v', hnext, ?_⟩
  rw [specStep] at hsim hsame
  cases hb : b.nextNodeRange with
  | none =>
    rw [hb] at hmap hsim
    exact .inl ⟨Option.map_eq_none_iff.mp hmap.symm, rfl, hsim⟩
  | some e =>
    obtain ⟨e, b'⟩ := e
    rw [hb] at hmap hsim hsame
    obtain ⟨⟨id, range⟩, rfl, rfl⟩ := Option.map_eq_some_iff.mp hmap.symm
    exact .inr ⟨id, range, b', rfl, rfl, hsim, hsame⟩

/-- 自分の range だけを運ぶ buffer かどうかの判定は、iterator の元の位置によらない。 -/
theorem carriesNoPeer_congr (h : SameData b₀ b) (id : NodeId) :
    Receiver.carriesNoPeer id b₀ = Receiver.carriesNoPeer id b := by
  rw [Bool.eq_iff_iff, carriesNoPeer_iff, carriesNoPeer_iff, iterNodeRanges_eq, iterNodeRanges_eq,
    h.slots]

theorem carriesNoPeer_refines (h : Holds us m b) (id : Int32) :
    Refines (fun x y => x.1 = y ∧ Holds us x.2 b) (carriesNoPeer id m)
      (.ok (Receiver.carriesNoPeer id.toInt b)) := by
  obtain ⟨cap, k, v, b₀, it, rfl, hsim, hsame⟩ := h
  rw [← carriesNoPeer_congr hsame, carriesNoPeer, Receiver.carriesNoPeer]
  obtain ⟨v₁, hstart, -, hsim₁⟩ := hsim.startNodeRangeIteration
  have hsame₁ : SameData b₀.startNodeRangeIteration b := ⟨hsame.updates, hsame.slots, hsame.capacity⟩
  refine .access_bind hstart ?_
  obtain ⟨r, v₂, hnext, ⟨rfl, hnone, hsim₂⟩ | ⟨test, range, b₂, rfl, hsome, hsim₂, hsame₂⟩⟩ :=
    nextNodeRange_spec hsim₁
  · have hnone' : b₀.startNodeRangeIteration.nextNodeRange = none := hnone
    rw [hnone']
    exact .access_bind hnext (.ok ⟨rfl, .of_sim hsim₂ hsame₁⟩)
  · have hsome' : b₀.startNodeRangeIteration.nextNodeRange
        = some ((test.toInt, toRange range), b₂) := hsome
    rw [hsome']
    refine .access_bind hnext ?_
    dsimp only
    by_cases htest : test = id
    · rw [if_pos htest, if_pos (congrArg Int32.toInt htest)]
      obtain ⟨r', v₃, hnext', ⟨rfl, hnone, hsim₃⟩ | ⟨test', range', b₃, rfl, hsome', hsim₃, hsame₃⟩⟩ :=
        nextNodeRange_spec hsim₂
      · exact .access_bind hnext' (.ok ⟨by rw [hnone]; rfl, .of_sim hsim₃ (hsame₂.trans hsame₁)⟩)
      · exact .access_bind hnext'
          (.ok ⟨by rw [hsome']; rfl, .of_sim hsim₃ (hsame₃.trans (hsame₂.trans hsame₁))⟩)
    · rw [if_neg htest, if_neg (mt Int32.toInt_inj.mp htest)]
      exact .ok ⟨rfl, .of_sim hsim₂ (hsame₂.trans hsame₁)⟩

/-! ### 読み切る loop -/

variable {σ : Type}

/-- `read` は、buffer の中に収まっている delta を読む。 -/
def ReadsDelta (us : Nat) (read : Mem → Int → Option Mem) : Prop :=
  ∀ m ptr delta, load m ptr us = some delta → read m ptr = some delta

theorem readsDelta (us : Nat) : ReadsDelta us (readDelta us) := fun _ _ _ h => h

/-- 4 byte 以上の値なら、`VLOG(0)` の読む `int` は delta の中に収まる。 -/
theorem readsDelta_logged (hus : 4 ≤ us) : ReadsDelta us (readLoggedDelta us) := by
  intro m ptr delta h
  rw [readLoggedDelta, loadInt32, load_of_le hus h]
  exact h

variable {read : Mem → Int → Option Mem}

/-- 残りの update を順に `f` に渡す。 -/
theorem forUpdates_refines (hread : ReadsDelta us read) (f : σ → Key → Mem → σ)
    (h : Sim us cap k v b₀ it) (hb : SameData b₀ b) {fuel : Nat}
    (hf : b₀.updates.length < fuel + b₀.updateIter) (s : σ) :
    Refines (fun x y => x.1 = y ∧ Holds us x.2 b) (forUpdates f read fuel v.bytes s)
      (.ok ((b₀.updates.drop b₀.updateIter).foldl (fun s kv => f s kv.1 kv.2) s)) := by
  induction fuel generalizing v b₀ s with
  | zero =>
    have hiter := h.iter
    omega
  | succ fuel ih =>
    obtain ⟨v', hnext, -, h'⟩ := h.nextUpdate
    rw [forUpdates]
    refine .access_bind hnext ?_
    cases hget : b₀.updates[b₀.updateIter]? with
    | none =>
      have hspec : specStep us k b₀ .nextUpdate = b₀ := by
        rw [specStep, UpdateBuffer.nextUpdate, hget]
        rfl
      rw [hspec] at h'
      rw [List.drop_eq_nil_of_le (List.getElem?_eq_none_iff.mp hget)]
      exact .ok ⟨rfl, .of_sim h' hb⟩
    | some kv =>
      obtain ⟨hlt, hkv⟩ := List.getElem?_eq_some_iff.mp hget
      have hspec : specStep us k b₀ .nextUpdate = { b₀ with updateIter := b₀.updateIter + 1 } := by
        rw [specStep, UpdateBuffer.nextUpdate, hget]
        rfl
      rw [hspec] at h'
      rw [List.drop_eq_getElem_cons hlt, hkv, List.foldl_cons]
      refine .access_bind (hread _ _ _ (h'.loadDelta (j := b₀.updateIter) hget)) ?_
      exact ih h' ⟨hb.updates, hb.slots, hb.capacity⟩
        (show b₀.updates.length < fuel + (b₀.updateIter + 1) by omega) _

/-- `StartIteration` から読み切ると、全ての update を順に `f` に渡す。 -/
theorem iterUpdates_refines (hread : ReadsDelta us read) (f : σ → Key → Mem → σ)
    (h : Holds us m b) (s : σ) :
    Refines (fun x y => x.1 = y ∧ Holds us x.2 b) (iterUpdates f read m s)
      (.ok (b.iterUpdates.foldl (fun s kv => f s kv.1 kv.2) s)) := by
  obtain ⟨cap, k, v, b₀, it, rfl, hsim, hsame⟩ := h
  obtain ⟨r, v', hstart, -, hsim', hiter, hupd⟩ := hsim.startIteration
  have hrun := forUpdates_refines hread f hsim' (sameData_startIteration.trans hsame)
    (fuel_enough hsim') s
  rw [hiter, hupd, List.drop_zero, hsame.updates] at hrun
  rw [iterUpdates, iterUpdates_eq]
  exact .access_bind hstart hrun

/-! ### receiver の処理 -/

section receive

variable {c : NodeConfig Mem} {id : Int32} {t : TableId} {r : Receiver Mem}
  {storage : TableId → Storage Mem}

/-- byte 列のままの結果 `x` が、列のモデルの結果 `y` に対応する。他の table には触らない。 -/
structure ReceivedRel (us : Nat) (t : TableId) (r : Receiver Mem) (storage : TableId → Storage Mem)
    (x : Received) (y : Receiver Mem × (TableId → Storage Mem) × RecvOut Mem) : Prop where
  queue : Option.Rel (List.Forall₂ (Holds us)) x.queue (y.1.myUpdates t)
  table : x.storage = y.2.1 t
  forward : List.Forall₂ (fun m msg => ∃ b, msg = .epUpdateBuffer t b ∧ Holds us m b) x.forward
    y.2.2.upd
  cbk : List.Forall₂ (fun p q => p.1 = q.1 ∧ p.2.1 = q.2.1 ∧ Holds us p.2.2 q.2.2) x.cbk y.2.2.cbk
  otherQueue : ∀ t', t' ≠ t → y.1.myUpdates t' = r.myUpdates t'
  otherTable : ∀ t', t' ≠ t → y.2.1 t' = storage t'

/-- `apply_updates` の枝。 -/
theorem applyUpdates_refines (itable : InternalTable Mem) (storage : TableId → Storage Mem)
    (h : Holds us m b) :
    Refines (fun x y => x.1 = y t ∧ Holds us x.2 b ∧ ∀ t', t' ≠ t → y t' = storage t')
      (applyUpdates itable us m (storage t))
      (.ok (if itable.applyUpdates then Function.update storage t
        (b.iterUpdates.foldl (fun s kv => incRaw itable.vaddFunc s kv.1 kv.2) (storage t))
        else storage)) := by
  rw [applyUpdates]
  split
  · obtain ⟨x, hx, hxy, hholds⟩ :=
      (iterUpdates_refines (readsDelta us) (incRaw itable.vaddFunc) h (storage t)).exists_ok
    rw [hx]
    refine .ok ⟨?_, hholds, fun t' ht => Function.update_of_ne ht ..⟩
    rw [hxy, Function.update_self]
  · exact .ok ⟨rfl, h, fun _ _ => rfl⟩

/-- callback の枝。 -/
theorem userCallback_refines (itable : InternalTable Mem) (h : Holds us m b) :
    Refines (List.Forall₂ fun p q => p.1 = q.1 ∧ p.2.1 = q.2.1 ∧ Holds us p.2.2 q.2.2)
      (userCallback itable t m) (Receiver.userCallback itable t b) := by
  rw [userCallback, Receiver.userCallback]
  split
  · cases itable.updateBuffCbk with
    | none => exact .fail _
    | some ucbk => exact .ok (.cons ⟨rfl, rfl, h⟩ .nil)
  · exact .ok .nil

/-- receiver は、範囲の外を触らず、同じ `CHECK` に落ちるか、対応する queue・table・写し・callback の引数を残す。 -/
theorem receive_refines (hid : c.myId = id.toInt)
    (hvsub : ∀ itable, c.internalTable t = some itable →
      ∀ a d, a.length = us → d.length = us → (itable.vsubFunc a d).length = us)
    (hrun : r.state = .run) {mems : Option (List Mem)}
    (hq : Option.Rel (List.Forall₂ (Holds us)) mems (r.myUpdates t)) (hm : Holds us m b) :
    Refines (ReceivedRel us t r storage) (onUpdateBuffer c id us t mems (storage t) m)
      (Receiver.onUpdateBuffer c storage r t b) := by
  rw [onUpdateBuffer, Receiver.onUpdateBuffer, if_neg (not_not_intro hrun), hid]
  refine (carriesNoPeer_refines hm id).bind (fun e he => by cases he) ?_
  rintro ⟨skip, m₁⟩ y hy ⟨hskip, hm₁⟩
  obtain rfl : skip = Receiver.carriesNoPeer id.toInt b := hskip.trans (Except.ok.inj hy).symm
  dsimp only
  split
  · exact .ok ⟨hq, rfl, .nil, .nil, fun _ _ => rfl, fun _ _ => rfl⟩
  · cases htab : c.internalTable t with
    | none => exact .fail _
    | some itable =>
      dsimp only
      refine (dedup_refines hid (hvsub itable htab) hq hm₁).bind (fun e he => by rw [he]) ?_
      rintro ⟨mems', m₂⟩ ⟨r', b'⟩ hdedup ⟨hq', hm₂⟩
      rw [hdedup]
      dsimp only at hq' hm₂ ⊢
      refine (applyUpdates_refines itable storage hm₂).bind (fun e he => by cases he) ?_
      rintro ⟨storage', m₃⟩ y hy ⟨htable, hm₃, hother⟩
      cases hy
      refine (userCallback_refines itable hm₃).bind (fun e he => by rw [he]) ?_
      intro cbk cbk' hcbk hrel
      rw [hcbk]
      dsimp only
      refine .ok ⟨hq', htable, ?_, hrel, fun t' ht => Receiver.dedup_other hdedup ht, hother⟩
      dsimp only
      split
      · exact .cons ⟨b', rfl, hm₂⟩ .nil
      · exact .nil

end receive

end QuiltDB.FlatPath
