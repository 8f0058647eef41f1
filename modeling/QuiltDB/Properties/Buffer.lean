import QuiltDB.Properties.Handlers

/-!
# `UpdateBuffer` の操作が何をするか

二つの iterator が見る列と、隙間なく詰まった buffer（`Packed`）の上での node range の操作。
flush が作る buffer はいつも詰まっている。receiver が自分の slot を消すと、そこに穴が開く。
-/

namespace QuiltDB

/-- slot を node range の組として見る。 -/
def Slot.entry (s : Slot) : NodeId × UpdateRange := (s.nodeId, s.range)

/-- 埋まっている slot か。 -/
def Slot.occupied (s : Slot) : Bool := decide (0 ≤ s.nodeId)

/-- node range の組を入れた slot。 -/
def slotOf (e : NodeId × UpdateRange) : Slot := { nodeId := e.1, st := e.2.st, end_ := e.2.end_ }

@[simp] theorem entry_slotOf (e : NodeId × UpdateRange) : (slotOf e).entry = e := rfl

@[simp] theorem nodeId_slotOf (e : NodeId × UpdateRange) : (slotOf e).nodeId = e.1 := rfl

namespace UpdateBuffer

variable {V : Type}

/-! ## iterator -/

theorem drainUpdates_eq {fuel : Nat} {b : UpdateBuffer V}
    (h : b.updates.length < fuel + b.updateIter) :
    drainUpdates fuel b = b.updates.drop b.updateIter := by
  induction fuel generalizing b with
  | zero => exact (List.drop_eq_nil_of_le (by omega)).symm
  | succ fuel ih =>
    rw [drainUpdates, nextUpdate]
    by_cases hi : b.updateIter < b.updates.length
    · rw [List.getElem?_eq_getElem hi, Option.map_some]
      dsimp only
      rw [ih (by dsimp only; omega), List.drop_eq_getElem_cons hi]
    · rw [List.getElem?_eq_none (by omega), Option.map_none]
      exact (List.drop_eq_nil_of_le (by omega)).symm

/-- update の iterator は、埋まっている update を全て順に返す。 -/
theorem iterUpdates_eq (b : UpdateBuffer V) : b.iterUpdates = b.updates := by
  unfold iterUpdates startIteration
  split
  · next h =>
    rw [Option.getD_none, drainUpdates_eq (by omega), List.length_eq_zero_iff.mp h, List.drop_nil]
  · rw [Option.getD_some, drainUpdates_eq (by simp), List.drop_zero]

/-- 領域の中では、空き slot を飛ばす loop は一歩も進まない。 -/
theorem skipFree_eq {slots : List Slot} {i : Nat} (hi : i < slots.length) (fuel : Nat) :
    skipFree slots fuel i = i := by
  cases fuel with
  | zero => rfl
  | succ fuel =>
    rw [skipFree, List.getElem?_eq_getElem hi]
    exact if_neg fun h => absurd h.2 (by omega)

/-- iterator がこれから返す node range。 -/
def remaining (b : UpdateBuffer V) : List (NodeId × UpdateRange) :=
  ((b.slots.drop b.nodeRangeIter).takeWhile Slot.occupied).map Slot.entry

/-- `NextNodeRange` は残りの先頭を返し、残りが無ければ負の id を返す。 -/
theorem nextNodeRange_cases (b : UpdateBuffer V) :
    (b.nextNodeRange = none ∧ b.remaining = []) ∨
      ∃ e b', b.nextNodeRange = some (e, b') ∧ b.remaining = e :: b'.remaining := by
  unfold nextNodeRange remaining
  by_cases hi : b.nodeRangeIter < b.slots.length
  · rw [if_neg (by omega)]
    simp only [skipFree_eq hi, List.getElem?_eq_getElem hi]
    rw [List.drop_eq_getElem_cons hi]
    by_cases hocc : 0 ≤ b.slots[b.nodeRangeIter].nodeId
    · right
      rw [if_neg (not_lt.mpr hocc),
        List.takeWhile_cons_of_pos (by simpa [Slot.occupied] using hocc)]
      exact ⟨_, _, rfl, rfl⟩
    · left
      rw [if_pos (not_le.mp hocc),
        List.takeWhile_cons_of_neg (by simpa [Slot.occupied] using hocc)]
      exact ⟨rfl, rfl⟩
  · left
    rw [if_pos (by omega), List.drop_eq_nil_of_le (by omega)]
    exact ⟨rfl, rfl⟩

theorem drainNodeRanges_eq {fuel : Nat} {b : UpdateBuffer V} (h : b.remaining.length < fuel) :
    drainNodeRanges fuel b = b.remaining := by
  induction fuel generalizing b with
  | zero => cases h
  | succ fuel ih =>
    rw [drainNodeRanges]
    rcases b.nextNodeRange_cases with ⟨h1, h2⟩ | ⟨e, b', h1, h2⟩
    · rw [h1, h2]
    · rw [h2, List.length_cons] at h
      rw [h1, h2]
      dsimp only
      rw [ih (by omega)]

/-- node range の iterator は、最初の空き slot で止まる。 -/
theorem iterNodeRanges_eq (b : UpdateBuffer V) :
    b.iterNodeRanges = (b.slots.takeWhile Slot.occupied).map Slot.entry := by
  refine drainNodeRanges_eq ?_
  have hle : (b.slots.takeWhile Slot.occupied).length ≤ b.slots.length :=
    (List.takeWhile_prefix _).length_le
  simp only [remaining, startNodeRangeIteration, List.drop_zero, List.length_map]
  omega

/-- iterator は負の id を返さない。 -/
theorem iterNodeRanges_nonneg {b : UpdateBuffer V} {e : NodeId × UpdateRange}
    (h : e ∈ b.iterNodeRanges) : 0 ≤ e.1 := by
  rw [iterNodeRanges_eq] at h
  obtain ⟨s, hs, rfl⟩ := List.mem_map.mp h
  have hocc : s.occupied = true := List.mem_takeWhile_imp hs
  exact of_decide_eq_true hocc

/-- 早く抜ける判定は、node range が無いか、自分のものだけである時に通る。 -/
theorem carriesNoPeer_iff (b : UpdateBuffer V) (id : NodeId) :
    Receiver.carriesNoPeer id b = true ↔
      b.iterNodeRanges = [] ∨ ∃ r, b.iterNodeRanges = [(id, r)] := by
  have hrem : b.iterNodeRanges = b.startNodeRangeIteration.remaining := iterNodeRanges_eq b
  rw [hrem]
  unfold Receiver.carriesNoPeer
  rcases nextNodeRange_cases b.startNodeRangeIteration with ⟨h1, h2⟩ | ⟨⟨k, r⟩, b', h1, h2⟩
  · simp [h1, h2]
  · rw [h1, h2]
    dsimp only
    rcases nextNodeRange_cases b' with ⟨h3, h4⟩ | ⟨e', b'', h3, h4⟩
    · rw [h3, h4]
      by_cases hk : k = id <;> simp [hk]
    · rw [h3, h4]
      simp

/-! ## 詰まった buffer -/

/-- node range が前から詰まっていて、id が互いに異なり、空き slot が `k` 個ある。 -/
structure Packed (b : UpdateBuffer V) (rs : List (NodeId × UpdateRange)) (k : Nat) : Prop where
  slots : b.slots = rs.map slotOf ++ List.replicate k Slot.free
  nonneg : ∀ e ∈ rs, 0 ≤ e.1
  nodup : (rs.map Prod.fst).Nodup

variable {b : UpdateBuffer V} {rs : List (NodeId × UpdateRange)} {k : Nat}

theorem takeWhile_slots (h : ∀ e ∈ rs, 0 ≤ e.1) {l : List Slot}
    (hl : ∀ s, l.head? = some s → s.nodeId < 0) :
    ((rs.map slotOf ++ l).takeWhile Slot.occupied).map Slot.entry = rs := by
  have hrs : ∀ s ∈ rs.map slotOf, s.occupied = true := by
    intro s hs
    obtain ⟨e, he, rfl⟩ := List.mem_map.mp hs
    exact decide_eq_true (h e he)
  rw [List.takeWhile_append_of_pos hrs]
  have hnil : l.takeWhile Slot.occupied = [] := by
    cases l with
    | nil => rfl
    | cons s l =>
      refine List.takeWhile_cons_of_neg ?_
      simpa [Slot.occupied] using hl s rfl
  rw [hnil, List.append_nil, List.map_map]
  exact List.map_id'' (fun _ => rfl) rs

theorem Packed.iter (h : Packed b rs k) : b.iterNodeRanges = rs := by
  rw [iterNodeRanges_eq, h.slots]
  refine takeWhile_slots h.nonneg ?_
  intro s hs
  cases k with
  | zero => cases hs
  | succ k => cases hs; decide

/-- 詰まった buffer の埋まった slot は、iterator に見える range である。 -/
theorem Packed.mem_of_slot (h : Packed b rs k) {s : Slot} (hs : s ∈ b.slots) (hn : 0 ≤ s.nodeId) :
    s.entry ∈ rs := by
  rw [h.slots, List.mem_append] at hs
  rcases hs with hs | hs
  · obtain ⟨e, he, rfl⟩ := List.mem_map.mp hs
    exact he
  · rw [List.eq_of_mem_replicate hs] at hn
    exact absurd hn (by decide)

/-- 詰まった buffer の `GetNodeRange`。 -/
theorem Packed.getNodeRange_eq (h : Packed b rs k) {id : NodeId} (hid : 0 ≤ id) :
    b.getNodeRange id = (rs.find? fun e => e.1 == id).map Prod.snd := by
  have hfree : (List.replicate k Slot.free).find? (fun s => s.nodeId == id) = none := by
    rw [List.find?_eq_none]
    intro s hs
    rw [List.eq_of_mem_replicate hs]
    simp only [Slot.free, beq_iff_eq]
    rintro rfl
    exact absurd hid (by decide)
  unfold getNodeRange
  rw [h.slots, List.find?_append, hfree, Option.or_none, List.find?_map, Option.map_map]
  rfl

theorem Packed.getNodeRange_some (h : Packed b rs k) {id : NodeId} (hid : 0 ≤ id)
    {r : UpdateRange} (hr : b.getNodeRange id = some r) : (id, r) ∈ rs := by
  rw [h.getNodeRange_eq hid, Option.map_eq_some_iff] at hr
  obtain ⟨e, he, rfl⟩ := hr
  have hmem := List.mem_of_find?_eq_some he
  have hkey := List.find?_some he
  rw [beq_iff_eq] at hkey
  exact hkey ▸ hmem

/-- id が互いに異なるので、載っている range がそのまま返る。 -/
theorem Packed.getNodeRange_mem (h : Packed b rs k) {id : NodeId} {r : UpdateRange}
    (hr : (id, r) ∈ rs) : b.getNodeRange id = some r := by
  have hid : 0 ≤ id := h.nonneg _ hr
  cases hg : b.getNodeRange id with
  | none =>
    rw [h.getNodeRange_eq hid, Option.map_eq_none_iff, List.find?_eq_none] at hg
    exact absurd (beq_self_eq_true id) (hg _ hr)
  | some r' =>
    have hr' := h.getNodeRange_some hid hg
    have hinj := List.inj_on_of_nodup_map h.nodup hr' hr rfl
    exact congrArg (fun e => some e.2) hinj

theorem Packed.getNodeRange_none (h : Packed b rs k) {id : NodeId} (hid : 0 ≤ id)
    (hr : b.getNodeRange id = none) : id ∉ rs.map Prod.fst := by
  rw [h.getNodeRange_eq hid, Option.map_eq_none_iff, List.find?_eq_none] at hr
  intro hmem
  obtain ⟨e, he, rfl⟩ := List.mem_map.mp hmem
  exact hr e he (beq_self_eq_true _)

theorem modifyFirst_none {α : Type} {p : α → Bool} {f : α → α} {l : List α}
    (h : ∀ a ∈ l, p a = false) : modifyFirst p f l = none := by
  induction l with
  | nil => rfl
  | cons a l ih =>
    rw [modifyFirst, if_neg (by rw [h a List.mem_cons_self]; exact Bool.false_ne_true),
      ih fun x hx => h x (List.mem_cons_of_mem _ hx)]
    rfl

theorem modifyFirst_append {α : Type} {p : α → Bool} {f : α → α} {l₁ l₂ : List α} {a : α}
    (h : ∀ x ∈ l₁, p x = false) (ha : p a = true) :
    modifyFirst p f (l₁ ++ a :: l₂) = some (l₁ ++ f a :: l₂) := by
  induction l₁ with
  | nil => rw [List.nil_append, modifyFirst, if_pos ha]; rfl
  | cons x l₁ ih =>
    rw [List.cons_append, modifyFirst,
      if_neg (by rw [h x List.mem_cons_self]; exact Bool.false_ne_true),
      ih fun y hy => h y (List.mem_cons_of_mem _ hy)]
    rfl

/-- 書き換えられるのは、`p` を満たす最初の要素である。 -/
theorem modifyFirst_cases {α : Type} {p : α → Bool} {f : α → α} {l l' : List α}
    (h : modifyFirst p f l = some l') :
    ∃ pre a post, l = pre ++ a :: post ∧ p a = true ∧ (∀ x ∈ pre, p x = false) ∧
      l' = pre ++ f a :: post := by
  induction l generalizing l' with
  | nil => cases h
  | cons x l ih =>
    rw [modifyFirst] at h
    split at h
    · next hx =>
      cases h
      exact ⟨[], x, l, rfl, hx, by rintro _ ⟨⟩, rfl⟩
    · next hx =>
      rw [Option.map_eq_some_iff] at h
      obtain ⟨l₁, h1, rfl⟩ := h
      obtain ⟨pre, a, post, rfl, ha, hpre, rfl⟩ := ih h1
      refine ⟨x :: pre, a, post, rfl, ha, ?_, rfl⟩
      rintro y (_ | ⟨_, hy⟩)
      · exact Bool.eq_false_iff.mpr hx
      · exact hpre y hy

theorem modifyFirst_eq_none {α : Type} {p : α → Bool} {f : α → α} {l : List α}
    (h : modifyFirst p f l = none) : ∀ a ∈ l, p a = false := by
  induction l with
  | nil => rintro _ ⟨⟩
  | cons x l ih =>
    rw [modifyFirst] at h
    split at h
    · cases h
    · next hx =>
      rintro a (_ | ⟨_, ha⟩)
      · exact Bool.eq_false_iff.mpr hx
      · exact ih (Option.map_eq_none_iff.mp h) a ha

/-- 詰まった buffer に新しい id の range を書くと、次の空き slot に入る。 -/
theorem Packed.updateNodeRange (h : Packed b rs (k + 1)) {id : NodeId} (hid : 0 ≤ id)
    (hnew : id ∉ rs.map Prod.fst) (r : UpdateRange) :
    ∃ b', b.updateNodeRange id r.st r.end_ = some b' ∧ b'.updates = b.updates ∧
      Packed b' (rs ++ [(id, r)]) k := by
  have hid' : ∀ s ∈ b.slots, (s.nodeId == id) = false := by
    intro s hs
    rw [h.slots, List.mem_append] at hs
    rw [beq_eq_false_iff_ne]
    rcases hs with hs | hs
    · obtain ⟨e, he, rfl⟩ := List.mem_map.mp hs
      exact fun heq => hnew (heq ▸ List.mem_map_of_mem he)
    · rw [List.eq_of_mem_replicate hs]
      rintro rfl
      exact absurd hid (by decide)
  have hocc : ∀ s ∈ rs.map slotOf, (s.nodeId == (-1 : NodeId)) = false := by
    intro s hs
    obtain ⟨e, he, rfl⟩ := List.mem_map.mp hs
    rw [beq_eq_false_iff_ne]
    intro heq
    have hn := h.nonneg e he
    rw [nodeId_slotOf] at heq
    rw [heq] at hn
    exact absurd hn (by decide)
  unfold UpdateBuffer.updateNodeRange
  rw [modifyFirst_none hid', h.slots, List.replicate_succ, modifyFirst_append hocc (by rfl)]
  refine ⟨_, rfl, rfl, ?_, ?_, ?_⟩
  · simp [slotOf]
  · intro e he
    rcases List.mem_append.mp he with he | he
    · exact h.nonneg e he
    · rw [List.mem_singleton.mp he]
      exact hid
  · rw [List.map_append, List.map_singleton]
    exact List.nodup_append.mpr ⟨h.nodup, List.nodup_singleton _, fun x hx y hy => by
      rw [List.mem_singleton.mp hy]
      rintro rfl
      exact hnew hx⟩

theorem deleteSlot_append {id : NodeId} {l : List Slot} {s : Slot} {rest : List Slot}
    (hl : ∀ x ∈ l, 0 ≤ x.nodeId ∧ x.nodeId ≠ id) (hs : s.nodeId = id) (hid : 0 ≤ id) :
    deleteSlot id (l ++ s :: rest) = some (l ++ { s with nodeId := -1 } :: rest) := by
  induction l with
  | nil => rw [List.nil_append, deleteSlot, if_neg (not_lt.mpr (hs ▸ hid)), if_pos hs]; rfl
  | cons x l ih =>
    obtain ⟨h1, h2⟩ := hl x List.mem_cons_self
    rw [List.cons_append, deleteSlot, if_neg (not_lt.mpr h1), if_neg h2,
      ih fun y hy => hl y (List.mem_cons_of_mem _ hy)]
    rfl

/-- 詰まった buffer から slot を一つ消した結果。 -/
theorem Packed.deleteNodeRange_eq {pre post : List (NodeId × UpdateRange)} {id : NodeId}
    {r : UpdateRange} (h : Packed b (pre ++ (id, r) :: post) k) :
    b.deleteNodeRange id = some { b with
      slots := pre.map slotOf ++ { slotOf (id, r) with nodeId := -1 } ::
        (post.map slotOf ++ List.replicate k Slot.free) } := by
  have hid : 0 ≤ id := h.nonneg (id, r) (by simp)
  have hpre : ∀ s ∈ pre.map slotOf, 0 ≤ s.nodeId ∧ s.nodeId ≠ id := by
    intro s hs
    obtain ⟨e, he, rfl⟩ := List.mem_map.mp hs
    refine ⟨h.nonneg e (by simp [he]), fun heq => ?_⟩
    have hnd := h.nodup
    rw [List.map_append, List.map_cons] at hnd
    exact (List.nodup_append.mp hnd).2.2 e.1 (List.mem_map_of_mem he) id List.mem_cons_self heq
  have hslots : b.slots
      = pre.map slotOf ++ slotOf (id, r) :: (post.map slotOf ++ List.replicate k Slot.free) := by
    rw [h.slots]
    simp
  unfold UpdateBuffer.deleteNodeRange
  rw [hslots, deleteSlot_append hpre rfl hid]
  rfl

/-- 自分の slot を消すと、iterator に見えるのはその手前の range だけになる。 -/
theorem Packed.deleteNodeRange {pre post : List (NodeId × UpdateRange)} {id : NodeId}
    {r : UpdateRange} (h : Packed b (pre ++ (id, r) :: post) k) :
    ∃ b', b.deleteNodeRange id = some b' ∧ b'.updates = b.updates ∧ b'.iterNodeRanges = pre := by
  refine ⟨_, h.deleteNodeRange_eq, rfl, ?_⟩
  rw [iterNodeRanges_eq]
  refine takeWhile_slots (fun e he => h.nonneg e (by simp [he])) ?_
  intro s hs
  cases hs
  show (-1 : Int) < 0
  decide

/-- `GetNodeRange` から見れば、消した range が無くなるだけである。 -/
theorem Packed.getNodeRange_deleteNodeRange {pre post : List (NodeId × UpdateRange)} {id : NodeId}
    {r : UpdateRange} (h : Packed b (pre ++ (id, r) :: post) k) {b' : UpdateBuffer V}
    (hd : b.deleteNodeRange id = some b') {x : NodeId} (hx : 0 ≤ x) :
    b'.getNodeRange x = if x = id then none else b.getNodeRange x := by
  rw [h.deleteNodeRange_eq] at hd
  cases hd
  have hne : ((-1 : NodeId) == x) = false := by
    rw [beq_eq_false_iff_ne]
    rintro rfl
    exact absurd hx (by decide)
  split
  · next heq =>
    subst heq
    have hnd := h.nodup
    rw [List.map_append, List.map_cons, List.nodup_middle, List.nodup_cons] at hnd
    have hpp : ∀ s ∈ pre.map slotOf ++ post.map slotOf, ¬((s.nodeId == x) = true) := by
      intro s hs heq
      rw [← List.map_append] at hs
      obtain ⟨e, he, rfl⟩ := List.mem_map.mp hs
      rw [beq_iff_eq, nodeId_slotOf] at heq
      refine hnd.1 (show x ∈ _ from ?_)
      rw [← List.map_append, ← heq]
      exact List.mem_map_of_mem he
    rw [getNodeRange, Option.map_eq_none_iff, List.find?_eq_none]
    intro s hs
    rcases List.mem_append.mp hs with hs | hs
    · exact hpp s (List.mem_append_left _ hs)
    · rcases List.mem_cons.mp hs with rfl | hs
      · exact Bool.eq_false_iff.mp hne
      · rcases List.mem_append.mp hs with hs | hs
        · exact hpp s (List.mem_append_right _ hs)
        · rw [List.eq_of_mem_replicate hs]
          exact Bool.eq_false_iff.mp hne
  · next hxid =>
    have hid : (id == x) = false := beq_eq_false_iff_ne.mpr (Ne.symm hxid)
    have hslot : ((slotOf (id, r)).nodeId == x) = false := hid
    rw [getNodeRange, getNodeRange, h.slots, List.map_append, List.map_cons, List.append_assoc,
      List.cons_append, List.find?_append, List.find?_append, List.find?_cons, List.find?_cons,
      hslot]
    dsimp only
    rw [hne]

end UpdateBuffer

/-! ## map の中身 -/

section pairs

variable {α β : Type} [DecidableEq α]

theorem mem_pairs {m : AList fun _ : α => β} {e : α × β} :
    e ∈ pairs m ↔ m.lookup e.1 = some e.2 := by
  unfold pairs
  rw [List.mem_map, ← Receiver.mem_entries_iff_lookup]
  constructor
  · rintro ⟨x, hx, rfl⟩
    exact hx
  · intro h
    exact ⟨_, h, rfl⟩

omit [DecidableEq α] in
theorem nodup_pairs (m : AList fun _ : α => β) : ((pairs m).map Prod.fst).Nodup := by
  have h : (pairs m).map Prod.fst = m.keys := by
    simp [pairs, AList.keys, List.keys, Function.comp_def]
  rw [h]
  exact m.nodupKeys

end pairs

/-! ## flush が作る buffer -/

/-- まだ送っていない分があるか。 -/
def UpdateRange.pending (r : UpdateRange) : Bool := decide (r.st ≤ r.end_)

/-- 送り終えた後の range。 -/
def UpdateRange.advance (r : UpdateRange) : UpdateRange :=
  if r.pending then { r with st := r.end_ + 1 } else r

namespace Propagator

variable {V : Type}

theorem appendUpdates_some {b b' : UpdateBuffer V} {l : List (Key × V)}
    (h : appendUpdates b l = some b') : b' = { b with updates := b.updates ++ l } := by
  induction l generalizing b with
  | nil =>
    cases h
    simp
  | cons kv l ih =>
    rw [appendUpdates, UpdateBuffer.appendUpdate] at h
    split at h
    · cases h
    · next b₁ hb =>
      split at hb
      · cases hb
      · cases hb
        rw [ih h]
        simp

/-- 容量に収まる分なら、`AppendUpdate` は落ちない。 -/
theorem appendUpdates_ok {b : UpdateBuffer V} {l : List (Key × V)}
    (h : b.updates.length + l.length ≤ b.updateCapacity) :
    appendUpdates b l = some { b with updates := b.updates ++ l } := by
  induction l generalizing b with
  | nil =>
    rw [List.append_nil]
    rfl
  | cons kv l ih =>
    rw [List.length_cons] at h
    have hne : b.updates.length ≠ b.updateCapacity := by omega
    rw [appendUpdates, UpdateBuffer.appendUpdate, if_neg hne]
    dsimp only
    rw [ih (by rw [List.length_append, List.length_singleton]; dsimp only; omega)]
    simp

/-- 作ったばかりの buffer に update を詰めた結果。 -/
theorem appendUpdates_create {cap k : Nat} {l : List (Key × V)} (h : l.length ≤ cap) :
    ∃ b, appendUpdates (UpdateBuffer.createUpdateBuffer cap k) l = some b ∧ b.updates = l ∧
      b.Packed [] k := by
  refine ⟨_, appendUpdates_ok ?_, List.nil_append l, rfl, by rintro _ ⟨⟩, List.nodup_nil⟩
  rw [show (UpdateBuffer.createUpdateBuffer (V := V) cap k).updates = [] from rfl, List.length_nil,
    Nat.zero_add]
  exact h

theorem emitPeerRanges_spec {l : List (NodeId × UpdateRange)} {b : UpdateBuffer V}
    {rs : List (NodeId × UpdateRange)} {k : Nat} {peers : AList fun _ : NodeId => UpdateRange}
    (hb : b.Packed rs (l.length + k)) (hpos : ∀ e ∈ l, 0 ≤ e.1)
    (hnd : ((rs ++ l).map Prod.fst).Nodup) (hl : ∀ e ∈ l, peers.lookup e.1 = some e.2) :
    ∃ b' peers' k', emitPeerRanges b peers l = some (b', peers') ∧ b'.updates = b.updates ∧
      b'.Packed (rs ++ l.filter fun e => e.2.pending) (k' + k) ∧
      ∀ id, peers'.lookup id =
        if id ∈ l.map Prod.fst then (peers.lookup id).map UpdateRange.advance
        else peers.lookup id := by
  -- 残りの range についての帰納法。`k` は後で自分の range を書くための空きである
  induction l generalizing b rs peers k with
  | nil => exact ⟨b, peers, 0, rfl, rfl, by simpa using hb, by simp⟩
  | cons e l ih =>
    obtain ⟨id, r⟩ := e
    have hnd' : id ∉ rs.map Prod.fst ∧ id ∉ l.map Prod.fst ∧ ((rs ++ l).map Prod.fst).Nodup := by
      rw [List.map_append, List.map_cons, List.nodup_middle, List.nodup_cons, List.mem_append] at hnd
      rw [List.map_append]
      exact ⟨fun h => hnd.1 (Or.inl h), fun h => hnd.1 (Or.inr h), hnd.2⟩
    have hpos' : ∀ e ∈ l, 0 ≤ e.1 := fun e he => hpos e (List.mem_cons_of_mem _ he)
    have hlid : peers.lookup id = some r := hl (id, r) List.mem_cons_self
    have hrest : ∀ e ∈ l, e.1 ≠ id := fun e he heq => hnd'.2.1 (heq ▸ List.mem_map_of_mem he)
    rw [emitPeerRanges]
    by_cases hr : r.st ≤ r.end_
    · rw [if_pos hr]
      have hb1 : b.Packed rs (l.length + k + 1) := by
        rw [List.length_cons] at hb
        rwa [show l.length + k + 1 = l.length + 1 + k by omega]
      obtain ⟨b₁, h1, h2, h3⟩ := hb1.updateNodeRange (hpos _ List.mem_cons_self) hnd'.1 r
      rw [h1]
      dsimp only
      have hnd1 : ((rs ++ [(id, r)] ++ l).map Prod.fst).Nodup := by simpa using hnd
      have hl1 : ∀ e ∈ l, (peers.insert id { r with st := r.end_ + 1 }).lookup e.1 = some e.2 := by
        intro e he
        rw [AList.lookup_insert_ne (hrest e he)]
        exact hl e (List.mem_cons_of_mem _ he)
      obtain ⟨b', peers', k', h4, h5, h6, h7⟩ := ih h3 hpos' hnd1 hl1
      refine ⟨b', peers', k', h4, h5.trans h2, ?_, ?_⟩
      · rw [List.filter_cons_of_pos (by simpa [UpdateRange.pending] using hr)]
        simpa using h6
      · intro x
        rw [h7 x]
        by_cases hx : x = id
        · subst hx
          rw [if_neg hnd'.2.1, if_pos (by simp), AList.lookup_insert, hlid]
          simp [UpdateRange.advance, UpdateRange.pending, hr]
        · rw [AList.lookup_insert_ne hx]
          simp only [List.map_cons, List.mem_cons, hx, false_or]
    · rw [if_neg hr]
      have hb1 : b.Packed rs (l.length + (k + 1)) := by
        rw [List.length_cons] at hb
        rwa [show l.length + (k + 1) = l.length + 1 + k by omega]
      obtain ⟨b', peers', k', h4, h5, h6, h7⟩ := ih hb1 hpos' hnd'.2.2
        fun e he => hl e (List.mem_cons_of_mem _ he)
      refine ⟨b', peers', k' + 1, h4, h5, ?_, ?_⟩
      · rw [List.filter_cons_of_neg (by simpa [UpdateRange.pending] using hr)]
        rwa [show k' + 1 + k = k' + (k + 1) by omega]
      · intro x
        rw [h7 x]
        by_cases hx : x = id
        · subst hx
          rw [if_neg hnd'.2.1, if_pos (by simp), hlid]
          simp [UpdateRange.advance, UpdateRange.pending, hr]
        · simp only [List.map_cons, List.mem_cons, hx, false_or]

/-- flush が buffer に書く node range。自分の range は最後に来る。 -/
def outRanges (c : NodeConfig V) (pt : PropTable V) (peers : List (NodeId × UpdateRange)) :
    List (NodeId × UpdateRange) :=
  (peers.filter fun e => e.2.pending) ++
    if pt.myUpdateRange.pending then [(c.myId, pt.myUpdateRange)] else []

/-- flush が作る buffer。`AppendUpdate` も `UpdateNodeRange` も落ちない。 -/
theorem buildBuffer_ok {c : NodeConfig V} {pt : PropTable V} {o : FlushOrder V} (hv : o.Valid pt)
    (hid : 0 ≤ c.myId)
    (hpeers : ∀ id r, pt.tablePeersUpdateRange.lookup id = some r → 0 ≤ id ∧ id ≠ c.myId) :
    ∃ buff peers, buildBuffer c pt o = .ok (buff, peers) ∧ buff.updates = o.updates ∧
      (∃ k, buff.Packed (outRanges c pt o.peers) k) ∧
      ∀ id, peers.lookup id = (pt.tablePeersUpdateRange.lookup id).map UpdateRange.advance := by
  have hmem : ∀ e, e ∈ o.peers ↔ pt.tablePeersUpdateRange.lookup e.1 = some e.2 := fun e => by
    rw [hv.2.1.mem_iff, mem_pairs]
  have hlen : o.peers.length = pt.tablePeersUpdateRange.entries.length := by
    rw [hv.2.1.length_eq, pairs, List.length_map]
  have hcap : o.updates.length = pt.updateStore.entries.length := by
    rw [hv.1.length_eq, pairs, List.length_map]
  have hnd : (o.peers.map Prod.fst).Nodup := (hv.2.1.map Prod.fst).nodup_iff.mpr (nodup_pairs _)
  obtain ⟨b₀, hadd, hb₀, hpk⟩ := appendUpdates_create (k := pt.tablePeersUpdateRange.entries.length + 1)
    hcap.le
  rw [← hlen] at hpk
  rw [buildBuffer, hadd]
  dsimp only
  obtain ⟨b₁, peers₁, k, h1, h2, h3, h4⟩ := emitPeerRanges_spec hpk
    (fun e he => (hpeers _ _ ((hmem e).mp he)).1) (by simpa using hnd)
    (fun e he => (hmem e).mp he)
  have hup : b₁.updates = o.updates := h2.trans hb₀
  have hlook : ∀ id, peers₁.lookup id
      = (pt.tablePeersUpdateRange.lookup id).map UpdateRange.advance := by
    intro id
    rw [h4 id]
    split
    · rfl
    · next hn =>
      cases hl : pt.tablePeersUpdateRange.lookup id with
      | none => rfl
      | some r => exact absurd (List.mem_map.mpr ⟨(id, r), (hmem _).mpr hl, rfl⟩) hn
  rw [h1]
  dsimp only
  rw [emitMyRange]
  by_cases hr : pt.myUpdateRange.st ≤ pt.myUpdateRange.end_
  · rw [if_pos hr]
    rw [List.nil_append] at h3
    have hnew : c.myId ∉ (o.peers.filter fun e => e.2.pending).map Prod.fst := by
      intro hm
      obtain ⟨e, he, heq⟩ := List.mem_map.mp hm
      exact (hpeers _ _ ((hmem e).mp (List.mem_filter.mp he).1)).2 heq
    obtain ⟨b₂, h5, h6, h7⟩ := h3.updateNodeRange hid hnew pt.myUpdateRange
    rw [h5]
    refine ⟨b₂, peers₁, rfl, h6.trans hup, ⟨k, ?_⟩, hlook⟩
    have hp : pt.myUpdateRange.pending = true := decide_eq_true hr
    rw [outRanges, if_pos hp]
    exact h7
  · rw [if_neg hr]
    refine ⟨b₁, peers₁, rfl, hup, ⟨k + 1, ?_⟩, hlook⟩
    have hp : ¬pt.myUpdateRange.pending = true := by simpa [UpdateRange.pending] using hr
    rw [outRanges, if_neg hp, List.append_nil]
    exact h3

theorem buildBuffer_spec {c : NodeConfig V} {pt : PropTable V} {o : FlushOrder V}
    {buff : UpdateBuffer V} {peers : AList fun _ : NodeId => UpdateRange} (hv : o.Valid pt)
    (hid : 0 ≤ c.myId)
    (hpeers : ∀ id r, pt.tablePeersUpdateRange.lookup id = some r → 0 ≤ id ∧ id ≠ c.myId)
    (h : buildBuffer c pt o = .ok (buff, peers)) :
    buff.updates = o.updates ∧ (∃ k, buff.Packed (outRanges c pt o.peers) k) ∧
      ∀ id, peers.lookup id = (pt.tablePeersUpdateRange.lookup id).map UpdateRange.advance := by
  obtain ⟨buff', peers', hok, hspec⟩ := buildBuffer_ok hv hid hpeers
  rw [h] at hok
  cases hok
  exact hspec

/-- 自分の range が空でなければ、`EMyUpdates` の buffer を作る所でも落ちない。 -/
theorem buildMyBuffer_ok {c : NodeConfig V} {pt : PropTable V} {mine : List (Key × V)}
    (hid : 0 ≤ c.myId) (hm : mine.Perm (pairs pt.myUpdateStore))
    (hr : pt.myUpdateRange.pending = true) :
    ∃ b₁ myBuff, appendUpdates
        (UpdateBuffer.createUpdateBuffer pt.myUpdateStore.entries.length 1) mine = some b₁ ∧
      b₁.updateNodeRange c.myId pt.myUpdateRange.st pt.myUpdateRange.end_ = some myBuff ∧
      buildMyBuffer c pt mine = .ok myBuff ∧ myBuff.updates = mine ∧
      myBuff.Packed [(c.myId, pt.myUpdateRange)] 0 := by
  have hcap : mine.length = pt.myUpdateStore.entries.length := by
    rw [hm.length_eq, pairs, List.length_map]
  obtain ⟨b₁, hadd, hb₁, hpk⟩ := appendUpdates_create (k := 0 + 1) hcap.le
  obtain ⟨b', h1, h2, h3⟩ := hpk.updateNodeRange hid (by rintro ⟨⟩) pt.myUpdateRange
  refine ⟨b₁, b', hadd, h1, ?_, h2.trans hb₁, h3⟩
  rw [buildMyBuffer, hadd]
  dsimp only
  rw [if_pos (of_decide_eq_true hr), h1, Option.getD_some]

theorem buildMyBuffer_spec {c : NodeConfig V} {pt : PropTable V} {mine : List (Key × V)}
    {myBuff : UpdateBuffer V} (hid : 0 ≤ c.myId) (h : buildMyBuffer c pt mine = .ok myBuff) :
    pt.myUpdateRange.pending = true ∧ myBuff.updates = mine ∧
      myBuff.Packed [(c.myId, pt.myUpdateRange)] 0 := by
  unfold buildMyBuffer at h
  split at h
  · cases h
  · next b hb =>
    split at h
    · next hr =>
      cases h
      have hpk : b.Packed [] (0 + 1) := by
        rw [appendUpdates_some hb]
        exact ⟨rfl, by simp, List.nodup_nil⟩
      obtain ⟨b', h1, h2, h3⟩ := hpk.updateNodeRange hid (by rintro ⟨⟩) pt.myUpdateRange
      rw [h1, Option.getD_some]
      refine ⟨decide_eq_true hr, h2.trans ?_, h3⟩
      rw [appendUpdates_some hb]
      rfl
    · cases h

/-! ## range の記録 -/

/-- 一つの id についての記録の結果。 -/
def Recorded (old : Option UpdateRange) (r : UpdateRange) (new : Option UpdateRange) : Prop :=
  (old = none ∧ new = some r) ∨
    ∃ r₀, old = some r₀ ∧ r₀.end_ + 1 = r.st ∧ new = some { r₀ with end_ := r.end_ }

theorem recordRange_ok_cases {peers peers' : AList fun _ : NodeId => UpdateRange} {id : NodeId}
    {r : UpdateRange} (h : recordRange peers id r = .ok peers') :
    Recorded (peers.lookup id) r (peers'.lookup id) ∧
      ∀ x, x ≠ id → peers'.lookup x = peers.lookup x := by
  unfold recordRange at h
  split at h
  · next hl =>
    cases h
    exact ⟨Or.inl ⟨hl, AList.lookup_insert _⟩, fun x hx => AList.lookup_insert_ne hx⟩
  · next old hl =>
    split at h
    · next he =>
      cases h
      exact ⟨Or.inr ⟨old, hl, he, AList.lookup_insert _⟩, fun x hx => AList.lookup_insert_ne hx⟩
    · cases h

/-- 記録が済んだ後の表。id が互いに異なるので、どの id も高々一度だけ書かれる。 -/
theorem recordRanges_ok_cases {rs : List (NodeId × UpdateRange)}
    {peers peers' : AList fun _ : NodeId => UpdateRange} (hnd : (rs.map Prod.fst).Nodup)
    (h : recordRanges peers rs = .ok peers') :
    (∀ e ∈ rs, Recorded (peers.lookup e.1) e.2 (peers'.lookup e.1)) ∧
      ∀ x, x ∉ rs.map Prod.fst → peers'.lookup x = peers.lookup x := by
  induction rs generalizing peers with
  | nil =>
    cases h
    exact ⟨by simp, fun _ _ => rfl⟩
  | cons e rs ih =>
    obtain ⟨id, r⟩ := e
    rw [List.map_cons, List.nodup_cons] at hnd
    rw [recordRanges] at h
    split at h
    · cases h
    · next peers₁ h1 =>
      obtain ⟨hrec, hother⟩ := recordRange_ok_cases h1
      obtain ⟨ih1, ih2⟩ := ih hnd.2 h
      constructor
      · intro e he
        rcases List.mem_cons.mp he with rfl | he'
        · rw [ih2 _ hnd.1]
          exact hrec
        · have hne : e.1 ≠ id := by
            rintro rfl
            exact hnd.1 (List.mem_map.mpr ⟨e, he', rfl⟩)
          rw [← hother _ hne]
          exact ih1 e he'
      · intro x hx
        rw [List.map_cons, List.mem_cons, not_or] at hx
        rw [ih2 x hx.2, hother x hx.1]

/-- 一つの id から見た記録の結果。載っていないか、初めてか、続きである。 -/
theorem recordRanges_lookup {rs : List (NodeId × UpdateRange)}
    {peers peers' : AList fun _ : NodeId => UpdateRange} (hnd : (rs.map Prod.fst).Nodup)
    (h : recordRanges peers rs = .ok peers') (id : NodeId) :
    (id ∉ rs.map Prod.fst ∧ peers'.lookup id = peers.lookup id) ∨
    (∃ r, (id, r) ∈ rs ∧ peers.lookup id = none ∧ peers'.lookup id = some r) ∨
    ∃ r r₀, (id, r) ∈ rs ∧ peers.lookup id = some r₀ ∧ r₀.end_ + 1 = r.st ∧
      peers'.lookup id = some { r₀ with end_ := r.end_ } := by
  obtain ⟨hin, hout⟩ := recordRanges_ok_cases hnd h
  by_cases hid : id ∈ rs.map Prod.fst
  · obtain ⟨e, he, rfl⟩ := List.mem_map.mp hid
    rcases hin e he with ⟨h1, h2⟩ | ⟨r₀, h1, h2, h3⟩
    · exact Or.inr (Or.inl ⟨e.2, he, h1, h2⟩)
    · exact Or.inr (Or.inr ⟨e.2, r₀, he, h1, h2, h3⟩)
  · exact Or.inl ⟨hid, hout id hid⟩

/-- 記録した後の表にある id は、前からあるか、記録した列にある。 -/
theorem recordRanges_mem {rs : List (NodeId × UpdateRange)}
    {peers peers' : AList fun _ : NodeId => UpdateRange} (h : recordRanges peers rs = .ok peers')
    {id : NodeId} (hid : id ∈ peers') : id ∈ peers ∨ id ∈ rs.map Prod.fst := by
  induction rs generalizing peers with
  | nil =>
    cases h
    exact Or.inl hid
  | cons e rs ih =>
    rw [recordRanges] at h
    split at h
    · cases h
    · next peers₁ h1 =>
      rcases ih h with hmem | hmem
      · by_cases heq : id = e.1
        · exact Or.inr (heq ▸ List.mem_cons_self)
        · have hother := (recordRange_ok_cases h1).2 id heq
          refine Or.inl (AList.lookup_isSome.mp ?_)
          rw [← hother]
          exact AList.lookup_isSome.mpr hmem
      · exact Or.inr (List.mem_cons_of_mem _ hmem)

/-- どの range も続きになっていれば、記録は落ちない。 -/
theorem recordRanges_ok {rs : List (NodeId × UpdateRange)}
    {peers : AList fun _ : NodeId => UpdateRange} (hnd : (rs.map Prod.fst).Nodup)
    (h : ∀ e ∈ rs, ∀ r₀, peers.lookup e.1 = some r₀ → r₀.end_ + 1 = e.2.st) :
    ∃ peers', recordRanges peers rs = .ok peers' := by
  induction rs generalizing peers with
  | nil => exact ⟨peers, rfl⟩
  | cons e rs ih =>
    obtain ⟨id, r⟩ := e
    rw [List.map_cons, List.nodup_cons] at hnd
    have hone : ∃ peers₁, recordRange peers id r = .ok peers₁ := by
      unfold recordRange
      split
      · exact ⟨_, rfl⟩
      · next old hl => exact ⟨_, if_pos (h (id, r) List.mem_cons_self old hl)⟩
    obtain ⟨peers₁, h1⟩ := hone
    obtain ⟨-, hother⟩ := recordRange_ok_cases h1
    rw [recordRanges, h1]
    refine ih hnd.2 fun e he r₀ hr₀ => ?_
    have hne : e.1 ≠ id := by
      rintro rfl
      exact hnd.1 (List.mem_map.mpr ⟨e, he, rfl⟩)
    rw [hother _ hne] at hr₀
    exact h e (List.mem_cons_of_mem _ he) r₀ hr₀

end Propagator

/-! ## 自分の update の除去 -/

namespace Receiver

variable {V : Type} {vsub : V → V → V}

theorem modifyFirst_length {α : Type} {p : α → Bool} {f : α → α} {l l' : List α}
    (h : modifyFirst p f l = some l') : l'.length = l.length := by
  induction l generalizing l' with
  | nil => cases h
  | cons a l ih =>
    rw [modifyFirst] at h
    split at h
    · cases h; rfl
    · rw [Option.map_eq_some_iff] at h
      obtain ⟨l₁, h1, rfl⟩ := h
      rw [List.length_cons, List.length_cons, ih h1]

theorem deleteSlot_mem {id : NodeId} {l l' : List Slot} (h : UpdateBuffer.deleteSlot id l = some l')
    {s : Slot} (hs : s ∈ l') (hn : 0 ≤ s.nodeId) : s ∈ l := by
  induction l generalizing l' with
  | nil => cases h
  | cons x l ih =>
    rw [UpdateBuffer.deleteSlot] at h
    split at h
    · cases h
    · split at h
      · cases h
        rcases List.mem_cons.mp hs with rfl | hs
        · exact absurd (show (0 : Int) ≤ -1 from hn) (by decide)
        · exact List.mem_cons_of_mem _ hs
      · rw [Option.map_eq_some_iff] at h
        obtain ⟨l₁, h1, rfl⟩ := h
        rcases List.mem_cons.mp hs with rfl | hs
        · exact List.mem_cons_self
        · exact List.mem_cons_of_mem _ (ih h1 hs)

theorem subtractUpdates_frame {b b' : UpdateBuffer V} {us : List (Key × V)}
    (h : subtractUpdates vsub b us = .ok b') :
    b'.slots = b.slots ∧ b'.updates.length = b.updates.length := by
  induction us generalizing b with
  | nil => cases h; exact ⟨rfl, rfl⟩
  | cons kv us ih =>
    rw [subtractUpdates] at h
    split at h
    · cases h
    · next b₁ h1 =>
      unfold UpdateBuffer.modifyUpdate at h1
      rw [Option.map_eq_some_iff] at h1
      obtain ⟨us₁, h2, rfl⟩ := h1
      obtain ⟨h3, h4⟩ := ih h
      exact ⟨h3, h4.trans (modifyFirst_length h2)⟩

/-- 引く loop が落ちるのは、引く key が無い時だけである。 -/
theorem subtractUpdates_error {b : UpdateBuffer V} {us : List (Key × V)} {e : Fault}
    (he : e ≠ .updateNotFound) : subtractUpdates vsub b us ≠ .error e := by
  induction us generalizing b with
  | nil => rintro ⟨⟩
  | cons kv us ih =>
    rw [subtractUpdates]
    split
    · exact fun h => he (Except.error.inj h).symm
    · exact ih

/-- 一つの batch を引く一回り。 -/
theorem removeMyUpdates_ok_cases {myId : NodeId} {recvRange : UpdateRange}
    {queue queue' : List (UpdateBuffer V)} {seqNum : Int} {b b' : UpdateBuffer V}
    (h : removeMyUpdates myId vsub recvRange queue seqNum b = .ok (queue', b')) :
    ∃ myBuff rest myRange b₁, queue = myBuff :: rest ∧
      myBuff.getNodeRange myId = some myRange ∧ recvRange.contains myRange = true ∧
      myRange.st = seqNum ∧ subtractUpdates vsub b myBuff.updates = .ok b₁ ∧
      ((myRange.end_ < recvRange.end_ ∧
        removeMyUpdates myId vsub recvRange rest myRange.end_ b₁ = .ok (queue', b')) ∨
       (recvRange.end_ ≤ myRange.end_ ∧ queue' = rest ∧ b' = b₁)) := by
  cases queue with
  | nil => cases h
  | cons myBuff rest =>
    rw [removeMyUpdates] at h
    split at h
    · cases h
    · next myRange hr =>
      split at h
      · cases h
      · next hcont =>
        split at h
        · cases h
        · next hseq =>
          unfold UpdateBuffer.startIteration at h
          by_cases hlen : myBuff.updates.length = 0
          · rw [if_pos hlen] at h; cases h
          · rw [if_neg hlen] at h
            dsimp only at h
            rw [UpdateBuffer.drainUpdates_eq (by simp)] at h
            simp only [List.drop_zero] at h
            split at h
            · cases h
            · next b₁ hsub =>
              refine ⟨myBuff, rest, myRange, b₁, rfl, hr, by simpa using hcont, not_not.mp hseq,
                hsub, ?_⟩
              split at h
              · next hlt => exact Or.inl ⟨hlt, h⟩
              · next hge =>
                cases h
                exact Or.inr ⟨not_lt.mp hge, rfl, rfl⟩

theorem removeMyUpdates_frame {myId : NodeId} {recvRange : UpdateRange}
    {queue queue' : List (UpdateBuffer V)} {seqNum : Int} {b b' : UpdateBuffer V}
    (h : removeMyUpdates myId vsub recvRange queue seqNum b = .ok (queue', b')) :
    b'.slots = b.slots ∧ b'.updates.length = b.updates.length ∧ queue' <:+ queue := by
  induction queue generalizing seqNum b with
  | nil => cases h
  | cons q queue ih =>
    obtain ⟨_, _, _, b₁, hq, -, -, -, hsub, hcase⟩ := removeMyUpdates_ok_cases h
    obtain ⟨rfl, rfl⟩ := List.cons.inj hq
    obtain ⟨h1, h2⟩ := subtractUpdates_frame hsub
    rcases hcase with ⟨-, hrec⟩ | ⟨-, rfl, rfl⟩
    · obtain ⟨h3, h4, h5⟩ := ih hrec
      exact ⟨h3.trans h1, h4.trans h2, h5.trans (List.suffix_cons _ _)⟩
    · exact ⟨h1, h2, List.suffix_cons _ _⟩

/-- 受け取った buffer に無かった range が、除いた後に現れることはない。 -/
theorem dedup_slots {c : NodeConfig V} {r r' : Receiver V} {t : TableId} {it : InternalTable V}
    {b b' : UpdateBuffer V} (h : dedup c r t it b = .ok (r', b')) {s : Slot} (hs : s ∈ b'.slots)
    (hn : 0 ≤ s.nodeId) : s ∈ b.slots := by
  unfold dedup at h
  split at h
  · cases h
    exact hs
  · split at h
    · cases h
    · split at h
      · cases h
      · next queue' b₁ hrem =>
        cases h
        rw [← (removeMyUpdates_frame hrem).1]
        cases hd : b₁.deleteNodeRange c.myId with
        | none =>
          rw [hd] at hs
          exact hs
        | some b₂ =>
          rw [hd, Option.getD_some] at hs
          unfold UpdateBuffer.deleteNodeRange at hd
          rw [Option.map_eq_some_iff] at hd
          obtain ⟨l, hl, rfl⟩ := hd
          exact deleteSlot_mem hl hs hn

/-- 受け取った buffer から自分の update と range を除いた結果。 -/
theorem dedup_spec {c : NodeConfig V} {r r' : Receiver V} {t : TableId} {it : InternalTable V}
    {b b' : UpdateBuffer V} {rs : List (NodeId × UpdateRange)} {k : Nat} (hb : b.Packed rs k)
    (hid : 0 ≤ c.myId) (h : dedup c r t it b = .ok (r', b')) :
    (c.myId ∉ rs.map Prod.fst ∧ r' = r ∧ b' = b) ∨
    ∃ pre rng post queue queue' b₁, rs = pre ++ (c.myId, rng) :: post ∧
      r.myUpdates t = some queue ∧
      removeMyUpdates c.myId it.vsubFunc rng queue rng.st b = .ok (queue', b₁) ∧
      r'.myUpdates t = some queue' ∧ b'.updates = b₁.updates ∧ b'.iterNodeRanges = pre := by
  unfold dedup at h
  split at h
  · next hn =>
    cases h
    exact Or.inl ⟨hb.getNodeRange_none hid hn, rfl, rfl⟩
  · next rng hr =>
    right
    split at h
    · cases h
    · next queue hq =>
      split at h
      · cases h
      · next queue' b₁ hrem =>
        cases h
        obtain ⟨pre, post, hrs⟩ := List.append_of_mem (hb.getNodeRange_some hid hr)
        have hb₁ : b₁.Packed (pre ++ (c.myId, rng) :: post) k := by
          rw [← hrs]
          exact ⟨(removeMyUpdates_frame hrem).1.trans hb.slots, hb.nonneg, hb.nodup⟩
        obtain ⟨b₂, h1, h2, h3⟩ := hb₁.deleteNodeRange
        refine ⟨pre, rng, post, queue, queue', b₁, hrs, hq, hrem, ?_, ?_, ?_⟩
        · exact Function.update_self ..
        · rw [h1, Option.getD_some, h2]
        · rw [h1, Option.getD_some, h3]

end Receiver

end QuiltDB
