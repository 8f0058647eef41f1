import QuiltDB.Properties.Batches
import QuiltDB.Properties.Carry

/-!
# 一つの origin の range の流れ

origin `o` の range が node から node へ流れる様子を、区間の列として見る。`o` から順に

* `j` の propagator が送り終えた所（`emitted`）
* channel の中の range
* 下流の receiver が受け取った所（`recvTop`）
* receiver から propagator への途中の range
* propagator が記録した所（`recd`）

の間を、流れている range がつないでいる。つなぎ方は関係 `R` で決める。`R` が `≤` なら、いつでも
成り立つ。`R` が `=` なら、どの range も失われない run で成り立つ。
-/

namespace QuiltDB

open Segments

variable {V Node : Type}

/-! ## 一つの origin の range -/

/-- buffer の iterator に見える `id` の range。 -/
def UpdateBuffer.segOf (b : UpdateBuffer V) (id : NodeId) : Option (Int × Int) :=
  (b.iterNodeRanges.find? fun e => e.1 == id).map fun e => e.2.seg

/-- buffer の列の運ぶ `id` の range。 -/
def segsOf (id : NodeId) (bs : List (UpdateBuffer V)) : List (Int × Int) :=
  bs.filterMap fun b => b.segOf id

/-- receiver `id` が RUN で受け取った buffer。 -/
def Event.recvBuffer (id : NodeId) (t : TableId) : Event V → Option (UpdateBuffer V)
  | .received k t' b => if k = id ∧ t' = t then some b else none
  | _ => none

def receivedBy (id : NodeId) (t : TableId) (trace : List (Event V)) : List (UpdateBuffer V) :=
  trace.filterMap (Event.recvBuffer id t)

/-- propagator `id` が記録した `peer` の range。 -/
def Event.recordedSeg (id : NodeId) (t : TableId) (peer : NodeId) : Event V → Option (Int × Int)
  | .recorded k t' p r => if k = id ∧ t' = t ∧ p = peer then some r.seg else none
  | _ => none

def recordedSegs (id : NodeId) (t : TableId) (peer : NodeId) (trace : List (Event V)) :
    List (Int × Int) :=
  trace.filterMap (Event.recordedSeg id t peer)

/-- 区間の列の最後の端。空なら 0。 -/
def topOf (xs : List (Int × Int)) : Int := (xs.getLast?.map Prod.snd).getD 0

/-- propagator が `id` について記録した所。 -/
def TabView.recd (v : TabView V) (id : NodeId) : Int :=
  (v.pt.tablePeersUpdateRange.lookup id).elim 0 fun r => r.end_ + 1

/-- node `j` の propagator が `o` について送り終えた所。登録の返事を待つ buffer は送ったものと見る。 -/
def TabView.emitted (C : SysConfig Node V) [DecidableEq Node] (o j : Node) (v : TabView V) : Int :=
  if j = o then
    if v.pend.isSome then v.pt.myUpdateRange.end_ + 1 else v.pt.myUpdateRange.st
  else (v.pt.tablePeersUpdateRange.lookup (C.id o)).elim 0 fun r => r.st

theorem topOf_concat (xs : List (Int × Int)) (s : Int × Int) : topOf (xs ++ [s]) = s.2 := by
  simp [topOf]

theorem segsOf_append (id : NodeId) (bs cs : List (UpdateBuffer V)) :
    segsOf id (bs ++ cs) = segsOf id bs ++ segsOf id cs := by
  simp [segsOf]

theorem segsOf_singleton (id : NodeId) (b : UpdateBuffer V) :
    segsOf id [b] = (b.segOf id).toList := by
  unfold segsOf
  rw [List.filterMap_cons]
  cases b.segOf id <;> rfl

theorem segsOf_cons (id : NodeId) (b : UpdateBuffer V) (bs : List (UpdateBuffer V)) :
    segsOf id (b :: bs) = (b.segOf id).toList ++ segsOf id bs := by
  rw [← segsOf_singleton, ← segsOf_append, List.singleton_append]

theorem receivedBy_append (id : NodeId) (t : TableId) (tr ev : List (Event V)) :
    receivedBy id t (tr ++ ev) = receivedBy id t tr ++ receivedBy id t ev := by
  simp [receivedBy]

theorem recvBuffer_local {id : NodeId} {t : TableId} :
    Event.Local (V := V) id t (Event.recvBuffer id t) := by
  intro e he
  cases e with
  | received k t' b =>
    have h : k = id ∧ t' = t := of_not_not fun hne => he (if_neg hne)
    exact ⟨h.1, beq_iff_eq.mpr h.2⟩
  | inc | logHandled | myUpdatesSent | sent | ackReceived | termAckSent | registered
  | recorded => exact absurd rfl he

theorem recordedSeg_local {id peer : NodeId} {t : TableId} :
    Event.Local (V := V) id t (Event.recordedSeg id t peer) := by
  intro e he
  cases e with
  | recorded k t' p r =>
    have h : k = id ∧ t' = t ∧ p = peer := of_not_not fun hne => he (if_neg hne)
    exact ⟨h.1, beq_iff_eq.mpr h.2.1⟩
  | inc | logHandled | myUpdatesSent | sent | ackReceived | termAckSent | registered
  | received => exact absurd rfl he

/-- table `t` の出来事だけを見ても、受け取った buffer の列は同じである。 -/
theorem receivedBy_filter (id : NodeId) (t : TableId) (tr : List (Event V)) :
    receivedBy id t (tr.filter (Event.isOf t)) = receivedBy id t tr :=
  recvBuffer_local.filterMap_filter tr

theorem recordedSegs_filter (id : NodeId) (t : TableId) (peer : NodeId) (tr : List (Event V)) :
    recordedSegs id t peer (tr.filter (Event.isOf t)) = recordedSegs id t peer tr :=
  recordedSeg_local.filterMap_filter tr

/-- range を一つ送ると、送り終えた所がその端まで進む。 -/
theorem chain_extend {R : Int → Int → Prop} [IsPreorder Int R] {a e₀ e₁ : Int}
    {xs : List (Int × Int)} {s : Option (Int × Int)} (h : Chain R a xs e₀)
    (hs : (s = none ∧ e₁ = e₀) ∨ (s = some (e₀, e₁) ∧ e₀ < e₁)) :
    Chain R a (xs ++ s.toList) e₁ := by
  rcases hs with ⟨rfl, rfl⟩ | ⟨rfl, hlt⟩
  · simpa using h
  · exact h.concat (refl_of R e₀) hlt

/-- 失ってもよい関係なら、先頭の range を落としても続く。 -/
theorem chain_drop {R : Int → Int → Prop} [IsPreorder Int R] (hle : ∀ a b, R a b → a ≤ b)
    (hlossy : ∀ a b, a ≤ b → R a b) {a b : Int} {xs : List (Int × Int)} {s : Option (Int × Int)}
    (h : Chain R a (s.toList ++ xs) b) : Chain R a xs b := by
  cases s with
  | none => exact h
  | some s =>
    obtain ⟨h1, h2, h3⟩ := h
    exact h3.of_rel (hlossy _ _ ((hle _ _ h1).trans h2.le))

theorem rel_of_eq {R : Int → Int → Prop} [IsPreorder Int R] {a b : Int} (h : a = b) : R a b :=
  h ▸ refl_of R a

/-! ## buffer の操作と range -/

section buffer

variable {b b' : UpdateBuffer V} {id : NodeId} {s : Int × Int}

theorem UpdateBuffer.segOf_some (h : b.segOf id = some s) :
    ∃ r, (id, r) ∈ b.iterNodeRanges ∧ s = r.seg := by
  unfold UpdateBuffer.segOf at h
  rw [Option.map_eq_some_iff] at h
  obtain ⟨e, he, rfl⟩ := h
  have hid := List.find?_some he
  rw [beq_iff_eq] at hid
  exact ⟨e.2, hid ▸ List.mem_of_find?_eq_some he, rfl⟩

theorem UpdateBuffer.segOf_none (h : b.segOf id = none) : id ∉ b.iterNodeRanges.map Prod.fst := by
  unfold UpdateBuffer.segOf at h
  rw [Option.map_eq_none_iff, List.find?_eq_none] at h
  intro hmem
  obtain ⟨e, he, rfl⟩ := List.mem_map.mp hmem
  exact h e he (beq_self_eq_true _)

theorem UpdateBuffer.segOf_eq_none (h : id ∉ b.iterNodeRanges.map Prod.fst) : b.segOf id = none := by
  cases hs : b.segOf id with
  | none => rfl
  | some s =>
    obtain ⟨r, hr, -⟩ := UpdateBuffer.segOf_some hs
    exact absurd (List.mem_map_of_mem hr) h

theorem UpdateBuffer.segOf_mem (hnd : (b.iterNodeRanges.map Prod.fst).Nodup) {r : UpdateRange}
    (h : (id, r) ∈ b.iterNodeRanges) : b.segOf id = some r.seg := by
  cases hs : b.segOf id with
  | none => exact absurd (List.mem_map_of_mem h) (UpdateBuffer.segOf_none hs)
  | some s =>
    obtain ⟨r', hr', rfl⟩ := UpdateBuffer.segOf_some hs
    have heq := List.inj_on_of_nodup_map hnd hr' h rfl
    exact congrArg (fun e => some e.2.seg) heq

theorem ChanOk.segOf_lt {C : SysConfig Node V} (h : ChanOk C b) (hs : b.segOf id = some s) :
    s.1 < s.2 := by
  obtain ⟨r, hr, rfl⟩ := UpdateBuffer.segOf_some hs
  have hle : r.st ≤ r.end_ := of_decide_eq_true (h.ids _ hr).2
  show r.st < r.end_ + 1
  omega

/-- 自分の slot の後ろに、埋まった slot が無い。 -/
def OwnLast (id : NodeId) (b : UpdateBuffer V) : Prop :=
  ∀ pre r post, b.iterNodeRanges = pre ++ (id, r) :: post → post = []

/--
自分の range を除いた後に見える、他の node の range。

自分の slot より後ろの range は見えなくなる。後ろに無ければ、何も失われない。
-/
theorem Receiver.dedup_segOf {C : SysConfig Node V} {c : NodeConfig V} {t : TableId}
    {r r' : Receiver V} {it : InternalTable V} (hb : ChanOk C b) (hid : 0 ≤ c.myId)
    (h : Receiver.dedup c r t it b = .ok (r', b')) (hne : id ≠ c.myId) :
    b'.segOf id = b.segOf id ∨ (b'.segOf id = none ∧ ¬OwnLast c.myId b) := by
  obtain ⟨k, hk⟩ := hb.packed
  rcases Receiver.dedup_spec hk hid h with ⟨-, -, rfl⟩ | ⟨pre, rng, post, _, _, _, hrs, -, -, -, -, hit⟩
  · exact Or.inl rfl
  · have hfind : b.segOf id = b'.segOf id ∨
        (b'.segOf id = none ∧ b.segOf id = (post.find? fun e => e.1 == id).map fun e => e.2.seg) := by
      unfold UpdateBuffer.segOf
      rw [hit, hrs, List.find?_append, List.find?_cons_of_neg (by simpa using Ne.symm hne)]
      cases pre.find? fun e => e.1 == id with
      | none => exact Or.inr ⟨rfl, by rw [Option.none_or]⟩
      | some e => exact Or.inl rfl
    rcases hfind with h1 | ⟨h1, h2⟩
    · exact Or.inl h1.symm
    · by_cases hpost : post = []
      · rw [hpost] at h2
        exact Or.inl (h1.trans h2.symm)
      · exact Or.inr ⟨h1, fun hl => hpost (hl pre rng post hrs)⟩

end buffer

/-! ## 送る側 -/

section emit

variable [DecidableEq Node] {C : SysConfig Node V} {t : TableId} {o j : Node} {v v' : TabView V}
  {R : Int → Int → Prop} [IsPreorder Int R]

/-- flush の後に送り終えた所。 -/
def flushedTo (C : SysConfig Node V) (o j : Node) (pt : PropTable V)
    (peers : AList fun _ : NodeId => UpdateRange) : Int :=
  if j = o then pt.myUpdateRange.end_ + 1 else (peers.lookup (C.id o)).elim 0 fun r => r.st

theorem FlushSpec.segOf {fo : FlushOrder V} {buff : UpdateBuffer V}
    {peers : AList fun _ : NodeId => UpdateRange} (hs : NodeShape C j v) (hpend : v.pend = none)
    (hf : FlushSpec C j v.pt fo buff peers) :
    (buff.segOf (C.id o) = none ∧ flushedTo C o j v.pt peers = v.emitted C o j) ∨
    (buff.segOf (C.id o) = some (v.emitted C o j, flushedTo C o j v.pt peers) ∧
      v.emitted C o j < flushedTo C o j v.pt peers) := by
  obtain ⟨k, hk⟩ := hf.ok.packed
  unfold flushedTo TabView.emitted
  by_cases hj : j = o
  · subst hj
    rw [if_pos rfl, if_pos rfl, hpend, if_neg (by simp)]
    by_cases hp : v.pt.myUpdateRange.pending = true
    · have hle : v.pt.myUpdateRange.st ≤ v.pt.myUpdateRange.end_ := of_decide_eq_true hp
      refine Or.inr ⟨UpdateBuffer.segOf_mem hk.nodup ?_, by omega⟩
      rw [hf.ranges, Propagator.outRanges, if_pos hp]
      exact List.mem_append_right _ (List.mem_singleton_self _)
    · refine Or.inl ⟨UpdateBuffer.segOf_eq_none ?_, ?_⟩
      · rw [hf.ranges, Propagator.outRanges, if_neg hp, List.append_nil]
        intro hmem
        obtain ⟨e, he, heq⟩ := List.mem_map.mp hmem
        exact (hs.peers _ _ ((hf.mem e).mp (List.mem_filter.mp he).1)).2.1 heq
      · have hle := hs.range
        have hgt : ¬v.pt.myUpdateRange.st ≤ v.pt.myUpdateRange.end_ := by
          simpa [UpdateRange.pending] using hp
        omega
  · rw [if_neg hj, if_neg hj, hf.peers]
    -- 表に無い id か、送る分の無い id は buffer に載らない
    have hmem : ∀ e ∈ buff.iterNodeRanges, e.1 = C.id o →
        v.pt.tablePeersUpdateRange.lookup (C.id o) = some e.2 ∧ e.2.pending = true := by
      intro e he heq
      rw [hf.ranges, Propagator.outRanges, List.mem_append] at he
      rcases he with he | he
      · obtain ⟨he1, he2⟩ := List.mem_filter.mp he
        exact ⟨heq ▸ (hf.mem e).mp he1, he2⟩
      · split at he
        · rw [List.mem_singleton.mp he] at heq
          exact absurd (C.id_injective heq) hj
        · cases he
    cases hl : v.pt.tablePeersUpdateRange.lookup (C.id o) with
    | none =>
      refine Or.inl ⟨UpdateBuffer.segOf_eq_none ?_, rfl⟩
      intro hm
      obtain ⟨e, he, heq⟩ := List.mem_map.mp hm
      rw [hl] at hmem
      cases (hmem e he heq).1
    | some r =>
      by_cases hp : r.pending = true
      · have hle : r.st ≤ r.end_ := of_decide_eq_true hp
        have hadv : r.advance = { r with st := r.end_ + 1 } := if_pos hp
        refine Or.inr ⟨?_, ?_⟩
        · rw [Option.map_some, hadv]
          refine UpdateBuffer.segOf_mem hk.nodup ?_
          rw [hf.ranges, Propagator.outRanges]
          exact List.mem_append_left _ (List.mem_filter.mpr ⟨(hf.mem (C.id o, r)).mpr hl, hp⟩)
        · rw [Option.map_some, hadv]
          show r.st < r.end_ + 1
          omega
      · have hadv : r.advance = r := if_neg hp
        refine Or.inl ⟨UpdateBuffer.segOf_eq_none ?_, by rw [Option.map_some, hadv]⟩
        intro hm
        obtain ⟨e, he, heq⟩ := List.mem_map.mp hm
        obtain ⟨h1, h2⟩ := hmem e he heq
        rw [hl] at h1
        exact hp (Option.some.inj h1 ▸ h2)

variable [Zero V] {ib : Option (UpdateBuffer V)} {push : List (UpdateBuffer V)}
  {ev : List (Event V)} {a : Int} {chan : List (UpdateBuffer V)}

/--
送る側の一歩。channel と返事待ちの buffer の range は、いつも `emitted` まで続く。

初めて記録した peer では `emitted` が 0 から動くので、記録する range の始まりを知る必要がある。
-/
theorem NodeShape.emit_chain (hs : NodeShape C j v)
    (hfwd : j ≠ o → ∀ b rest s, v.fwd = b :: rest → b.segOf (C.id o) = some s →
      R (v.recd (C.id o)) s.1)
    (h : Chain R a (segsOf (C.id o) (chan ++ v.pend.toList)) (v.emitted C o j))
    (he : TabEff (C.nodeConfig j) t v ib v' push ev) :
    Chain R a (segsOf (C.id o) (chan ++ push ++ v'.pend.toList)) (v'.emitted C o j) := by
  cases he with
  | skip | inc | dropLog | stop | register | recvStop | discard | noPeer | process
  | dropBuffer => rw [List.append_nil]; exact h
  | @log _ _ key delta _ hpend =>
    obtain ⟨h1, h2⟩ := addLog_range (C.nodeConfig j) t v.pt key delta
    rw [List.append_nil]
    refine h.rel_end (rel_of_eq ?_)
    simp [TabView.emitted, h1, h2, hpend]
  | @ask fo buff peers myBuff tc _ hpend _ _ hv hst hb =>
    have hseg := (hs.flush hv hst hb).segOf hs hpend (o := o)
    rw [hpend, Option.toList_none, List.append_nil] at h
    rw [List.append_nil, Option.toList_some, segsOf_append, segsOf_singleton]
    exact chain_extend h hseg
  | @send fo buff peers _ hpend _ hv hst hb =>
    have hseg := (hs.flush hv hst hb).segOf hs hpend (o := o)
    rw [hpend, Option.toList_none, List.append_nil] at h
    dsimp only
    rw [hpend, Option.toList_none, List.append_nil, segsOf_append, segsOf_singleton]
    refine (chain_extend h hseg).rel_end (rel_of_eq ?_)
    simp [TabView.emitted, flushedTo, Propagator.closeMyRange]
  | @reply buff _ hpend _ =>
    rw [hpend, Option.toList_some] at h
    dsimp only
    rw [Option.toList_none, List.append_nil]
    refine h.rel_end (rel_of_eq ?_)
    simp [TabView.emitted, hpend, Propagator.closeMyRange]
  | @record b rest tc peers _ hpend hf _ hrec =>
    rw [List.append_nil]
    refine h.rel_end ?_
    unfold TabView.emitted
    dsimp only
    rw [hpend]
    by_cases hj : j = o
    · rw [if_pos hj, if_pos hj]
      exact refl_of R _
    · rw [if_neg hj, if_neg hj]
      have hb : b ∈ v.fwd := by rw [hf]; exact List.mem_cons_self
      rcases Propagator.recordRanges_lookup (hs.fwd b hb).nodup hrec (C.id o) with
        ⟨-, h2⟩ | ⟨r, hr, hold, h2⟩ | ⟨r, r₀, hr, hold, -, h2⟩
      · rw [h2]
        exact refl_of R _
      · have h0 := hfwd hj b rest r.seg hf (UpdateBuffer.segOf_mem (hs.fwd b hb).nodup hr)
        rw [TabView.recd, hold] at h0
        rw [hold, h2]
        exact h0
      · rw [hold, h2]
        exact refl_of R _

end emit

/-! ## 受け取る側 -/

/-- receiver `j` が受け取った `o` の range。 -/
def recvSegs (C : SysConfig Node V) (t : TableId) (o : Node) (trace : List (Event V)) (j : Node) :
    List (Int × Int) :=
  segsOf (C.id o) (receivedBy (C.id j) t trace)

/-- receiver `j` が `o` について受け取った所。 -/
def recvTop (C : SysConfig Node V) (t : TableId) (o : Node) (trace : List (Event V)) (j : Node) :
    Int := topOf (recvSegs C t o trace j)

/-- node `j` の中の、`o` の range の流れ。 -/
structure NodeFlow (R : Int → Int → Prop) (C : SysConfig Node V) (t : TableId) (o : Node)
    (trace : List (Event V)) (j : Node) (v : TabView V) : Prop where
  recv : Chain R 0 (recvSegs C t o trace j) (recvTop C t o trace j)
  recs : j ≠ o → Chain R 0 (recordedSegs (C.id j) t (C.id o) trace) (v.recd (C.id o))
  fwd : j ≠ o → Chain R (v.recd (C.id o)) (segsOf (C.id o) v.fwd) (recvTop C t o trace j)

/-- range を失わないための、node `j` の一歩の条件。 -/
structure NodeKeeps (C : SysConfig Node V) (t : TableId) (j : Node) (v : TabView V)
    (ib : Option (UpdateBuffer V)) : Prop where
  pRun : v.pRun = true
  rRun : v.rRun = true
  forward : ∀ tc, (C.tableDir j).lookup t = some tc → tc.forwardUpdates = true
  own : ∀ b, ib = some b → OwnLast (C.id j) b

section recv

variable {C : SysConfig Node V} {t : TableId} {o j : Node} {v v' : TabView V}
  {R : Int → Int → Prop} {tr ev : List (Event V)}

theorem recvSegs_append (C : SysConfig Node V) (t : TableId) (o : Node) (tr ev : List (Event V))
    (j : Node) : recvSegs C t o (tr ++ ev) j = recvSegs C t o tr j ++ recvSegs C t o ev j := by
  rw [recvSegs, receivedBy_append, segsOf_append]
  rfl

theorem chain_topOf [IsPreorder Int R] {xs : List (Int × Int)} {s : Option (Int × Int)}
    (h : Chain R 0 xs (topOf xs)) (hs : ∀ x, s = some x → R (topOf xs) x.1 ∧ x.1 < x.2) :
    Chain R 0 (xs ++ s.toList) (topOf (xs ++ s.toList)) := by
  cases s with
  | none => simpa using h
  | some x =>
    obtain ⟨h1, h2⟩ := hs x rfl
    rw [Option.toList_some, topOf_concat]
    exact h.concat h1 h2

/-- 受け取った range を渡す時と、渡さずに失う時。 -/
theorem chain_forward [IsPreorder Int R] {a : Int} {xs ys : List (Int × Int)}
    {s s' : Option (Int × Int)} (h : Chain R a ys (topOf xs))
    (hs : ∀ x, s = some x → R (topOf xs) x.1 ∧ x.1 < x.2)
    (hs' : s' = s ∨ (s' = none ∧ ∀ x, s = some x → R (topOf xs) x.2)) :
    Chain R a (ys ++ s'.toList) (topOf (xs ++ s.toList)) := by
  cases s with
  | none =>
    have hn : s' = none := hs'.elim id And.left
    rw [hn]
    simpa using h
  | some x =>
    obtain ⟨h1, h2⟩ := hs x rfl
    rw [Option.toList_some, topOf_concat]
    rcases hs' with rfl | ⟨rfl, h3⟩
    · exact h.concat h1 h2
    · rw [Option.toList_none, List.append_nil]
      exact h.rel_end (h3 x rfl)

theorem recordedSegs_append (id : NodeId) (t : TableId) (peer : NodeId) (tr ev : List (Event V)) :
    recordedSegs id t peer (tr ++ ev) = recordedSegs id t peer tr ++ recordedSegs id t peer ev := by
  simp [recordedSegs]

theorem receivedBy_recorded (id : NodeId) (b : UpdateBuffer V) :
    receivedBy id t (b.iterNodeRanges.map fun r => (.recorded id t r.1 r.2 : Event V)) = [] :=
  filterMap_recorded (fun _ _ => rfl) _

/-- 記録した buffer の range のうち、`peer` のもの。 -/
theorem recordedSegs_record {id peer : NodeId} {b : UpdateBuffer V}
    (hnd : (b.iterNodeRanges.map Prod.fst).Nodup) :
    recordedSegs id t peer (b.iterNodeRanges.map fun r => (.recorded id t r.1 r.2 : Event V))
      = (b.segOf peer).toList := by
  unfold UpdateBuffer.segOf recordedSegs
  generalize b.iterNodeRanges = rs at hnd
  rw [List.filterMap_map]
  induction rs with
  | nil => rfl
  | cons e rs ih =>
    rw [List.map_cons, List.nodup_cons] at hnd
    rw [List.filterMap_cons]
    by_cases hp : e.1 = peer
    · have hrest : rs.filterMap (Event.recordedSeg id t peer ∘ fun r =>
          (.recorded id t r.1 r.2 : Event V)) = [] := by
        rw [List.filterMap_eq_nil_iff]
        intro r hr
        refine if_neg fun h => hnd.1 ?_
        rw [hp, ← h.2.2]
        exact List.mem_map_of_mem hr
      rw [List.find?_cons_of_pos (by simpa using hp), hrest]
      simp [Event.recordedSeg, hp]
    · rw [List.find?_cons_of_neg (by simpa using hp)]
      simpa [Event.recordedSeg, hp] using ih hnd.2

variable (o tr) in
theorem recvTop_frame (hev : receivedBy (C.id j) t ev = []) :
    recvSegs C t o (tr ++ ev) j = recvSegs C t o tr j ∧
      recvTop C t o (tr ++ ev) j = recvTop C t o tr j := by
  have h : recvSegs C t o (tr ++ ev) j = recvSegs C t o tr j := by
    rw [recvSegs_append, show recvSegs C t o ev j = [] by rw [recvSegs, hev]; rfl, List.append_nil]
  exact ⟨h, by rw [recvTop, h, recvTop]⟩

/-- `o` の range を動かさない一歩。 -/
theorem NodeFlow.quiet (h : NodeFlow R C t o tr j v) (hrecd : v'.recd (C.id o) = v.recd (C.id o))
    (hfwd : v'.fwd = v.fwd) (hrecv : receivedBy (C.id j) t ev = [])
    (hrec : recordedSegs (C.id j) t (C.id o) ev = []) : NodeFlow R C t o (tr ++ ev) j v' := by
  obtain ⟨h1, h2⟩ := recvTop_frame o tr hrecv
  refine ⟨?_, fun hj => ?_, fun hj => ?_⟩
  · rw [h1, h2]
    exact h.recv
  · rw [recordedSegs_append, hrec, List.append_nil, hrecd]
    exact h.recs hj
  · rw [hrecd, hfwd, h2]
    exact h.fwd hj

/-- 他の node の出来事に、`id` の受け取りは無い。 -/
theorem receivedBy_other {id : NodeId} (hev : ∀ e ∈ ev, e.nodeId ≠ id) :
    receivedBy id t ev = [] := recvBuffer_local.filterMap_other hev

theorem NodeFlow.frame (h : NodeFlow R C t o tr j v) (hev : ∀ e ∈ ev, e.nodeId ≠ C.id j) :
    NodeFlow R C t o (tr ++ ev) j v :=
  h.quiet rfl rfl (receivedBy_other hev) (recordedSeg_local.filterMap_other hev)

theorem FlushSpec.recd [DecidableEq Node] {fo : FlushOrder V} {buff : UpdateBuffer V}
    {peers : AList fun _ : NodeId => UpdateRange} (hf : FlushSpec C j v.pt fo buff peers)
    (id : NodeId) :
    ((peers.lookup id).elim 0 fun r => r.end_ + 1) = v.recd id := by
  rw [hf.peers, TabView.recd]
  cases v.pt.tablePeersUpdateRange.lookup id with
  | none => rfl
  | some r =>
    rw [Option.map_some]
    show r.advance.end_ + 1 = r.end_ + 1
    unfold UpdateRange.advance
    split <;> rfl

/-- 早く抜ける buffer は、他の node の range を運ばない。 -/
theorem segOf_of_carriesNoPeer {b : UpdateBuffer V} {me id : NodeId}
    (h : Receiver.carriesNoPeer me b = true) (hne : id ≠ me) : b.segOf id = none := by
  refine UpdateBuffer.segOf_eq_none ?_
  rcases (UpdateBuffer.carriesNoPeer_iff b me).mp h with h | ⟨r, h⟩
  · simp [h]
  · simpa [h] using hne

theorem recvSegs_received {b : UpdateBuffer V} :
    recvSegs C t o [.received (C.id j) t b] j = (b.segOf (C.id o)).toList := by
  have h : receivedBy (C.id j) t [.received (C.id j) t b] = [b] := by
    simp [receivedBy, Event.recvBuffer]
  rw [recvSegs, h, segsOf_singleton]

/-- 届いた buffer を受け取った後の、受け取った range の列。 -/
theorem NodeFlow.recv_step [IsPreorder Int R] (h : NodeFlow R C t o tr j v) {b : UpdateBuffer V}
    (hs : ∀ s, b.segOf (C.id o) = some s → R (recvTop C t o tr j) s.1 ∧ s.1 < s.2) :
    Chain R 0 (recvSegs C t o (tr ++ [.received (C.id j) t b]) j)
      (recvTop C t o (tr ++ [.received (C.id j) t b]) j) := by
  rw [recvTop, recvSegs_append, recvSegs_received]
  exact chain_topOf h.recv hs

/-- 受け取った buffer を渡した後の、途中の range の列。`bs` は渡した buffer である。 -/
theorem NodeFlow.fwd_step [IsPreorder Int R] (h : NodeFlow R C t o tr j v) (hj : j ≠ o)
    {b : UpdateBuffer V} {bs : List (UpdateBuffer V)} {s' : Option (Int × Int)}
    (hbs : segsOf (C.id o) bs = s'.toList)
    (hs : ∀ s, b.segOf (C.id o) = some s → R (recvTop C t o tr j) s.1 ∧ s.1 < s.2)
    (hs' : s' = b.segOf (C.id o) ∨
      (s' = none ∧ ∀ s, b.segOf (C.id o) = some s → R (recvTop C t o tr j) s.2)) :
    Chain R (v.recd (C.id o)) (segsOf (C.id o) (v.fwd ++ bs))
      (recvTop C t o (tr ++ [.received (C.id j) t b]) j) := by
  rw [recvTop, recvSegs_append, recvSegs_received, segsOf_append, hbs]
  exact chain_forward (h.fwd hj) hs hs'

/-- 記録すると、途中の列の先頭が記録の列の末尾に移る。 -/
theorem NodeFlow.record [IsPreorder Int R] (hs : NodeShape C j v) (h : NodeFlow R C t o tr j v)
    {b : UpdateBuffer V} {rest : List (UpdateBuffer V)}
    {peers : AList fun _ : NodeId => UpdateRange} (hf : v.fwd = b :: rest)
    (hrec : Propagator.recordRanges v.pt.tablePeersUpdateRange b.iterNodeRanges = .ok peers)
    (hfwd : v'.fwd = rest) (hpeers : v'.pt.tablePeersUpdateRange = peers) :
    NodeFlow R C t o (tr ++ b.iterNodeRanges.map fun r => .recorded (C.id j) t r.1 r.2) j v' := by
  have hnd := (hs.fwd b (by rw [hf]; exact List.mem_cons_self)).nodup
  obtain ⟨h1, h2⟩ := recvTop_frame o tr (receivedBy_recorded (t := t) (C.id j) b)
  have hrecd : (b.segOf (C.id o) = none ∧ v'.recd (C.id o) = v.recd (C.id o)) ∨
      ∃ s, b.segOf (C.id o) = some s ∧ v'.recd (C.id o) = s.2 := by
    unfold TabView.recd
    rw [hpeers]
    rcases Propagator.recordRanges_lookup hnd hrec (C.id o) with
      ⟨hn, heq⟩ | ⟨r, hr, -, heq⟩ | ⟨r, r₀, hr, -, -, heq⟩
    · exact Or.inl ⟨UpdateBuffer.segOf_eq_none hn, by rw [heq]⟩
    · exact Or.inr ⟨r.seg, UpdateBuffer.segOf_mem hnd hr, by rw [heq]; rfl⟩
    · exact Or.inr ⟨r.seg, UpdateBuffer.segOf_mem hnd hr, by rw [heq]; rfl⟩
  refine ⟨by rw [h1, h2]; exact h.recv, fun hj => ?_, fun hj => ?_⟩
  · have hchain := h.fwd hj
    rw [hf, segsOf_cons] at hchain
    rw [recordedSegs_append, recordedSegs_record hnd]
    rcases hrecd with ⟨hn, heq⟩ | ⟨s, hsome, heq⟩
    · rw [hn, heq, Option.toList_none, List.append_nil]
      exact h.recs hj
    · rw [hsome] at hchain ⊢
      rw [heq]
      exact (h.recs hj).concat hchain.1 hchain.2.1
  · have hchain := h.fwd hj
    rw [hf, segsOf_cons] at hchain
    rw [h2, hfwd]
    rcases hrecd with ⟨hn, heq⟩ | ⟨s, hsome, heq⟩
    · rw [hn] at hchain
      rw [heq]
      exact hchain
    · rw [hsome] at hchain
      rw [heq]
      exact hchain.2.2

variable [DecidableEq Node] [Zero V] {ib : Option (UpdateBuffer V)} {push : List (UpdateBuffer V)}

theorem NodeFlow.step [IsPreorder Int R] (hle : ∀ a b, R a b → a ≤ b) (hs : NodeShape C j v)
    (h : NodeFlow R C t o tr j v)
    (hkeep : (∀ a b, a ≤ b → R a b) ∨ NodeKeeps C t j v ib)
    (hib : ∀ b, ib = some b → ChanOk C b ∧
      ∀ s, b.segOf (C.id o) = some s → R (recvTop C t o tr j) s.1)
    (he : TabEff (C.nodeConfig j) t v ib v' push ev) : NodeFlow R C t o (tr ++ ev) j v' := by
  have hseg : ∀ b, ib = some b → ∀ s, b.segOf (C.id o) = some s →
      R (recvTop C t o tr j) s.1 ∧ s.1 < s.2 := fun b hb s hs =>
    ⟨(hib b hb).2 s hs, (hib b hb).1.segOf_lt hs⟩
  cases he with
  | skip | inc | dropLog | stop | reply | register | recvStop | discard =>
    exact h.quiet rfl rfl rfl rfl
  | @log _ _ key delta =>
    refine h.quiet ?_ rfl rfl rfl
    rw [TabView.recd, (addLog_range (C.nodeConfig j) t v.pt key delta).2]
    rfl
  | @ask fo buff peers myBuff tc _ _ _ _ hv hst hb =>
    exact h.quiet ((hs.flush hv hst hb).recd _) rfl rfl rfl
  | @send fo buff peers _ _ _ hv hst hb =>
    exact h.quiet ((hs.flush hv hst hb).recd _) rfl rfl rfl
  | @noPeer b _ hno =>
    refine ⟨h.recv_step (hseg b rfl), fun hj => ?_, fun hj => ?_⟩
    · rw [recordedSegs_append]
      exact (List.append_nil _).symm ▸ h.recs hj
    · have hnone : b.segOf (C.id o) = none :=
        segOf_of_carriesNoPeer hno fun heq => hj (C.id_injective heq).symm
      have hnil : segsOf (C.id o) ([] : List (UpdateBuffer V)) = (none : Option (Int × Int)).toList :=
        rfl
      have hf := h.fwd_step hj hnil (hseg b rfl) (Or.inl hnone.symm)
      rwa [List.append_nil] at hf
  | @process b b' r r' tc _ hno htc hr hd =>
    refine ⟨h.recv_step (hseg b rfl), fun hj => ?_, fun hj => ?_⟩
    · rw [recordedSegs_append]
      exact (List.append_nil _).symm ▸ h.recs hj
    · have hlose : (∀ a b, a ≤ b → R a b) →
          ∀ s, b.segOf (C.id o) = some s → R (recvTop C t o tr j) s.2 := by
        intro hlossy s hs'
        obtain ⟨h1, h2⟩ := hseg b rfl s hs'
        exact hlossy _ _ ((hle _ _ h1).trans h2.le)
      have hne : C.id o ≠ (C.nodeConfig j).myId := fun heq => hj (C.id_injective heq).symm
      -- 渡す buffer が range を失うのは、自分の range で読み終わる時と、渡さない table の時である
      by_cases hfw : tc.forwardUpdates = true
      · rw [if_pos hfw]
        refine h.fwd_step hj (segsOf_singleton _ b') (hseg b rfl) ?_
        rcases Receiver.dedup_segOf (hib b rfl).1 (C.id_nonneg j) hd hne with h1 | ⟨h1, h2⟩
        · exact Or.inl h1
        · rcases hkeep with hlossy | hk
          · exact Or.inr ⟨h1, hlose hlossy⟩
          · exact absurd (hk.own b rfl) h2
      · rw [if_neg hfw]
        have hnil : segsOf (C.id o) ([] : List (UpdateBuffer V))
            = (none : Option (Int × Int)).toList := rfl
        refine h.fwd_step hj hnil (hseg b rfl) (Or.inr ⟨rfl, ?_⟩)
        rcases hkeep with hlossy | hk
        · exact hlose hlossy
        · exact absurd (hk.forward tc htc) hfw
  | @record b rest tc peers _ _ hf _ hrec =>
    exact h.record hs hf hrec rfl rfl
  | @dropBuffer b rest hp hf =>
    refine ⟨?_, fun hj => ?_, fun hj => ?_⟩
    · rw [List.append_nil]
      exact h.recv
    · rw [List.append_nil]
      exact h.recs hj
    · rw [List.append_nil]
      have hfw := h.fwd hj
      rw [hf, segsOf_cons] at hfw
      -- RUN を出た propagator は buffer を捨てる
      rcases hkeep with hlossy | hk
      · exact chain_drop hle hlossy hfw
      · rw [hk.pRun] at hp
        cases hp

end recv

/-! ## system の流れ -/

section system

variable [DecidableEq Node]

/-- `o` の range の流れ。 -/
structure Flow (R : Int → Int → Prop) (C : SysConfig Node V) (t : TableId) (o : Node)
    (S : TabSys Node V) : Prop where
  node : ∀ j, NodeFlow R C t o S.trace j (S.view j)
  link : ∀ u d, C.down u = some d → C.Feeds o u →
    Chain R (recvTop C t o S.trace d) (segsOf (C.id o) (S.chan u ++ (S.view u).pend.toList))
      ((S.view u).emitted C o u)

/-- どの range も失われない状態と条件。 -/
structure Lossless (C : SysConfig Node V) (t : TableId) (Q : Node → UpdateBuffer V → Prop)
    (S : TabSys Node V) : Prop where
  run : ∀ j, (S.view j).pRun = true ∧ (S.view j).rRun = true
  forward : ∀ j tc, (C.tableDir j).lookup t = some tc → tc.forwardUpdates = true
  own : ∀ d b, Q d b → OwnLast (C.id d) b

variable [Zero V] {C : SysConfig Node V} {t : TableId} {o j : Node} {v v' : TabView V}
  {R : Int → Int → Prop} {tr ev : List (Event V)} {ib : Option (UpdateBuffer V)}
  {push : List (UpdateBuffer V)} {Q : Node → UpdateBuffer V → Prop} {S S' : TabSys Node V}

omit [DecidableEq Node] [Zero V] in
theorem Lossless.nodeKeeps (h : Lossless C t Q S) (hib : S.Delivers C Q j ib) :
    NodeKeeps C t j (S.view j) ib where
  pRun := (h.run j).1
  rRun := (h.run j).2
  forward := h.forward j
  own := fun b hb => h.own j b ((hib b hb).2 (h.run j).2)

omit [DecidableEq Node] in
/-- 届いた buffer は propagator を動かさず、RUN なら受け取りが記録される。 -/
theorem TabEff.recv_cases {c : NodeConfig V} {b : UpdateBuffer V}
    (h : TabEff c t v (some b) v' push ev) :
    v'.pend = v.pend ∧ v'.pt = v.pt ∧
      ((v.rRun = true ∧ ev = [.received c.myId t b]) ∨ (v.rRun = false ∧ ev = [])) := by
  cases h with
  | discard hr => exact ⟨rfl, rfl, Or.inr ⟨hr, rfl⟩⟩
  | noPeer hr => exact ⟨rfl, rfl, Or.inl ⟨hr, rfl⟩⟩
  | process hr => exact ⟨rfl, rfl, Or.inl ⟨hr, rfl⟩⟩

omit [DecidableEq Node] in
/-- 自分で動く一歩では、何も受け取らない。 -/
theorem TabEff.receivedBy_nil {c : NodeConfig V} (h : TabEff c t v none v' push ev) (id : NodeId) :
    receivedBy id t ev = [] := by
  cases h with
  | record => exact filterMap_recorded (fun _ _ => rfl) _
  | skip | inc | log | dropLog | stop | ask | send | reply | register | recvStop
  | dropBuffer => rfl

omit [DecidableEq Node] [Zero V] in
theorem NodeFlow.fwd_head (h : NodeFlow R C t o tr j v) (hj : j ≠ o) {b : UpdateBuffer V}
    {rest : List (UpdateBuffer V)} {s : Int × Int} (hf : v.fwd = b :: rest)
    (hs : b.segOf (C.id o) = some s) : R (v.recd (C.id o)) s.1 := by
  have hc := h.fwd hj
  rw [hf, segsOf_cons, hs] at hc
  exact hc.1

theorem Flow.step_self [IsPreorder Int R] (hle : ∀ a b, R a b → a ≤ b) (hs : Shape C S)
    (hi : Flow R C t o S) (hkeep : (∀ a b, a ≤ b → R a b) ∨ Lossless C t Q S)
    (he : TabEff (C.nodeConfig j) t (S.view j) none v' push ev) :
    Flow R C t o
      { view := Function.update S.view j v'
        chan := Function.update S.chan j (S.chan j ++ push)
        trace := S.trace ++ ev } := by
  refine ⟨fun k => ?_, fun u d hd hf => ?_⟩
  · by_cases hk : k = j
    · subst hk
      simp only [Function.update_self]
      exact (hi.node k).step hle (hs.node k)
        (hkeep.imp id fun hl => hl.nodeKeeps (by simp [TabSys.Delivers])) (by simp) he
    · simp only [Function.update_of_ne hk]
      exact (hi.node k).frame (he.nodeId_ne hk)
  · have hlink := hi.link u d hd hf
    dsimp only
    rw [(recvTop_frame _ _ (he.receivedBy_nil (C.id d))).2]
    by_cases hu : u = j
    · subst hu
      simp only [Function.update_self]
      exact (hs.node u).emit_chain (fun hj b rest s hb hseg => (hi.node u).fwd_head hj hb hseg)
        hlink he
    · simp only [Function.update_of_ne hu]
      exact hlink

theorem Flow.step_recv [IsPreorder Int R] (hle : ∀ a b, R a b → a ≤ b) (hs : Shape C S)
    (hc : Carry C S) (hsf : C.SingleFeed o) (hi : Flow R C t o S)
    (hkeep : (∀ a b, a ≤ b → R a b) ∨ Lossless C t Q S) {w d : Node} {b : UpdateBuffer V}
    {rest : List (UpdateBuffer V)} (hd : C.down w = some d) (hch : S.chan w = b :: rest)
    (hq : (S.view d).rRun = true → Q d b)
    (he : TabEff (C.nodeConfig d) t (S.view d) (some b) v' [] ev) :
    Flow R C t o
      { view := Function.update S.view d v'
        chan := Function.update S.chan w rest
        trace := S.trace ++ ev } := by
  have hb : b ∈ S.chan w := by rw [hch]; exact List.mem_cons_self
  have hib : S.Delivers C Q d (some b) := by
    rintro _ ⟨⟩
    exact ⟨⟨w, hd, hb⟩, hq⟩
  -- `o` の range を運んでいれば、`w` は `o` から着く
  have hfeed : ∀ s, b.segOf (C.id o) = some s → C.Feeds o w := by
    intro s hseg
    obtain ⟨r, hr, -⟩ := UpdateBuffer.segOf_some hseg
    exact hc.chan w b hb _ hr o rfl
  obtain ⟨hpend, hpt, hev⟩ := he.recv_cases
  refine ⟨fun k => ?_, fun u d' hd' hf => ?_⟩
  · by_cases hk : k = d
    · subst hk
      simp only [Function.update_self]
      refine (hi.node k).step hle (hs.node k) (hkeep.imp id fun hl => hl.nodeKeeps hib) ?_ he
      rintro _ ⟨⟩
      refine ⟨hs.chan w b hb, fun s hseg => ?_⟩
      have hlink := hi.link w k hd (hfeed s hseg)
      rw [hch, List.cons_append, segsOf_cons, hseg] at hlink
      exact hlink.1
    · simp only [Function.update_of_ne hk]
      exact (hi.node k).frame (he.nodeId_ne hk)
  · have hlink := hi.link u d' hd' hf
    have hview : ∀ x, (Function.update S.view d v' x).pend = (S.view x).pend ∧
        (Function.update S.view d v' x).emitted C o u = (S.view x).emitted C o u := by
      intro x
      by_cases hx : x = d
      · subst hx
        simp [TabView.emitted, hpend, hpt]
      · simp [Function.update_of_ne hx]
    dsimp only
    rw [(hview u).1, (hview u).2]
    by_cases hu : u = w
    · subst hu
      obtain rfl : d = d' := Option.some.inj (hd.symm.trans hd')
      rw [hch, List.cons_append, segsOf_cons] at hlink
      rw [Function.update_self]
      rcases hev with ⟨-, rfl⟩ | ⟨hrun, rfl⟩
      · -- 受け取った range の分だけ、受け取った所が進む
        rw [recvTop, recvSegs_append, show recvSegs C t o [.received (C.nodeConfig d).myId t b] d
          = (b.segOf (C.id o)).toList from recvSegs_received]
        cases hseg : b.segOf (C.id o) with
        | none =>
          rw [hseg] at hlink
          rw [Option.toList_none, List.append_nil]
          exact hlink
        | some s =>
          rw [hseg] at hlink
          rw [Option.toList_some, topOf_concat]
          exact hlink.2.2
      · rw [List.append_nil]
        rcases hkeep with hlossy | hl
        · exact chain_drop hle hlossy hlink
        · rw [(hl.run d).2] at hrun
          cases hrun
    · rw [Function.update_of_ne hu]
      have htop : recvTop C t o (S.trace ++ ev) d' = recvTop C t o S.trace d' := by
        by_cases hdd : d' = d
        · subst hdd
          -- `o` の range は `u` からしか来ないので、`w` の buffer は運んでいない
          have hnone : b.segOf (C.id o) = none := by
            cases hseg : b.segOf (C.id o) with
            | none => rfl
            | some s => exact absurd (hsf u w d' hf (hfeed s hseg) hd' hd) hu
          rcases hev with ⟨-, rfl⟩ | ⟨-, rfl⟩
          · rw [recvTop, recvSegs_append, show recvSegs C t o [.received (C.nodeConfig d').myId t b]
              d' = (b.segOf (C.id o)).toList from recvSegs_received, hnone, Option.toList_none,
              List.append_nil]
            rfl
          · rw [List.append_nil]
        · exact (recvTop_frame _ _ (receivedBy_other (he.nodeId_ne hdd))).2
      rw [htop]
      exact hlink

theorem Flow.step [IsPreorder Int R] (hle : ∀ a b, R a b → a ≤ b) (hs : Shape C S)
    (hc : Carry C S) (hsf : C.SingleFeed o) (hi : Flow R C t o S)
    (hkeep : (∀ a b, a ≤ b → R a b) ∨ Lossless C t Q S) (h : TabStep C t Q S S') :
    Flow R C t o S' := by
  cases h with
  | self he => exact hi.step_self hle hs hkeep he
  | recv hd hch hq he => exact hi.step_recv hle hs hc hsf hkeep hd hch hq he

theorem Flow.start [IsPreorder Int R] : Flow R C t o (TabSys.start : TabSys Node V) := by
  refine ⟨fun j => ⟨?_, fun _ => ?_, fun _ => ?_⟩, fun u d _ _ => ?_⟩
  · exact refl_of R 0
  · exact refl_of R 0
  · exact refl_of R 0
  · simp only [TabSys.start, TabView.emitted]
    split <;> exact refl_of R 0

/-- **range は追い越されない。** 失われることはあっても、順序は入れ替わらない。 -/
theorem TabReach.flow_le (h : TabReach C t Q S) (hsf : C.SingleFeed o) : Flow (· ≤ ·) C t o S :=
  h.invariant Flow.start fun _ _ hr hs hi =>
    hi.step (fun _ _ h => h) hr.shape hr.carry hsf (Or.inl fun _ _ h => h) hs

/-- 下流へ辿って `j` に着かない node の range は、`j` に届かない。 -/
theorem TabReach.recvSegs_nil (h : TabReach C t Q S) (hno : ¬C.Feeds o j) :
    recvSegs C t o S.trace j = [] := by
  refine h.invariant (I := fun S => recvSegs C t o S.trace j = []) rfl fun S S' hr hs hi => ?_
  cases hs with
  | self he => exact (recvTop_frame o S.trace (he.receivedBy_nil (C.id j))).1.trans hi
  | @recv u d b rest v' ev hd hch _ he =>
    by_cases hj : j = d
    · subst hj
      obtain ⟨-, -, ⟨-, rfl⟩ | ⟨-, rfl⟩⟩ := he.recv_cases
      · have hnone : b.segOf (C.id o) = none := by
          refine UpdateBuffer.segOf_eq_none fun hmem => hno ?_
          obtain ⟨e, he', heq⟩ := List.mem_map.mp hmem
          have hb : b ∈ S.chan u := by rw [hch]; exact List.mem_cons_self
          exact (hr.carry.chan u b hb e he' o heq.symm).down hd
        show recvSegs C t o (S.trace ++ [.received (C.id j) t b]) j = []
        rw [recvSegs_append, recvSegs_received, hnone, hi]
        rfl
      · rw [List.append_nil]
        exact hi
    · exact (recvTop_frame o S.trace (receivedBy_other (he.nodeId_ne hj))).1.trans hi

omit [DecidableEq Node] in
/-- RUN に戻ることはない。 -/
theorem TabEff.run_of_run {c : NodeConfig V} (h : TabEff c t v ib v' push ev) :
    (v'.pRun = true → v.pRun = true) ∧ (v'.rRun = true → v.rRun = true) := by
  cases h with
  | stop => exact ⟨(by rintro ⟨⟩), id⟩
  | recvStop => exact ⟨id, (by rintro ⟨⟩)⟩
  | skip | inc | log | dropLog | ask | send | reply | register | discard | noPeer | process
  | record | dropBuffer => exact ⟨id, id⟩

theorem Lossless.of_step (h : TabStep C t Q S S') (hl : Lossless C t Q S') : Lossless C t Q S := by
  refine ⟨fun k => ?_, hl.forward, hl.own⟩
  have hk := hl.run k
  cases h with
  | @self j v' push ev he =>
    by_cases hkj : k = j
    · subst hkj
      simp only [Function.update_self] at hk
      exact ⟨he.run_of_run.1 hk.1, he.run_of_run.2 hk.2⟩
    · simpa only [Function.update_of_ne hkj] using hk
  | @recv u d b rest v' ev hd hc _ he =>
    by_cases hkd : k = d
    · subst hkd
      simp only [Function.update_self] at hk
      exact ⟨he.run_of_run.1 hk.1, he.run_of_run.2 hk.2⟩
    · simpa only [Function.update_of_ne hkd] using hk

/-- **失われなければ、range は隙間なく続く。** -/
theorem TabReach.flow_eq (h : TabReach C t Q S) (hsf : C.SingleFeed o) (hl : Lossless C t Q S) :
    Flow (· = ·) C t o S := by
  refine h.invariant (I := fun S => Lossless C t Q S → Flow (· = ·) C t o S) (fun _ => Flow.start)
    ?_ hl
  intro S S' hr hs hi hl
  have hl' := hl.of_step hs
  exact (hi hl').step (fun _ _ h => le_of_eq h) hr.shape hr.carry hsf (Or.inr hl') hs

end system

end QuiltDB
