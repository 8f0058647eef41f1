import QuiltDB.Lib.Potential
import QuiltDB.Properties.Handshake

/-!
# handshake の進み具合

handshake に残る仕事を数える。receiver は返事が揃うまで `PropInitACK` を何度でも publish するので、
どの一歩も仕事を減らすわけではない。役に立つ publish だけを選べば仕事は減り続け、
選べる一歩が無くなった時には全ての thread が main loop に入っている。

役に立つ publish は、全員の購読が有効になった後のものである。その一度で、返事を待つ全員に届く。
-/

namespace QuiltDB

variable {ι V : Type}

/-! ## 仕事の量 -/

/-- propagator がこの先送る message の分。 -/
def HsPropPc.work : HsPropPc → Nat
  | .sendInit => 4
  | .waitAck | .sendAckAck => 2
  | .waitStart | .run => 0

/-- receiver がこの先 publish する message の分。`need` は `PropInitACK` の届いていない propagator があるか。 -/
def HsRecvPc.work (c : HsConfig ι) (need : Bool) : HsRecvPc → Nat
  | .init _ | .ack _ => 2 * c.numExpectedPropagators + 2
  | .drain _ => c.numExpectedPropagators + 1 + if need then c.numExpectedPropagators + 2 else 0
  | .start => c.numExpectedPropagators + 1
  | .run => 0

namespace HsState

/-- propagator `i` の分。 -/
def propWork (s : HsState ι V) (i : ι) : Nat :=
  (s.propPc i).work + (s.pushQ i).length + (s.subQ i).length + (!s.subscribed i).toNat

/-- `PropInitACK` を待っていて、まだ届いていない propagator があるか。 -/
def needsAck (c : HsConfig ι) (s : HsState ι V) : Bool :=
  c.props.any fun i => decide (s.propPc i = .waitAck) && (s.subQ i).isEmpty

/-- handshake に残る仕事。 -/
def work (c : HsConfig ι) (s : HsState ι V) : Nat :=
  s.recvPc.work c (s.needsAck c) + (c.props.map s.propWork).sum

end HsState

/-- 仕事を減らす一歩。 -/
def HsLabel.Useful (c : HsConfig ι) (s : HsState ι V) : HsLabel ι V → Prop
  | .subscribe _ | .send _ | .recvSub _ | .recvPush _ => True
  | .publish => ∀ i, s.subscribed i = true
  | .recvNothing => s.needsAck c = true
  | .sendMain .. | .publishMain _ => False

variable {c : HsConfig ι} {s s' : HsState ι V}

theorem HsState.needsAck_iff :
    s.needsAck c = true ↔ ∃ i, s.propPc i = .waitAck ∧ s.subQ i = [] := by
  simp [HsState.needsAck, c.mem_props]

/-- 待つ propagator が増えなければ、receiver の仕事は増えない。 -/
theorem HsRecvPc.work_mono {need need' : Bool} (h : need' = true → need = true) (pc : HsRecvPc) :
    pc.work c need' ≤ pc.work c need := by
  cases need' with
  | false => cases pc <;> simp [HsRecvPc.work]
  | true => rw [h rfl]

theorem HsState.needsAck_mono
    (h : ∀ i, s'.propPc i = .waitAck → s'.subQ i = [] → s.propPc i = .waitAck ∧ s.subQ i = [])
    (pc : HsRecvPc) : pc.work c (s'.needsAck c) ≤ pc.work c (s.needsAck c) := by
  refine HsRecvPc.work_mono (fun hn => ?_) pc
  obtain ⟨i, h1, h2⟩ := HsState.needsAck_iff.mp hn
  exact HsState.needsAck_iff.mpr ⟨i, h i h1 h2⟩

/-- 一つの propagator の分だけが減る一歩。 -/
theorem HsState.work_lt_of_prop [DecidableEq ι] {i : ι} (hoff : ∀ k, k ≠ i → s'.propWork k = s.propWork k)
    (hlt : s'.propWork i < s.propWork i)
    (hrecv : s'.recvPc.work c (s'.needsAck c) ≤ s.recvPc.work c (s.needsAck c)) :
    s'.work c < s.work c := by
  have hsum := Lts.sum_map_of_eq_off c.props_nodup (c.mem_props i) hoff
  simp only [HsState.work]
  omega

/-! ## receiver の一歩 -/

/-- message を読んで、receiver の仕事は増えない。 -/
theorem HsConfig.onPush_work {peers : List NodeId} {msg : WireMsg V} {pc : HsRecvPc}
    {r : HsRecvPc × List NodeId} (need : Bool) (h : c.onPush peers msg pc = some (.ok r)) :
    r.1.work c need ≤ pc.work c need := by
  cases pc with
  | init n =>
    simp only [HsConfig.onPush, HsConfig.onInit] at h
    split at h
    · cases h
    · cases h
      split
      · exact le_rfl
      · rw [c.loopHead_zero]
        exact le_rfl
  | ack n => cases h
  | drain n =>
    simp only [HsConfig.onPush, HsConfig.onAckAck] at h
    split at h
    · cases h
    · split at h
      · cases h
        split
        · next hn => simp [HsConfig.loopHead, hn, HsRecvPc.work]
        · exact le_rfl
      · cases h
  | start => cases h
  | run =>
    simp only [HsConfig.onPush] at h
    split at h
    · cases h
    · cases h
      exact le_rfl

/-- 全員に publish すると、queue は一つずつ伸びる。 -/
theorem HsState.propWork_publish {pc : HsRecvPc} (msg : WireMsg V) {i : ι}
    (hsub : s.subscribed i = true) :
    (HsState.publish { s with recvPc := pc } msg).propWork i = s.propWork i + 1 := by
  simp [HsState.propWork, HsState.publish, hsub]
  omega

theorem HsState.sum_propWork_publish (pc : HsRecvPc) (msg : WireMsg V)
    (hsub : ∀ i, s.subscribed i = true) :
    (c.props.map (HsState.publish { s with recvPc := pc } msg).propWork).sum
      = (c.props.map s.propWork).sum + c.numExpectedPropagators := by
  rw [List.map_congr_left fun i _ => HsState.propWork_publish msg (hsub i), List.sum_map_add]
  simp [HsConfig.numExpectedPropagators]

/-! ## 仕事の減る一歩 -/

section step

variable [DecidableEq ι] {l : HsLabel ι V}

omit [DecidableEq ι] in
/-- Step 1 を終えた receiver から見て、まだ何も送っていない propagator は無い。 -/
theorem HsInv.ne_sendInit (hi : HsInv c s) {n : Nat} (hpc : s.recvPc = .drain n) (i : ι) :
    s.propPc i ≠ .sendInit := by
  intro h
  have hprop := hi.prop i
  rw [h] at hprop
  have htaken := hi.taken_le i
  have hrecv := hi.recv
  rw [hpc] at hrecv
  generalize s.published = pub at hrecv
  generalize s.pushed i = pushed at hprop htaken
  generalize s.got i = got at hprop
  cases hprop
  cases hrecv with
  | acking a _ hn =>
    have h1 := (hn i).1
    simp at htaken
    simp [htaken] at h1

/-- propagator が handshake の message を送る。 -/
theorem HsState.work_push {i : ι} {pc : HsPropPc} {msg : WireMsg V}
    (hlt : pc.work + 1 < (s.propPc i).work) (hpc : pc ≠ .waitAck ∨ ∀ n, s.recvPc ≠ .drain n) :
    (HsState.push { s with propPc := Function.update s.propPc i pc } i msg).work c < s.work c := by
  refine HsState.work_lt_of_prop (i := i) (fun k hk => ?_) ?_ ?_
  · simp [HsState.propWork, HsState.push, Function.update_of_ne hk]
  · simp [HsState.propWork, HsState.push]
    omega
  · rcases hpc with hpc | hpc
    · refine HsState.needsAck_mono (fun k h1 h2 => ?_) _
      by_cases hk : k = i
      · subst hk
        simp [HsState.push, hpc] at h1
      · simp only [HsState.push, Function.update_of_ne hk] at h1 h2
        exact ⟨h1, h2⟩
    · cases hr : s.recvPc with
      | drain n => exact absurd hr (hpc n)
      | _ => simp [HsState.push, HsRecvPc.work]

/-- 読んだ propagator は、もう `PropInitACK` を待たない。 -/
theorem HsPropPc.onSub_work {pc pc' : HsPropPc} {msg : WireMsg V}
    (h : pc.onSub msg = some (.ok pc')) : pc'.work ≤ pc.work ∧ pc' ≠ .waitAck := by
  cases pc with
  | sendInit | sendAckAck => cases h
  | waitAck =>
    simp only [HsPropPc.onSub] at h
    split at h
    · cases h
    · split at h
      · cases h; exact ⟨le_rfl, by rintro ⟨⟩⟩
      · cases h
  | waitStart =>
    simp only [HsPropPc.onSub] at h
    split at h
    · cases h
    · split at h
      · cases h; exact ⟨le_rfl, by rintro ⟨⟩⟩
      · cases h; exact ⟨le_rfl, by rintro ⟨⟩⟩
  | run =>
    simp only [HsPropPc.onSub] at h
    split at h
    · cases h
    · cases h; exact ⟨le_rfl, by rintro ⟨⟩⟩

/-- **役に立つ一歩は、必ず仕事を減らす。** -/
theorem HsInv.work_lt (hi : HsInv c s) (hu : l.Useful c s) (h : hsStep c s l = some (.ok s')) :
    s'.work c < s.work c := by
  cases l with
  | subscribe i =>
    simp only [hsStep] at h
    split at h
    · cases h
    · next hsub =>
      cases h
      refine HsState.work_lt_of_prop (i := i) (fun k hk => ?_) ?_ ?_
      · simp [HsState.propWork, Function.update_of_ne hk]
      · simp [HsState.propWork, hsub]
      · exact HsState.needsAck_mono (fun k h1 h2 => ⟨h1, h2⟩) _
  | send i =>
    simp only [hsStep] at h
    split at h
    · next hpc =>
      cases h
      refine HsState.work_push (by simp [hpc, HsPropPc.work]) (Or.inr fun n hr => ?_)
      exact hi.ne_sendInit hr i hpc
    · next hpc =>
      cases h
      exact HsState.work_push (by simp [hpc, HsPropPc.work]) (Or.inl (by rintro ⟨⟩))
    · cases h
  | recvSub i =>
    simp only [hsStep] at h
    split at h
    · cases h
    · next msg rest hq =>
      obtain ⟨pc, hpc, rfl⟩ := map_map_ok h
      obtain ⟨hle, hne⟩ := HsPropPc.onSub_work hpc
      refine HsState.work_lt_of_prop (i := i) (fun k hk => ?_) ?_ ?_
      · simp [HsState.propWork, Function.update_of_ne hk]
      · simp [HsState.propWork, hq]
        omega
      · refine HsState.needsAck_mono (fun k h1 h2 => ?_) _
        by_cases hk : k = i
        · subst hk
          simp [hne] at h1
        · simp only [Function.update_of_ne hk] at h1 h2
          exact ⟨h1, h2⟩
  | sendMain | publishMain => exact hu.elim
  | publish =>
    simp only [hsStep] at h
    split at h
    · next n hpc =>
      cases h
      have hsum := HsState.sum_propWork_publish (c := c) (.drain n) .propInitACK hu
      -- 全員の queue に届いたので、待つ propagator はもういない。
      have hneed : (HsState.publish { s with recvPc := .drain n } .propInitACK).needsAck c = false := by
        rw [← Bool.not_eq_true, HsState.needsAck_iff]
        rintro ⟨i, -, hq⟩
        simp [HsState.publish, hu i] at hq
      simp only [HsState.work, hsum, hneed, hpc]
      simp [HsState.publish, HsRecvPc.work]
      omega
    · next hpc =>
      cases h
      have hsum := HsState.sum_propWork_publish (c := c) .run .propStart hu
      simp only [HsState.work, hsum, hpc]
      simp [HsState.publish, HsRecvPc.work]
      omega
    · cases h
  | recvPush i =>
    simp only [hsStep] at h
    split at h
    · cases h
    · next msg rest hq =>
      obtain ⟨r, hr, rfl⟩ := map_map_ok h
      refine HsState.work_lt_of_prop (i := i) (fun k hk => ?_) ?_ ?_
      · simp [HsState.propWork, Function.update_of_ne hk]
      · simp [HsState.propWork, hq]
      · exact HsConfig.onPush_work _ hr
  | recvNothing =>
    simp only [hsStep] at h
    split at h
    · next n hpc =>
      cases h
      have hn : n < c.numExpectedPropagators := by
        have hrecv := hi.recv
        rw [hpc] at hrecv
        generalize s.published = pub at hrecv
        cases hrecv with
        | acking a h0 _ _ hlt =>
          rcases h0 with h0 | h0 <;> cases h0
          exact hlt
      have hneed : s.needsAck c = true := hu
      have hhead : c.loopHead n = .ack n := if_pos hn
      have hsame : ({ s with recvPc := .ack n } : HsState ι V).propWork = s.propWork := rfl
      simp only [HsState.work, hhead, hsame, hpc, hneed, HsRecvPc.work, if_true]
      omega
    · cases h

/-! ## 選べる一歩が無い時 -/

theorem PropOk.pushed_pos {id : NodeId} {pc : HsPropPc} {pushed got : List (WireMsg V)}
    (h : PropOk id pc pushed got) (hpc : pc = .waitAck ∨ pc = .waitStart ∨ pc = .run) :
    0 < pushed.length := by
  cases h with
  | sendInit => rcases hpc with h | h | h <;> cases h
  | _ => simp

theorem PropOk.pushed_two {id : NodeId} {pc : HsPropPc} {pushed got : List (WireMsg V)}
    (h : PropOk id pc pushed got) (hpc : pc = .waitStart ∨ pc = .run) : 2 ≤ pushed.length := by
  cases h with
  | sendInit | waitAck | sendAckAck => rcases hpc with h | h <;> cases h
  | _ => simp

omit [DecidableEq ι] in
/-- 数が全員に足りなければ、条件を満たさない propagator がいる。 -/
theorem HsConfig.exists_of_countP {p : ι → Bool} (h : c.props.countP p < c.numExpectedPropagators) :
    ∃ i, p i = false := by
  by_contra hall
  have hlen : c.props.countP p = c.props.length := by
    rw [List.countP_eq_length]
    intro i _
    rw [← Bool.not_eq_false]
    exact fun hp => hall ⟨i, hp⟩
  rw [hlen] at h
  exact lt_irrefl _ h

/-- 選べる一歩が無い。 -/
def HsState.Blocked (c : HsConfig ι) (s : HsState ι V) : Prop :=
  ∀ l : HsLabel ι V, l.Useful c s → hsStep c s l = none

namespace HsState.Blocked

variable (hb : s.Blocked c)

include hb

theorem subscribed (i : ι) : s.subscribed i = true := by
  have h := hb (.subscribe i) trivial
  cases hs : s.subscribed i with
  | true => rfl
  | false => simp [hsStep, hs] at h

theorem propPc (i : ι) : s.propPc i = .waitAck ∨ s.propPc i = .waitStart ∨ s.propPc i = .run := by
  have h := hb (.send i) trivial
  cases hs : s.propPc i with
  | sendInit | sendAckAck => simp [hsStep, hs] at h
  | waitAck => exact Or.inl rfl
  | waitStart => exact Or.inr (Or.inl rfl)
  | run => exact Or.inr (Or.inr rfl)

/-- 待つ propagator は、届いた message をいつでも読める。 -/
theorem subQ (i : ι) : s.subQ i = [] := by
  have h := hb (.recvSub i) trivial
  cases hq : s.subQ i with
  | nil => rfl
  | cons msg rest =>
    simp only [hsStep, hq, Option.map_eq_none_iff] at h
    rcases hb.propPc i with hs | hs | hs <;> simp only [hs, HsPropPc.onSub] at h
    · split at h
      · cases h
      · split at h <;> cases h
    · split at h
      · cases h
      · split at h <;> cases h
    · split at h <;> cases h

/-- 全員が購読しているので、receiver の publish は待たされない。 -/
theorem recvPc : (∀ n, s.recvPc ≠ .ack n) ∧ s.recvPc ≠ .start := by
  have h := hb .publish hb.subscribed
  constructor
  · intro n hr
    simp [hsStep, hr] at h
  · intro hr
    simp [hsStep, hr] at h

/-- publish を済ませた receiver は、届いた message をいつでも読める。 -/
theorem pushQ (i : ι) : s.pushQ i = [] := by
  have h := hb (.recvPush i) trivial
  cases hq : s.pushQ i with
  | nil => rfl
  | cons msg rest =>
    simp only [hsStep, hq, Option.map_eq_none_iff] at h
    cases hr : s.recvPc with
    | init n => simp [hr, HsConfig.onPush] at h
    | ack n => exact absurd hr (hb.recvPc.1 n)
    | drain n => simp [hr, HsConfig.onPush] at h
    | start => exact absurd hr hb.recvPc.2
    | run =>
      simp only [hr, HsConfig.onPush] at h
      split at h <;> cases h

end HsState.Blocked

/-- 送られた message は全て読まれている。 -/
theorem HsInv.length_pushed (hi : HsInv c s) (hb : s.Blocked c) (i : ι) :
    (s.pushed i).length = (s.taken i).length := by
  rw [hi.pushes i, hb.pushQ i, List.append_nil]

/-- 全員が `PropInit` を送り、全て読まれているので、Step 1 で待つ receiver はいない。 -/
theorem HsInv.not_init (hi : HsInv c s) (hb : s.Blocked c) (n : Nat) : s.recvPc ≠ .init n := by
  intro hr
  have hrecv := hi.recv
  rw [hr] at hrecv
  generalize s.published = pub at hrecv
  cases hrecv with
  | init _ hn hlt =>
    obtain ⟨i, hnum⟩ := HsConfig.exists_of_countP (hn ▸ hlt)
    have hl := hi.length_pushed hb i
    have hsent := (hi.prop i).pushed_pos (hb.propPc i)
    have hzero := of_decide_eq_false hnum
    dsimp only at hzero
    omega
  | acking _ h0 => rcases h0 with h0 | h0 <;> cases h0

/-- 返事を待つ receiver は、まだ `PropInitACK` を待つ propagator のために publish し直せる。 -/
theorem HsInv.not_drain (hi : HsInv c s) (hb : s.Blocked c) (n : Nat) : s.recvPc ≠ .drain n := by
  intro hr
  have hrecv := hi.recv
  rw [hr] at hrecv
  generalize s.published = pub at hrecv
  cases hrecv with
  | acking a h0 hnum hn hlt =>
    rcases h0 with h0 | h0 <;> cases h0
    obtain ⟨i, hi2⟩ := HsConfig.exists_of_countP (hn ▸ hlt)
    have hl := hi.length_pushed hb i
    have hwait : s.propPc i = .waitAck := by
      rcases hb.propPc i with h | h
      · exact h
      · have htwo := (hi.prop i).pushed_two h
        have hone := of_decide_eq_false hi2
        dsimp only at hone
        omega
    have h := hb .recvNothing (HsState.needsAck_iff.mpr ⟨i, hwait, hb.subQ i⟩)
    simp [hsStep, hr] at h

/-- receiver が main loop に入っていれば、どの propagator も `PropStart` を読んでいる。 -/
theorem HsInv.propPc_run (hi : HsInv c s) (hb : s.Blocked c) (hr : s.recvPc = .run) (i : ι) :
    s.propPc i = .run := by
  have hmem : WireMsg.propStart ∈ s.published := by
    have hrecv := hi.recv
    rw [hr] at hrecv
    generalize s.published = pub at hrecv ⊢
    cases hrecv with
    | acking _ h0 => rcases h0 with h0 | h0 <;> cases h0
    | run => simp
  -- queue は空で、逃したのは `PropInitACK` だけなので、`PropStart` は読んである。
  obtain ⟨a, hmissed⟩ := hi.missed i
  rw [hi.stream i, hmissed, hb.subQ i, List.append_nil, List.mem_append] at hmem
  rcases hmem with hmem | hmem
  · cases List.eq_of_mem_replicate hmem
  · exact (hi.prop i).run_iff.mpr hmem

/-- **選べる一歩が無ければ、handshake は済んでいる。** -/
theorem HsInv.done_of_blocked (hi : HsInv c s) (hb : s.Blocked c) :
    s.recvPc = .run ∧ ∀ i, s.propPc i = .run := by
  have hrun : s.recvPc = .run := by
    cases hr : s.recvPc with
    | init n => exact absurd hr (hi.not_init hb n)
    | ack n => exact absurd hr (hb.recvPc.1 n)
    | drain n => exact absurd hr (hi.not_drain hb n)
    | start => exact absurd hr hb.recvPc.2
    | run => rfl
  exact ⟨hrun, hi.propPc_run hb hrun⟩

end step

end QuiltDB
