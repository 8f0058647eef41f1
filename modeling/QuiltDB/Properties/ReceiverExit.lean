import QuiltDB.Lib.Lts
import QuiltDB.Properties.Handlers

/-!
# receiver の終了

receiver thread だけを取り出し、どんな順で message を処理しても、
待っている message がそろった時に `return` しているかを調べる。

終了の判定は `EPRInternalTerminate`（TERM_SELF の時）と `EPRTerminateACK` の分岐にあり、
`ERInternalTerminate` の分岐には無い。そこで `ERInternalTerminate` が最後に来ると
`return` しない。`receiver_exit_iff` はそれがちょうどその場合に限ることを言う。
-/

namespace QuiltDB

/-! ## receiver だけの遷移系 -/

/-- receiver thread が読む message。 -/
inductive RecvInput (V : Type) where
  | internal (msg : ReceiverMsg V)
  | tcp (msg : PropRecvMsg V)
  deriving DecidableEq

namespace RecvInput

variable {V : Type}

/-- application からの終了の合図 -/
abbrev er : RecvInput V := .internal .erInternalTerminate
/-- paired propagator からの終了の合図 -/
abbrev epr : RecvInput V := .internal .eprInternalTerminate
/-- 上流の propagator `id` からの ACK -/
abbrev peerAck (id : NodeId) : RecvInput V := .tcp (.eprTerminateACK id)

/-- 終了の判定をする分岐に入る message。 -/
def tests : RecvInput V → Bool
  | .internal .eprInternalTerminate => true
  | .tcp (.eprTerminateACK _) => true
  | _ => false

end RecvInput

/-- receiver thread の一歩。`return` した後は動かない。 -/
def recvStep {V : Type} (c : NodeConfig V) (s : Receiver V × (TableId → Storage V))
    (i : RecvInput V) : Option (Except Fault (Receiver V × (TableId → Storage V))) :=
  if s.1.state = .term then none
  else
    match i with
    | .internal msg => some ((s.1.handleInternal c msg).map fun res => (res.1, s.2))
    | .tcp msg => some ((s.1.handleTcp c s.2 msg).map fun res => (res.1, res.2.1))

/-- `ms` を順に処理した receiver の状態。 -/
def RecvRun {V : Type} (c : NodeConfig V) (storage : TableId → Storage V)
    (ms : List (RecvInput V)) (s : Receiver V × (TableId → Storage V)) : Prop :=
  Lts.run (recvStep c) (Receiver.start c, storage) ms = some s

namespace ReceiverExit

variable {V : Type} [DecidableEq V] {c : NodeConfig V} {storage : TableId → Storage V}
  {ms : List (RecvInput V)} {r r' : Receiver V}

open RecvInput

/-- `ERInternalTerminate` の後に、終了の判定をする message を処理した。 -/
def TestedAfter (ms : List (RecvInput V)) : Prop :=
  ∃ pre post, ms = pre ++ er :: post ∧ ∃ i ∈ post, i.tests = true

omit [DecidableEq V] in
theorem TestedAfter.er_mem (h : TestedAfter ms) : er ∈ ms := by
  obtain ⟨pre, post, rfl, -⟩ := h
  simp

omit [DecidableEq V] in
theorem testedAfter_concat {m : RecvInput V} :
    TestedAfter (ms ++ [m]) ↔ TestedAfter ms ∨ er ∈ ms ∧ m.tests = true := by
  constructor
  · rintro ⟨pre, post, heq, i, hi, ht⟩
    rcases List.eq_nil_or_concat post with rfl | ⟨post', x, rfl⟩
    · cases hi
    · rw [List.concat_eq_append, ← List.cons_append, ← List.append_assoc] at heq
      obtain ⟨rfl, hx⟩ := List.append_inj' heq rfl
      rw [List.concat_eq_append, List.mem_append, List.mem_singleton] at hi
      rcases hi with hi | rfl
      · exact Or.inl ⟨pre, post', rfl, i, hi, ht⟩
      · rw [List.singleton_inj] at hx
        exact Or.inr ⟨by simp, hx ▸ ht⟩
  · rintro (⟨pre, post, rfl, i, hi, ht⟩ | ⟨her, ht⟩)
    · exact ⟨pre, post ++ [m], by simp, i, by simp [hi], ht⟩
    · obtain ⟨pre, post, rfl⟩ := List.append_of_mem her
      exact ⟨pre, post ++ [m], by simp, m, by simp, ht⟩

/--
処理した message の列 `ms` と receiver の状態の関係。

`ERInternalTerminate` は高々一度しか処理していないものとする。
-/
structure Tracks (c : NodeConfig V) (ms : List (RecvInput V)) (r : Receiver V) : Prop where
  /-- `ERInternalTerminate` の前は RUN である。 -/
  running : er ∉ ms → r.state = .run ∧ r.haveRepliedPropPairTerm = false ∧
    (r.haveReceivedPropPairTerm = true ↔ epr ∈ ms)
  /-- 後は、paired propagator に返事をしたかどうかが `EPRInternalTerminate` の有無で決まる。 -/
  stopping : er ∈ ms → (r.haveRepliedPropPairTerm = true ↔ epr ∈ ms) ∧
    (r.state = .termSelf ∨ r.state = .term)
  peers : ∀ id, r.peerPropInfo.lookup id =
    if peerAck id ∈ ms then some true else if id ∈ c.expected then some false else none
  /-- `return` しているのは、合図の後に判定のある message が来た時に限る。 -/
  tested : r.state = .term ↔ r.haveRepliedPropPairTerm = true ∧
    Receiver.hasAllPeersAckedTerm r.peerPropInfo = true ∧ TestedAfter ms

theorem tracks_start : Tracks c [] (Receiver.start c) where
  running := fun _ => ⟨rfl, rfl, by simp [Receiver.start]⟩
  stopping := fun h => by cases h
  peers := fun id => by simp [Receiver.start, Receiver.lookup_initPeers]
  tested := by
    constructor
    · intro h; cases h
    · rintro ⟨h, -⟩; cases h

/-- 終了に関わらない message は、`my_updates` しか変えなければ関係を保つ。 -/
theorem Tracks.neutral (h : Tracks c ms r) {m : RecvInput V}
    {q : TableId → Option (List (UpdateBuffer V))} (h1 : m ≠ er) (h2 : m ≠ epr)
    (h3 : ∀ id, m ≠ peerAck id) : Tracks c (ms ++ [m]) { r with myUpdates := q } := by
  have hm : ∀ x : RecvInput V, x ≠ m → (x ∈ ms ++ [m] ↔ x ∈ ms) := fun x hx => by simp [hx]
  have ht : m.tests = false := by
    unfold RecvInput.tests
    split
    · exact absurd rfl h2
    · exact absurd rfl (h3 _)
    · rfl
  refine ⟨fun he => ?_, fun he => ?_, fun id => ?_, ?_⟩
  · rw [hm _ h1.symm] at he
    rw [hm _ h2.symm]
    exact h.running he
  · rw [hm _ h1.symm] at he
    rw [hm _ h2.symm]
    exact h.stopping he
  · simp only [hm _ (h3 id).symm]
    exact h.peers id
  · rw [testedAfter_concat, ht]
    simpa using h.tested

/-- `ERInternalTerminate`。判定が無いので `return` しない。 -/
theorem Tracks.er_step (h : Tracks c ms r) (her : er ∉ ms) :
    Tracks c (ms ++ [er]) (r.onInternalTerminate c).1 := by
  obtain ⟨hs, hrep, hrec⟩ := h.running her
  refine ⟨fun he => absurd (by simp) he, fun _ => ⟨?_, Or.inl rfl⟩, fun id => ?_, ?_⟩
  · simp [Receiver.onInternalTerminate, hrep, hrec]
  · simpa [Receiver.onInternalTerminate] using h.peers id
  · constructor
    · intro ht; cases ht
    · rintro ⟨-, -, ht⟩
      rcases testedAfter_concat.mp ht with ht | ⟨-, ht⟩
      · exact absurd ht.er_mem her
      · cases ht

/-- 判定をする message。合図の前なら `return` しない。 -/
theorem Tracks.test_step (h : Tracks c ms r) (hne : r.state ≠ .term) {m : RecvInput V}
    {peers : AList fun _ : NodeId => Bool} {replied : Bool} (ht : m.tests = true)
    (her : er ∈ ms) (hrep : replied = true ↔ epr ∈ ms ++ [m])
    (hpeers : ∀ id, peers.lookup id = if peerAck id ∈ ms ++ [m] then some true
      else if id ∈ c.expected then some false else none) :
    Tracks c (ms ++ [m])
      (Receiver.exitTest { r with peerPropInfo := peers, haveRepliedPropPairTerm := replied }) := by
  have hs : r.state = .termSelf := (h.stopping her).2.resolve_right hne
  rw [Receiver.exitTest_eq]
  refine ⟨fun he => absurd (by simp [her]) he, fun _ => ⟨hrep, ?_⟩, hpeers, ?_⟩
  · dsimp only
    split
    · exact Or.inr rfl
    · exact Or.inl hs
  · rw [testedAfter_concat]
    simp only [her, ht, and_self, or_true, and_true, hs]
    cases Receiver.hasAllPeersAckedTerm peers <;> cases replied <;> simp

/-- `EPRInternalTerminate`。合図の後なら返事をして判定する。 -/
theorem Tracks.epr_step (h : Tracks c ms r) (hne : r.state ≠ .term) {out : RecvOut V}
    (hok : r.onPropInternalTerminate = .ok (r', out)) : Tracks c (ms ++ [epr]) r' := by
  have hlook : ∀ id, r.peerPropInfo.lookup id = if peerAck id ∈ ms ++ [epr] then some true
      else if id ∈ c.expected then some false else none := fun id => by simpa using h.peers id
  rcases Receiver.onPropInternalTerminate_ok_cases hok with ⟨hs, rfl, -⟩ | ⟨hs, rfl, -⟩
  · have her : er ∉ ms := fun he => by
      rcases (h.stopping he).2 with hc | hc <;> rw [hs] at hc <;> cases hc
    obtain ⟨-, hrep, -⟩ := h.running her
    refine ⟨fun _ => ⟨hs, hrep, by simp⟩, fun he => ?_, hlook, ?_⟩
    · exact absurd (by simpa using he) her
    · simp [hs, hrep]
  · have her : er ∈ ms := by
      by_contra he
      rw [(h.running he).1] at hs
      cases hs
    exact h.test_step hne rfl her (by simp) hlook

/-- `EPRTerminateACK`。送ってきた propagator に印を付けて判定する。 -/
theorem Tracks.ack_step (h : Tracks c ms r) (hne : r.state ≠ .term) (id : NodeId) :
    Tracks c (ms ++ [peerAck id]) (r.onTerminateACK id) := by
  have hlook : ∀ x, (r.peerPropInfo.insert id true).lookup x =
      if peerAck x ∈ ms ++ [peerAck id] then some true
      else if x ∈ c.expected then some false else none := by
    intro x
    by_cases hx : x = id
    · subst hx; simp
    · rw [AList.lookup_insert_ne hx, h.peers x]
      simp [hx]
  by_cases her : er ∈ ms
  · exact h.test_step hne rfl her (by simpa using (h.stopping her).1) hlook
  · obtain ⟨hs, hrep, hrec⟩ := h.running her
    rw [Receiver.onTerminateACK, Receiver.exitTest_eq]
    refine ⟨fun _ => ⟨by simp [hs, hrep], hrep, by simpa using hrec⟩, fun he => ?_, hlook, ?_⟩
    · exact absurd (by simpa using he) her
    · simp [hs, hrep]

/-- どの message を処理しても関係は保たれる。 -/
theorem Tracks.step (h : Tracks c ms r) {a b : TableId → Storage V} {m : RecvInput V}
    (hcount : er ∈ ms → m ≠ er) (hok : recvStep c (r, a) m = some (.ok (r', b))) :
    Tracks c (ms ++ [m]) r' := by
  unfold recvStep at hok
  split at hok
  · cases hok
  · next hne =>
    cases m with
    | internal msg =>
      cases msg with
      | erInternalTerminate =>
        cases hok
        exact h.er_step fun he => hcount he rfl
      | eprInternalTerminate =>
        simp only [Receiver.handleInternal, Option.some.injEq] at hok
        cases hp : r.onPropInternalTerminate with
        | error e => rw [hp] at hok; cases hok
        | ok res =>
          rw [hp] at hok
          cases hok
          exact h.epr_step hne hp
      | eMyUpdates t b =>
        cases hok
        unfold Receiver.onMyUpdates
        dsimp only
        split
        · exact h.neutral (by simp) (by simp) (by simp)
        · exact h.neutral (q := r.myUpdates) (by simp) (by simp) (by simp)
    | tcp msg =>
      cases msg with
      | eprUpdateBuffer t buff =>
        simp only [Receiver.handleTcp, Option.some.injEq] at hok
        cases hp : r.onUpdateBuffer c a t buff with
        | error e => rw [hp] at hok; cases hok
        | ok res =>
          rw [hp] at hok
          cases hok
          obtain ⟨⟨mu, hmu⟩, -⟩ := Receiver.onUpdateBuffer_ok_cases hp
          rw [hmu]
          exact h.neutral (by simp) (by simp) (by simp)
      | eprTerminate => cases hok
      | eprTerminateACK id =>
        cases hok
        exact h.ack_step hne id

/-- run の全体についての関係。 -/
theorem tracks_run {s : Receiver V × (TableId → Storage V)} (hrun : RecvRun c storage ms s)
    (hcount : ms.count er ≤ 1) : Tracks c ms s.1 := by
  induction ms using List.reverseRecOn generalizing s with
  | nil =>
    cases hrun
    exact tracks_start
  | append_singleton ms m ih =>
    obtain ⟨s₁, h1, h2⟩ := Lts.run_concat hrun
    rw [List.count_append] at hcount
    refine (ih h1 (by omega)).step (a := s₁.2) (b := s.2) (fun he hm => ?_) h2
    subst hm
    have : 0 < ms.count er := List.count_pos_iff.mpr he
    simp only [List.count_singleton_self] at hcount
    omega

end ReceiverExit

open RecvInput in
/--
**receiver がそろって終了する条件。**

`ERInternalTerminate` と `EPRInternalTerminate` を一度ずつ、待っている propagator 全員の
`EPRTerminateACK` を処理した receiver が `return` しているのは、`ERInternalTerminate` の後に
`EPRInternalTerminate` か `EPRTerminateACK` を処理した時、かつその時に限る。
-/
theorem receiver_exit_iff {V : Type} [DecidableEq V] (c : NodeConfig V)
    (storage : TableId → Storage V) (ms : List (RecvInput V))
    (s : Receiver V × (TableId → Storage V)) (hrun : RecvRun c storage ms s)
    (her : ms.count er = 1) (hepr : ms.count epr = 1)
    (hacks : ∀ id ∈ c.expected, peerAck id ∈ ms) :
    s.1.state = .term ↔
      ∃ pre post, ms = pre ++ er :: post ∧ (epr ∈ post ∨ ∃ id, peerAck id ∈ post) := by
  have h := ReceiverExit.tracks_run hrun (by omega)
  have hmem : er ∈ ms := List.count_pos_iff.mp (by omega)
  have hrep : s.1.haveRepliedPropPairTerm = true :=
    (h.stopping hmem).1.mpr (List.count_pos_iff.mp (by omega))
  have hall : Receiver.hasAllPeersAckedTerm s.1.peerPropInfo = true := by
    rw [Receiver.hasAllPeersAckedTerm_iff]
    intro id b hb
    rw [h.peers] at hb
    split at hb
    · exact (Option.some.inj hb).symm
    · next hna =>
      split at hb
      · next hid => exact absurd (hacks id hid) hna
      · cases hb
  rw [h.tested]
  simp only [hrep, hall, true_and]
  constructor
  · rintro ⟨pre, post, heq, i, hi, ht⟩
    refine ⟨pre, post, heq, ?_⟩
    unfold RecvInput.tests at ht
    split at ht
    · exact Or.inl hi
    · next id => exact Or.inr ⟨id, hi⟩
    · cases ht
  · rintro ⟨pre, post, heq, hi | ⟨id, hi⟩⟩
    · exact ⟨pre, post, heq, _, hi, rfl⟩
    · exact ⟨pre, post, heq, _, hi, rfl⟩

/-- 下流が無く、上流が `expected` の node。 -/
def tailNode (expected : List NodeId) : NodeConfig (BitVec 32) where
  myId := 0
  nanosec := 500000
  downstreamRecv := -1
  expected := expected
  tableDir := ∅

open RecvInput in
/-- 上流が一つある node。ACK は合図の後に来るので、ACK の分岐で `return` する。 -/
theorem receiver_exit_one_upstream :
    ∃ s, RecvRun (tailNode [7]) (fun _ _ => 0) [epr, er, peerAck 7] s ∧ s.1.state = .term := by
  obtain ⟨s, hs⟩ := Option.isSome_iff_exists.mp (show (Lts.run (recvStep (tailNode [7]))
    (Receiver.start (tailNode [7]), fun _ _ => 0) [epr, er, peerAck 7]).isSome = true
    by decide +kernel)
  refine ⟨s, hs, (receiver_exit_iff _ _ _ s hs (by decide) (by decide) (by decide)).mpr ?_⟩
  exact ⟨[epr], [peerAck 7], rfl, Or.inr ⟨7, by decide⟩⟩

open RecvInput in
/--
上流の無い node。`EPRInternalTerminate` が先に来ると、待つ message がもう無いのに
`return` しない。
-/
theorem receiver_stuck_without_upstream :
    ∃ ms s, RecvRun (tailNode []) (fun _ _ => 0) ms s ∧ ms.count er = 1 ∧ ms.count epr = 1 ∧
      (∀ id ∈ (tailNode []).expected, peerAck id ∈ ms) ∧ s.1.state ≠ .term := by
  obtain ⟨s, hs, ht⟩ : ∃ s, RecvRun (tailNode []) (fun _ _ => 0) [epr, er] s ∧
      s.1.state = .termSelf :=
    Lts.exists_run (by decide +kernel)
  refine ⟨[epr, er], s, hs, by decide, by decide, by decide, ?_⟩
  rw [ht]
  decide

end QuiltDB
