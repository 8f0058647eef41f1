import QuiltDB.Comm.Handshake

/-!
# handshake の安全性

上流の propagator が `PropInit` と `PropInitACKACK` を一つずつ送り、receiver がその両方を全員から受け取って
から `PropStart` を publish することを、履歴についての不変量として示す。そこから、四段のどの `CHECK` も
落ちないこと、main loop に handshake の message が残らないことが従う。
-/

namespace QuiltDB

variable {ι V : Type}

/-! ## 一歩の場合分け -/

section step

variable [DecidableEq ι] {c : HsConfig ι} {s s' : HsState ι V} {l : HsLabel ι V}

/-- handshake の一歩。 -/
inductive HsStep (c : HsConfig ι) (s : HsState ι V) : HsState ι V → Prop
  | subscribe {i} : s.subscribed i = false →
      HsStep c s { s with subscribed := Function.update s.subscribed i true }
  | sendInit {i} : s.propPc i = .sendInit →
      HsStep c s ({ s with propPc := Function.update s.propPc i .waitAck }.push i
        (.propInit (c.id i)))
  | sendAckAck {i} : s.propPc i = .sendAckAck →
      HsStep c s ({ s with propPc := Function.update s.propPc i .waitStart }.push i
        (.propInitACKACK (c.id i)))
  | recvSub {i msg rest pc} : s.subQ i = msg :: rest → (s.propPc i).onSub msg = some (.ok pc) →
      HsStep c s { s with propPc := Function.update s.propPc i pc
                          subQ := Function.update s.subQ i rest
                          got := Function.update s.got i (s.got i ++ [msg]) }
  | sendMain {i msg} : s.propPc i = .run → HsStep c s (s.push i (.main msg))
  | publishAck {n} : s.recvPc = .ack n →
      HsStep c s ({ s with recvPc := .drain n }.publish .propInitACK)
  | publishStart : s.recvPc = .start → HsStep c s ({ s with recvPc := .run }.publish .propStart)
  | recvPush {i msg rest r} : s.pushQ i = msg :: rest →
      c.onPush s.peers msg s.recvPc = some (.ok r) →
      HsStep c s { s with recvPc := r.1
                          peers := r.2
                          pushQ := Function.update s.pushQ i rest
                          taken := Function.update s.taken i (s.taken i ++ [msg]) }
  | recvNothing {n} : s.recvPc = .drain n → HsStep c s { s with recvPc := c.loopHead n }
  | publishMain {msg} : s.recvPc = .run → HsStep c s (s.publish (.main msg))

theorem map_map_ok {α β ε : Type} {x : Option (Except ε α)} {f : α → β} {b : β}
    (h : x.map (Except.map f) = some (.ok b)) : ∃ a, x = some (.ok a) ∧ f a = b := by
  obtain ⟨y, rfl, hy⟩ := Option.map_eq_some_iff.mp h
  cases y with
  | error e => cases hy
  | ok a => exact ⟨a, rfl, Except.ok.inj hy⟩

theorem hsStep_ok (h : hsStep c s l = some (.ok s')) : HsStep c s s' := by
  cases l with
  | subscribe i =>
    rw [hsStep] at h
    split at h
    · cases h
    · next hsub =>
      cases h
      exact .subscribe (Bool.eq_false_iff.mpr hsub)
  | send i =>
    rw [hsStep] at h
    split at h
    · next hpc =>
      cases h
      exact .sendInit hpc
    · next hpc =>
      cases h
      exact .sendAckAck hpc
    · cases h
  | recvSub i =>
    rw [hsStep] at h
    split at h
    · cases h
    · next msg rest hq =>
      obtain ⟨pc, hpc, rfl⟩ := map_map_ok h
      exact .recvSub hq hpc
  | sendMain i msg =>
    rw [hsStep] at h
    split at h
    · next hpc =>
      cases h
      exact .sendMain hpc
    · cases h
  | publish =>
    rw [hsStep] at h
    split at h
    · next hpc =>
      cases h
      exact .publishAck hpc
    · next hpc =>
      cases h
      exact .publishStart hpc
    · cases h
  | recvPush i =>
    rw [hsStep] at h
    split at h
    · cases h
    · next msg rest hq =>
      obtain ⟨r, hr, rfl⟩ := map_map_ok h
      exact .recvPush hq hr
  | recvNothing =>
    rw [hsStep] at h
    split at h
    · next hpc =>
      cases h
      exact .recvNothing hpc
    · cases h
  | publishMain msg =>
    rw [hsStep] at h
    split at h
    · next hpc =>
      cases h
      exact .publishMain hpc
    · cases h

/-- 落ちるのは、message を読んだ時だけである。 -/
theorem hsStep_error {e : HsFault} (h : hsStep c s l = some (.error e)) :
    (∃ i msg rest, s.subQ i = msg :: rest ∧ (s.propPc i).onSub msg = some (.error e)) ∨
      ∃ i msg rest, s.pushQ i = msg :: rest ∧ c.onPush s.peers msg s.recvPc = some (.error e) := by
  have hmap : ∀ {α β : Type} {x : Option (Except HsFault α)} {f : α → β},
      x.map (Except.map f) = some (.error e) → x = some (.error e) := by
    intro α β x f hx
    obtain ⟨y, rfl, hy⟩ := Option.map_eq_some_iff.mp hx
    cases y with
    | error e' => rw [Except.error.inj hy]
    | ok a => cases hy
  cases l with
  | recvSub i =>
    rw [hsStep] at h
    split at h
    · cases h
    · next msg rest hq => exact Or.inl ⟨i, msg, rest, hq, hmap h⟩
  | recvPush i =>
    rw [hsStep] at h
    split at h
    · cases h
    · next msg rest hq => exact Or.inr ⟨i, msg, rest, hq, hmap h⟩
  | subscribe i | send i | sendMain i msg | publish | recvNothing | publishMain msg =>
    rw [hsStep] at h
    split at h <;> cases h

end step

/-! ## 不変量 -/

/-- propagator の位置と、それまでに送った message、読んだ message。 -/
inductive PropOk (id : NodeId) : HsPropPc → List (WireMsg V) → List (WireMsg V) → Prop
  | sendInit : PropOk id .sendInit [] []
  | waitAck : PropOk id .waitAck [.propInit id] []
  | sendAckAck : PropOk id .sendAckAck [.propInit id] [.propInitACK]
  | waitStart (n : Nat) :
      PropOk id .waitStart [.propInit id, .propInitACKACK id] (List.replicate (n + 1) .propInitACK)
  | run (n : Nat) (ms ns : List (PropRecvMsg V)) :
      PropOk id .run (.propInit id :: .propInitACKACK id :: ms.map .main)
        (List.replicate (n + 1) .propInitACK ++ .propStart :: ns.map .main)

/-- receiver の位置と、それまでに publish した message、propagator ごとに読んだ message の数。 -/
inductive RecvOk (c : HsConfig ι) : HsRecvPc → List (WireMsg V) → (ι → Nat) → Prop
  | init {n num} : (∀ i, num i ≤ 1) → n = c.props.countP (fun i => decide (1 ≤ num i)) →
      n < c.numExpectedPropagators → RecvOk c (.init n) [] num
  | acking {pc n num} (a : Nat) : pc = .ack n ∨ pc = .drain n → (∀ i, 1 ≤ num i ∧ num i ≤ 2) →
      n = c.props.countP (fun i => decide (2 ≤ num i)) → n < c.numExpectedPropagators →
      RecvOk c pc (List.replicate a .propInitACK) num
  | start {num} (a : Nat) : (∀ i, 2 ≤ num i) → RecvOk c .start (List.replicate a .propInitACK) num
  | run {num} (a : Nat) (ms : List (PropRecvMsg V)) : (∀ i, 2 ≤ num i) →
      RecvOk c .run (List.replicate a .propInitACK ++ .propStart :: ms.map .main) num

structure HsInv (c : HsConfig ι) (s : HsState ι V) : Prop where
  /-- publish された message は、逃したか、読んだか、まだ queue にある。 -/
  stream : ∀ i, s.published = s.missed i ++ s.got i ++ s.subQ i
  unsub : ∀ i, s.subscribed i = false → s.got i = [] ∧ s.subQ i = []
  /-- 逃したのは `PropInitACK` だけである。 -/
  missed : ∀ i, ∃ a, s.missed i = List.replicate a .propInitACK
  /-- 送った message は、receiver が読んだか、まだ queue にある。 -/
  pushes : ∀ i, s.pushed i = s.taken i ++ s.pushQ i
  prop : ∀ i, PropOk (c.id i) (s.propPc i) (s.pushed i) (s.got i)
  recv : RecvOk c s.recvPc s.published fun i => (s.taken i).length
  peers : ∀ id, id ∈ s.peers ↔ ∃ i, c.id i = id ∧ s.taken i ≠ []

/-! ## 読む message -/

section read

variable {c : HsConfig ι} {s : HsState ι V} {i : ι} {id : NodeId} {pc : HsPropPc}
  {pushed got l rest : List (WireMsg V)} {msg : WireMsg V}

/-- propagator の送る message は、何番目かで決まる。 -/
theorem PropOk.pushed_get (h : PropOk id pc pushed got) (hp : pushed = l ++ msg :: rest) :
    (l.length = 0 ∧ msg = .propInit id) ∨ (l.length = 1 ∧ msg = .propInitACKACK id ∧ got ≠ []) ∨
      (2 ≤ l.length ∧ (∃ m, msg = .main m) ∧ pc = .run) := by
  have hget : pushed[l.length]? = some msg := by
    rw [hp, List.getElem?_append_right le_rfl, Nat.sub_self]
    rfl
  cases h with
  | sendInit => cases hget
  | waitAck | sendAckAck =>
    match hl : l.length, hget with
    | 0, hget => exact Or.inl ⟨rfl, (Option.some.inj hget).symm⟩
    | _ + 1, hget => cases hget
  | waitStart n =>
    match hl : l.length, hget with
    | 0, hget => exact Or.inl ⟨rfl, (Option.some.inj hget).symm⟩
    | 1, hget => exact Or.inr (Or.inl ⟨rfl, (Option.some.inj hget).symm, List.cons_ne_nil _ _⟩)
    | _ + 2, hget => cases hget
  | run n ms ns =>
    match hl : l.length, hget with
    | 0, hget => exact Or.inl ⟨rfl, (Option.some.inj hget).symm⟩
    | 1, hget => exact Or.inr (Or.inl ⟨rfl, (Option.some.inj hget).symm, List.cons_ne_nil _ _⟩)
    | k + 2, hget =>
      rw [List.getElem?_cons_succ, List.getElem?_cons_succ, List.getElem?_map,
        Option.map_eq_some_iff] at hget
      obtain ⟨m, -, rfl⟩ := hget
      exact Or.inr (Or.inr ⟨by omega, ⟨m, rfl⟩, rfl⟩)

/-- 二つ以上送った propagator は、`PropInitACK` を読んでいる。 -/
theorem PropOk.got_of_pushed (h : PropOk id pc pushed got) (hp : 2 ≤ pushed.length) :
    .propInitACK ∈ got ∧ (pc = .waitStart ∨ pc = .run) := by
  cases h with
  | sendInit | waitAck | sendAckAck => simp at hp
  | waitStart n => exact ⟨List.mem_cons_self, Or.inl rfl⟩
  | run n ms ns => exact ⟨List.mem_cons_self, Or.inr rfl⟩

theorem PropOk.run_iff (h : PropOk id pc pushed got) : pc = .run ↔ .propStart ∈ got := by
  cases h with
  | sendInit | waitAck | sendAckAck => simp
  | waitStart n => simp
  | run n ms ns => simp

/-- receiver が読んだのは、propagator が送ったものである。 -/
theorem HsInv.taken_le (h : HsInv c s) (i : ι) : (s.taken i).length ≤ (s.pushed i).length := by
  rw [h.pushes i, List.length_append]
  omega

/-- propagator が main loop にいるなら、receiver も main loop にいる。 -/
theorem HsInv.recv_run (h : HsInv c s) (hpc : s.propPc i = .run) : s.recvPc = .run := by
  have hmem : WireMsg.propStart ∈ s.published := by
    rw [h.stream i]
    exact List.mem_append_left _ (List.mem_append_right _ ((h.prop i).run_iff.mp hpc))
  have hrecv := h.recv
  generalize s.recvPc = pc at hrecv
  generalize s.published = pub at hrecv hmem
  cases hrecv with
  | init => cases hmem
  | acking | start => cases List.eq_of_mem_replicate hmem
  | run => rfl

/-- receiver が Step 3 を終えたら、どの propagator も Step 3 を終えている。 -/
theorem HsInv.all_acked (h : HsInv c s) (hpc : s.recvPc = .start ∨ s.recvPc = .run) (i : ι) :
    2 ≤ (s.taken i).length := by
  have hrecv := h.recv
  generalize s.recvPc = pc at hrecv hpc
  generalize s.published = pub at hrecv
  cases hrecv with
  | init => rcases hpc with hpc | hpc <;> cases hpc
  | acking a h0 =>
    rcases hpc with rfl | rfl <;> rcases h0 with h0 | h0 <;> cases h0
  | start a hn => exact hn i
  | run a ms hn => exact hn i

/-- receiver が読む message は、その位置で待っているものである。 -/
theorem HsInv.push_head (h : HsInv c s) (hq : s.pushQ i = msg :: rest) :
    (∃ n, s.recvPc = .init n ∧ s.taken i = [] ∧ msg = .propInit (c.id i)) ∨
    (∃ n, (s.recvPc = .ack n ∨ s.recvPc = .drain n) ∧ (s.taken i).length = 1 ∧
      msg = .propInitACKACK (c.id i)) ∨
    (s.recvPc = .run ∧ ∃ m, msg = .main m) := by
  have hget := (h.prop i).pushed_get (by rw [h.pushes i, hq])
  have hrecv := h.recv
  have hstream := h.stream i
  have hrun : s.propPc i = .run → s.recvPc = .run := fun hpc => h.recv_run hpc
  generalize s.recvPc = pc at hrecv hrun
  generalize s.published = pub at hrecv hstream
  cases hrecv with
  | @init n _ hle =>
    -- まだ何も publish していないので、どの propagator も返事をしていない
    refine Or.inl ⟨n, rfl, ?_⟩
    rcases hget with ⟨h0, hm⟩ | ⟨-, -, hgot⟩ | ⟨h2, -⟩
    · exact ⟨List.length_eq_zero_iff.mp h0, hm⟩
    · have hnil := (List.append_eq_nil_iff.mp (List.append_eq_nil_iff.mp hstream.symm).1).2
      exact absurd hnil hgot
    · have hl : (s.taken i).length ≤ 1 := hle i
      omega
  | @acking _ n _ a hpc hn =>
    refine Or.inr (Or.inl ⟨n, hpc, ?_⟩)
    rcases hget with ⟨h0, -⟩ | ⟨h1, hm, -⟩ | ⟨-, -, hr⟩
    · have hl : 1 ≤ (s.taken i).length := (hn i).1
      omega
    · exact ⟨h1, hm⟩
    · have := hrun hr
      rw [this] at hpc
      rcases hpc with hpc | hpc <;> cases hpc
  | start a hn =>
    have h2 : 2 ≤ (s.taken i).length := hn i
    rcases hget with ⟨h0, -⟩ | ⟨h1, -⟩ | ⟨-, -, hr⟩
    · omega
    · omega
    · cases hrun hr
  | run a ms hn =>
    have h2 : 2 ≤ (s.taken i).length := hn i
    refine Or.inr (Or.inr ⟨rfl, ?_⟩)
    rcases hget with ⟨h0, -⟩ | ⟨h1, -⟩ | ⟨-, hm, -⟩
    · omega
    · omega
    · exact hm

theorem dropWhile_replicate_ack (a : Nat) (l : List (WireMsg V)) :
    (List.replicate a WireMsg.propInitACK ++ l).dropWhile WireMsg.isPropInitACK
      = l.dropWhile WireMsg.isPropInitACK := by
  induction a with
  | zero => rfl
  | succ a ih =>
    rw [List.replicate_succ, List.cons_append, List.dropWhile_cons_of_pos rfl, ih]

/-- 逃したものと読んだものが全て `PropInitACK` なら、次に読むのは `PropInitACK` か `PropStart` である。 -/
theorem RecvOk.next_msg {pc : HsRecvPc} {pub : List (WireMsg V)} {num : ι → Nat} {a : Nat}
    (h : RecvOk c pc pub num) (hpub : pub = List.replicate a .propInitACK ++ msg :: rest) :
    msg = .propInitACK ∨ (msg = .propStart ∧ pc = .run) := by
  have hmem : msg ∈ pub := by
    rw [hpub]
    exact List.mem_append_right _ List.mem_cons_self
  cases h with
  | init => cases hmem
  | acking | start => exact Or.inl (List.eq_of_mem_replicate hmem)
  | run b ms =>
    have hd := congrArg (List.dropWhile WireMsg.isPropInitACK) hpub
    rw [dropWhile_replicate_ack, dropWhile_replicate_ack, List.dropWhile_cons_of_neg (by simp [WireMsg.isPropInitACK])] at hd
    cases msg with
    | propInitACK => exact Or.inl rfl
    | propInit | propInitACKACK | propStart | main =>
      rw [List.dropWhile_cons_of_neg (by simp [WireMsg.isPropInitACK])] at hd
      cases hd <;> exact Or.inr ⟨rfl, rfl⟩

/-- propagator が読む message は、その位置で待っているものである。 -/
theorem HsInv.sub_head (h : HsInv c s) (hq : s.subQ i = msg :: rest) :
    (s.propPc i = .waitAck → msg = .propInitACK) ∧
    (s.propPc i = .waitStart → msg = .propInitACK ∨ msg = .propStart) ∧
    (s.propPc i = .run → ∃ m, msg = .main m) := by
  have hstream := h.stream i
  obtain ⟨a, hmissed⟩ := h.missed i
  rw [hmissed, hq] at hstream
  have hprop := h.prop i
  have hacked := h.all_acked
  have htaken := h.taken_le i
  have hrun : s.propPc i = .run → s.recvPc = .run := fun hpc => h.recv_run hpc
  have hrecv := h.recv
  generalize s.propPc i = pc at hprop hrun
  generalize s.got i = got at hprop hstream
  generalize s.pushed i = pushed at hprop htaken
  cases hprop with
  | sendInit | sendAckAck => exact ⟨(by rintro ⟨⟩), (by rintro ⟨⟩), by rintro ⟨⟩⟩
  | waitAck =>
    refine ⟨fun _ => ?_, (by rintro ⟨⟩), by rintro ⟨⟩⟩
    rw [List.append_nil] at hstream
    rcases hrecv.next_msg hstream with hm | ⟨-, hr⟩
    · exact hm
    · -- `PropStart` が出たなら、この propagator は既に返事をしている
      have h2 := hacked (Or.inr hr) i
      rw [List.length_singleton] at htaken
      omega
  | waitStart n =>
    refine ⟨(by rintro ⟨⟩), fun _ => ?_, by rintro ⟨⟩⟩
    rw [List.replicate_append_replicate] at hstream
    exact (hrecv.next_msg hstream).imp id And.left
  | run n ms ns =>
    refine ⟨(by rintro ⟨⟩), (by rintro ⟨⟩), fun _ => ?_⟩
    rw [hrun rfl] at hrecv
    generalize s.published = pub at hrecv hstream
    cases hrecv with
    | acking _ h0 => rcases h0 with h0 | h0 <;> cases h0
    | run b ks =>
      rw [← List.append_assoc, List.replicate_append_replicate, List.append_assoc,
        List.cons_append] at hstream
      have hd := congrArg (List.dropWhile WireMsg.isPropInitACK) hstream
      rw [dropWhile_replicate_ack, dropWhile_replicate_ack,
        List.dropWhile_cons_of_neg (by simp [WireMsg.isPropInitACK]),
        List.dropWhile_cons_of_neg (by simp [WireMsg.isPropInitACK])] at hd
      have hmem : msg ∈ ks.map WireMsg.main := by
        rw [(List.cons.inj hd).2]
        exact List.mem_append_right _ List.mem_cons_self
      obtain ⟨m, -, rfl⟩ := List.mem_map.mp hmem
      exact ⟨m, rfl⟩

/-- **どの `CHECK` も落ちない。** main loop の `default` にも入らない。 -/
theorem HsInv.no_fault [DecidableEq ι] (h : HsInv c s) (l : HsLabel ι V) (e : HsFault) :
    hsStep c s l ≠ some (.error e) := by
  intro herr
  rcases hsStep_error herr with ⟨i, msg, rest, hq, he⟩ | ⟨i, msg, rest, hq, he⟩
  · obtain ⟨h1, h2, h3⟩ := h.sub_head hq
    cases hpc : s.propPc i with
    | sendInit | sendAckAck =>
      rw [hpc] at he
      cases he
    | waitAck =>
      rw [hpc, h1 hpc] at he
      cases he
    | waitStart =>
      rcases h2 hpc with rfl | rfl <;>
      · rw [hpc] at he
        cases he
    | run =>
      obtain ⟨m, rfl⟩ := h3 hpc
      rw [hpc] at he
      cases he
  · rcases h.push_head hq with ⟨n, hpc, -, rfl⟩ | ⟨n, hpc | hpc, -, rfl⟩ | ⟨hpc, m, rfl⟩ <;>
    · rw [hpc] at he
      cases he

end read

/-! ## 不変量は保たれる -/

section preserve

variable {c : HsConfig ι} {s s' : HsState ι V} {i : ι} {pc : HsPropPc}
  {rest : List (WireMsg V)} {msg : WireMsg V}

/-- receiver が publish する。購読していない propagator があるのは、`PropInitACK` の時だけである。 -/
theorem HsInv.publish {pc : HsRecvPc} (h : HsInv c s)
    (hmiss : ∀ i, s.subscribed i = false → msg = .propInitACK)
    (hrecv : RecvOk c pc (s.published ++ [msg]) fun i => (s.taken i).length) :
    HsInv c ({ s with recvPc := pc }.publish msg) := by
  refine ⟨fun j => ?_, fun j hj => ?_, fun j => ?_, h.pushes, h.prop, hrecv, h.peers⟩
  · cases hsub : s.subscribed j with
    | true => simp [HsState.publish, hsub, h.stream j]
    | false =>
      obtain ⟨h1, h2⟩ := h.unsub j hsub
      have hs := h.stream j
      rw [h1, h2, List.append_nil, List.append_nil] at hs
      simp [HsState.publish, hsub, h1, h2, hs]
  · have hsub : s.subscribed j = false := hj
    simpa [HsState.publish, hsub] using h.unsub j hsub
  · obtain ⟨a, ha⟩ := h.missed j
    cases hsub : s.subscribed j with
    | true => exact ⟨a, by simp [HsState.publish, hsub, ha]⟩
    | false =>
      refine ⟨a + 1, ?_⟩
      simp [HsState.publish, hsub, ha, hmiss j hsub, List.replicate_succ']

/-- Step 3 を終えた receiver の publish は、全員に届く。 -/
theorem HsInv.all_subscribed (h : HsInv c s) (hpc : s.recvPc = .start ∨ s.recvPc = .run) (i : ι) :
    s.subscribed i = true := by
  by_contra hsub
  have hgot := (h.unsub i (Bool.eq_false_iff.mpr hsub)).1
  have hack := ((h.prop i).got_of_pushed ((h.all_acked hpc i).trans (h.taken_le i))).1
  rw [hgot] at hack
  cases hack

theorem HsConfig.numExpected_pos (c : HsConfig ι) : 0 < c.numExpectedPropagators :=
  List.length_pos_iff.mpr c.props_ne_nil

/-- 全員を数えたなら、全員が条件を満たす。 -/
theorem HsConfig.forall_of_countP {p : ι → Bool}
    (h : c.props.countP p = c.numExpectedPropagators) (i : ι) : p i = true :=
  List.countP_eq_length.mp h i (c.mem_props i)

theorem HsConfig.loopHead_zero (c : HsConfig ι) : c.loopHead 0 = .ack 0 :=
  if_pos c.numExpected_pos

theorem map_main_concat (ms : List (PropRecvMsg V)) (m : PropRecvMsg V) :
    ms.map WireMsg.main ++ [.main m] = (ms ++ [m]).map WireMsg.main := by
  rw [List.map_append, List.map_singleton]

/-- 読んだ後の propagator。 -/
theorem HsInv.prop_read (h : HsInv c s) (hq : s.subQ i = msg :: rest)
    (hpc : (s.propPc i).onSub msg = some (.ok pc)) :
    PropOk (c.id i) pc (s.pushed i) (s.got i ++ [msg]) := by
  obtain ⟨h1, h2, h3⟩ := h.sub_head hq
  have hprop := h.prop i
  generalize s.propPc i = pc₀ at hprop hpc h1 h2 h3
  generalize s.got i = got at hprop
  generalize s.pushed i = pushed at hprop
  cases hprop with
  | sendInit | sendAckAck => cases hpc
  | waitAck =>
    obtain rfl := h1 rfl
    cases hpc
    exact .sendAckAck
  | waitStart n =>
    rcases h2 rfl with rfl | rfl
    · cases hpc
      rw [← List.replicate_succ']
      exact .waitStart (n + 1)
    · cases hpc
      exact .run n [] []
  | run n ms ns =>
    obtain ⟨m, rfl⟩ := h3 rfl
    cases hpc
    rw [List.append_assoc, List.cons_append, map_main_concat]
    exact .run n ms (ns ++ [m])

variable [DecidableEq ι]

/-- propagator が一つ送る。 -/
theorem HsInv.push (h : HsInv c s) (hok : PropOk (c.id i) pc (s.pushed i ++ [msg]) (s.got i)) :
    HsInv c ({ s with propPc := Function.update s.propPc i pc }.push i msg) := by
  refine ⟨h.stream, h.unsub, h.missed, fun j => ?_, fun j => ?_, h.recv, h.peers⟩
  · by_cases hj : j = i
    · subst hj
      simp [HsState.push, h.pushes j]
    · simpa [HsState.push, Function.update_of_ne hj] using h.pushes j
  · by_cases hj : j = i
    · subst hj
      simpa [HsState.push] using hok
    · simpa [HsState.push, Function.update_of_ne hj] using h.prop j

/-- propagator が一つ読む。 -/
theorem HsInv.sub (h : HsInv c s) (hq : s.subQ i = msg :: rest)
    (hok : PropOk (c.id i) pc (s.pushed i) (s.got i ++ [msg])) :
    HsInv c { s with propPc := Function.update s.propPc i pc
                     subQ := Function.update s.subQ i rest
                     got := Function.update s.got i (s.got i ++ [msg]) } := by
  refine ⟨fun j => ?_, fun j hj => ?_, h.missed, h.pushes, fun j => ?_, h.recv, h.peers⟩
  · by_cases hj : j = i
    · subst hj
      have hs := h.stream j
      rw [hq] at hs
      simpa using hs
    · simpa [Function.update_of_ne hj] using h.stream j
  · by_cases hji : j = i
    · subst hji
      have hnil := (h.unsub j hj).2
      rw [hq] at hnil
      cases hnil
    · simpa [Function.update_of_ne hji] using h.unsub j hj
  · by_cases hj : j = i
    · subst hj
      simpa using hok
    · simpa [Function.update_of_ne hj] using h.prop j

/-- 一人だけ条件を満たすようになると、数が一つ増える。 -/
theorem countP_update {l : List ι} {p q : ι → Bool} (hnd : l.Nodup) (hi : i ∈ l)
    (hp : p i = false) (hq : q i = true) (hne : ∀ j, j ≠ i → q j = p j) :
    l.countP q = l.countP p + 1 := by
  induction l with
  | nil => cases hi
  | cons x l ih =>
    rw [List.nodup_cons] at hnd
    by_cases hx : x = i
    · subst hx
      have hrest : l.countP q = l.countP p :=
        List.countP_congr fun j hj => by rw [hne j fun heq => hnd.1 (heq ▸ hj)]
      rw [List.countP_cons_of_pos hq, List.countP_cons_of_neg (by simp [hp]), hrest]
    · have hi' : i ∈ l := (List.mem_cons.mp hi).resolve_left (Ne.symm hx)
      rw [List.countP_cons, List.countP_cons, ih hnd.2 hi', hne x hx]
      omega

/-- Step 1 で `PropInit` を一つ読む。 -/
theorem RecvOk.read_init {n : Nat} {num num' : ι → Nat} {pub : List (WireMsg V)}
    (h : RecvOk c (.init n) pub num) (h0 : num i = 0) (h1 : num' i = 1)
    (hne : ∀ j, j ≠ i → num' j = num j) :
    RecvOk c (if n + 1 < c.numExpectedPropagators then .init (n + 1) else c.loopHead 0) pub num' := by
  cases h with
  | acking _ hpc => rcases hpc with hpc | hpc <;> cases hpc
  | init hle hn hlt =>
    have hle' : ∀ j, num' j ≤ 1 := by
      intro j
      by_cases hj : j = i
      · exact (hj ▸ h1).le
      · rw [hne j hj]
        exact hle j
    have hcount : c.props.countP (fun j => decide (1 ≤ num' j)) = n + 1 := by
      rw [hn]
      refine countP_update c.props_nodup (c.mem_props i) (by simp [h0]) (by simp [h1]) ?_
      intro j hj
      rw [hne j hj]
    split
    · next hlt' => exact .init hle' hcount.symm hlt'
    · next hge =>
      have hall : ∀ j, 1 ≤ num' j := fun j =>
        of_decide_eq_true (HsConfig.forall_of_countP (p := fun j => decide (1 ≤ num' j))
          (by rw [hcount]; omega) j)
      have hzero : c.props.countP (fun j => decide (2 ≤ num' j)) = 0 := by
        refine List.countP_eq_zero.mpr fun j _ => ?_
        have := hle' j
        simp only [decide_eq_true_eq]
        omega
      rw [HsConfig.loopHead_zero]
      exact .acking 0 (Or.inl rfl) (fun j => ⟨hall j, (hle' j).trans one_le_two⟩) hzero.symm
        c.numExpected_pos

/-- Step 3 で `PropInitACKACK` を一つ読む。 -/
theorem RecvOk.read_ackAck {n : Nat} {num num' : ι → Nat} {pub : List (WireMsg V)}
    (h : RecvOk c (.drain n) pub num) (h1 : num i = 1) (h2 : num' i = 2)
    (hne : ∀ j, j ≠ i → num' j = num j) :
    RecvOk c (if n + 1 = c.numExpectedPropagators then c.loopHead (n + 1) else .drain (n + 1)) pub
      num' := by
  cases h with
  | acking a hpc hb hn hlt =>
    obtain rfl := HsRecvPc.drain.inj (hpc.resolve_left (by rintro ⟨⟩))
    have hb' : ∀ j, 1 ≤ num' j ∧ num' j ≤ 2 := by
      intro j
      by_cases hj : j = i
      · rw [hj, h2]
        exact ⟨one_le_two, le_rfl⟩
      · rw [hne j hj]
        exact hb j
    have hcount : c.props.countP (fun j => decide (2 ≤ num' j)) = n + 1 := by
      rw [hn]
      refine countP_update c.props_nodup (c.mem_props i) (by simp [h1]) (by simp [h2]) ?_
      intro j hj
      rw [hne j hj]
    split
    · next heq =>
      have hhead : c.loopHead (n + 1) = .start := if_neg (by omega)
      rw [hhead]
      exact .start a fun j => of_decide_eq_true
        (HsConfig.forall_of_countP (p := fun j => decide (2 ≤ num' j)) (by rw [hcount, heq]) j)
    · exact .acking a (Or.inr rfl) hb' hcount.symm (by omega)

/-- receiver が一つ読む。 -/
theorem HsInv.read {r : HsRecvPc × List NodeId} (h : HsInv c s) (hq : s.pushQ i = msg :: rest)
    (hr : c.onPush s.peers msg s.recvPc = some (.ok r)) :
    HsInv c { s with recvPc := r.1
                     peers := r.2
                     pushQ := Function.update s.pushQ i rest
                     taken := Function.update s.taken i (s.taken i ++ [msg]) } := by
  have hnum : ∀ j, j ≠ i → (Function.update s.taken i (s.taken i ++ [msg]) j).length
      = (s.taken j).length := fun j hj => by rw [Function.update_of_ne hj]
  have hself : (Function.update s.taken i (s.taken i ++ [msg]) i).length
      = (s.taken i).length + 1 := by rw [Function.update_self, List.length_append]; rfl
  have hpush : ∀ j, s.pushed j = Function.update s.taken i (s.taken i ++ [msg]) j
      ++ Function.update s.pushQ i rest j := by
    intro j
    by_cases hj : j = i
    · subst hj
      rw [Function.update_self, Function.update_self, h.pushes j, hq, List.append_assoc]
      rfl
    · rw [Function.update_of_ne hj, Function.update_of_ne hj]
      exact h.pushes j
  -- 読んだことのある propagator は、`i` だけ増える
  have htaken : ∀ id, (∃ j, c.id j = id ∧ Function.update s.taken i (s.taken i ++ [msg]) j ≠ []) ↔
      id = c.id i ∨ id ∈ s.peers := by
    intro id
    rw [h.peers]
    constructor
    · rintro ⟨j, rfl, hj⟩
      by_cases hji : j = i
      · exact Or.inl (congrArg c.id hji)
      · rw [Function.update_of_ne hji] at hj
        exact Or.inr ⟨j, rfl, hj⟩
    · rintro (rfl | ⟨j, rfl, hj⟩)
      · exact ⟨i, rfl, by rw [Function.update_self]; simp⟩
      · refine ⟨j, rfl, ?_⟩
        by_cases hji : j = i
        · rw [hji, Function.update_self]
          simp
        · rwa [Function.update_of_ne hji]
  have hrecv := h.recv
  -- 先頭の message は、propagator をどこまで読んだかで決まる
  rcases h.push_head hq with ⟨n, hpc, hnil, rfl⟩ | ⟨n, hpc | hpc, hlen, rfl⟩ | ⟨hpc, m, rfl⟩
  · rw [hpc] at hr hrecv
    cases hr
    refine ⟨h.stream, h.unsub, h.missed, hpush, h.prop, ?_, fun id => ?_⟩
    · exact hrecv.read_init (by rw [hnil]; rfl) (by rw [hself, hnil]; rfl) hnum
    · dsimp only
      rw [htaken, List.mem_insert_iff]
      rfl
  · rw [hpc] at hr
    cases hr
  · rw [hpc] at hr hrecv
    cases hr
    refine ⟨h.stream, h.unsub, h.missed, hpush, h.prop, ?_, fun id => ?_⟩
    · exact hrecv.read_ackAck hlen (by rw [hself, hlen]) hnum
    · have hmem : c.id i ∈ s.peers := (h.peers _).mpr ⟨i, rfl, fun hnil => by
        rw [hnil] at hlen
        cases hlen⟩
      dsimp only
      rw [htaken]
      exact ⟨Or.inr, fun h => h.elim (fun h => h ▸ hmem) fun h => h⟩
  · have hall := h.all_acked (Or.inr hpc)
    rw [hpc] at hr hrecv
    cases hr
    refine ⟨h.stream, h.unsub, h.missed, hpush, h.prop, ?_, fun id => ?_⟩
    · dsimp only
      generalize s.published = pub at hrecv
      cases hrecv with
      | acking _ h0 => rcases h0 with h0 | h0 <;> cases h0
      | run a ms _ =>
        refine .run a ms fun j => ?_
        by_cases hj : j = i
        · rw [hj, hself]
          exact (hall i).trans (Nat.le_succ _)
        · rw [hnum j hj]
          exact hall j
    · have hmem : c.id i ∈ s.peers := (h.peers _).mpr ⟨i, rfl, fun hnil => by
        have h2 := hall i
        rw [hnil] at h2
        cases h2⟩
      dsimp only
      rw [htaken]
      exact ⟨Or.inr, fun h => h.elim (fun h => h ▸ hmem) fun h => h⟩

theorem HsInv.step (h : HsInv c s) (hs : HsStep c s s') : HsInv c s' := by
  cases hs with
  | @subscribe i hsub =>
    refine ⟨h.stream, fun j hj => h.unsub j ?_, h.missed, h.pushes, h.prop, h.recv, h.peers⟩
    by_cases hji : j = i
    · rw [hji]
      exact hsub
    · simpa [Function.update_of_ne hji] using hj
  | @sendInit i hpc =>
    refine h.push ?_
    have hprop := h.prop i
    rw [hpc] at hprop
    generalize s.got i = got at hprop
    generalize s.pushed i = pushed at hprop
    cases hprop
    exact .waitAck
  | @sendAckAck i hpc =>
    refine h.push ?_
    have hprop := h.prop i
    rw [hpc] at hprop
    generalize s.got i = got at hprop
    generalize s.pushed i = pushed at hprop
    cases hprop
    exact .waitStart 0
  | @sendMain i msg hpc =>
    have hok : PropOk (c.id i) .run (s.pushed i ++ [.main msg]) (s.got i) := by
      have hprop := h.prop i
      rw [hpc] at hprop
      generalize s.got i = got at hprop
      generalize s.pushed i = pushed at hprop
      cases hprop with
      | run n ms ns =>
        rw [List.cons_append, List.cons_append, map_main_concat]
        exact .run n (ms ++ [msg]) ns
    have hp := h.push hok
    rwa [← hpc, Function.update_eq_self] at hp
  | recvSub hq hpc => exact h.sub hq (h.prop_read hq hpc)
  | @publishAck n hpc =>
    refine h.publish (fun _ _ => rfl) ?_
    have hrecv := h.recv
    rw [hpc] at hrecv
    generalize s.published = pub at hrecv
    cases hrecv with
    | acking a h0 hb hn hlt =>
      obtain rfl := HsRecvPc.ack.inj (h0.resolve_right (by rintro ⟨⟩))
      rw [← List.replicate_succ']
      exact .acking (a + 1) (Or.inr rfl) hb hn hlt
  | publishStart hpc =>
    -- 全員の ACKACK を読んだ後なので、`PropStart` を逃す propagator はいない
    have hsub := h.all_subscribed (Or.inl hpc)
    refine h.publish (fun i hi => absurd (hsub i) (Bool.eq_false_iff.mp hi)) ?_
    have hrecv := h.recv
    rw [hpc] at hrecv
    generalize s.published = pub at hrecv
    cases hrecv with
    | acking a h0 => rcases h0 with h0 | h0 <;> cases h0
    | start a hn => exact .run a [] hn
  | recvPush hq hr => exact h.read hq hr
  | @recvNothing n hpc =>
    refine ⟨h.stream, h.unsub, h.missed, h.pushes, h.prop, ?_, h.peers⟩
    have hrecv := h.recv
    rw [hpc] at hrecv
    dsimp only
    generalize s.published = pub at hrecv
    cases hrecv with
    | acking a h0 hb hn hlt =>
      obtain rfl := HsRecvPc.drain.inj (h0.resolve_left (by rintro ⟨⟩))
      -- 読むものが無ければ、足りない分の ACK をもう一度流す
      exact .acking a (Or.inl (if_pos hlt)) hb hn hlt
  | @publishMain msg hpc =>
    have hsub := h.all_subscribed (Or.inr hpc)
    have hp : HsInv c ({ s with recvPc := .run }.publish (.main msg)) := by
      refine h.publish (fun i hi => absurd (hsub i) (Bool.eq_false_iff.mp hi)) ?_
      have hrecv := h.recv
      rw [hpc] at hrecv
      generalize s.published = pub at hrecv
      cases hrecv with
      | acking a h0 => rcases h0 with h0 | h0 <;> cases h0
      | run a ms hn =>
        rw [List.append_assoc, List.cons_append, map_main_concat]
        exact .run a (ms ++ [msg]) hn
    rwa [← hpc] at hp

omit [DecidableEq ι] in
theorem HsInv.start : HsInv c (HsState.start : HsState ι V) := by
  refine ⟨fun _ => rfl, fun _ _ => ⟨rfl, rfl⟩, fun _ => ⟨0, rfl⟩, fun _ => rfl,
    fun _ => .sendInit, .init (fun _ => Nat.zero_le _) ?_ c.numExpected_pos, fun id => ?_⟩
  · exact (List.countP_eq_zero.mpr fun _ _ => by simp [HsState.start]).symm
  · simp [HsState.start]

/-- 着けるどの状態でも不変量が成り立つ。 -/
theorem HsReachable.inv (h : HsReachable c s) : HsInv c s :=
  Lts.Reachable.invariant HsInv.start (fun _ _ _ _ hs hi => hi.step (hsStep_ok hs)) h

end preserve

/-! ## handshake の安全性 -/

/-- propagator が handshake の間に送るべき message。 -/
def HsPropPc.handshakeSent (id : NodeId) : HsPropPc → List (WireMsg V)
  | .sendInit => []
  | .waitAck | .sendAckAck => [.propInit id]
  | .waitStart | .run => [.propInit id, .propInitACKACK id]

section main

variable {c : HsConfig ι} {s s' : HsState ι V} {i : ι}

theorem filter_main (ms : List (PropRecvMsg V)) :
    (ms.map WireMsg.main).filter WireMsg.isHandshake = [] :=
  List.filter_eq_nil_iff.mpr fun m hm => by
    obtain ⟨x, -, rfl⟩ := List.mem_map.mp hm
    simp [WireMsg.isHandshake]

theorem PropOk.handshakeSent {id : NodeId} {pc : HsPropPc} {pushed got : List (WireMsg V)}
    (h : PropOk id pc pushed got) : pushed.filter WireMsg.isHandshake = pc.handshakeSent id := by
  cases h with
  | sendInit | waitAck | sendAckAck | waitStart n => rfl
  | run n ms ns =>
    rw [List.filter_cons_of_pos rfl, List.filter_cons_of_pos rfl, filter_main]
    rfl

/-- `PropStart` は main loop に入る時に一度だけ publish される。 -/
theorem RecvOk.count_start {pc : HsRecvPc} {pub : List (WireMsg V)} {num : ι → Nat}
    (h : RecvOk c pc pub num) :
    pub.countP WireMsg.isPropStart = if pc = .run then 1 else 0 := by
  have hrep : ∀ a, (List.replicate a (.propInitACK : WireMsg V)).countP WireMsg.isPropStart = 0 :=
    fun a => List.countP_eq_zero.mpr fun m hm => by
      rw [List.eq_of_mem_replicate hm]
      simp [WireMsg.isPropStart]
  cases h with
  | init => rfl
  | acking a hpc =>
    rw [hrep, if_neg]
    rcases hpc with rfl | rfl <;> rintro ⟨⟩
  | start a => exact hrep a
  | run a ms =>
    have hmain : (ms.map WireMsg.main).countP WireMsg.isPropStart = 0 :=
      List.countP_eq_zero.mpr fun m hm => by
        obtain ⟨x, -, rfl⟩ := List.mem_map.mp hm
        simp [WireMsg.isPropStart]
    rw [List.countP_append, hrep, List.countP_cons_of_pos rfl, hmain]
    rfl

/-- `PropStart` を読んだ propagator の queue には、main loop の message だけがある。 -/
theorem HsInv.subQ_main (h : HsInv c s) (hgot : .propStart ∈ s.got i) :
    ∀ m ∈ s.subQ i, m.isHandshake = false := by
  have hpc := (h.prop i).run_iff.mpr hgot
  have hrecv := h.recv
  rw [h.recv_run hpc] at hrecv
  have hstream := h.stream i
  obtain ⟨a, hmissed⟩ := h.missed i
  have hprop := h.prop i
  rw [hpc] at hprop
  rw [hmissed] at hstream
  generalize s.got i = got at hprop hstream
  generalize s.pushed i = pushed at hprop
  generalize s.published = pub at hrecv hstream
  cases hprop with
  | run n ms ns =>
    cases hrecv with
    | acking _ h0 => rcases h0 with h0 | h0 <;> cases h0
    | run b ks =>
      have hd := congrArg (List.dropWhile WireMsg.isPropInitACK) hstream
      rw [← List.append_assoc, List.replicate_append_replicate, List.append_assoc,
        dropWhile_replicate_ack, dropWhile_replicate_ack, List.cons_append,
        List.dropWhile_cons_of_neg (by simp [WireMsg.isPropInitACK]),
        List.dropWhile_cons_of_neg (by simp [WireMsg.isPropInitACK])] at hd
      intro m hm
      have hmem : m ∈ ks.map WireMsg.main := by
        rw [(List.cons.inj hd).2]
        exact List.mem_append_right _ hm
      obtain ⟨x, -, rfl⟩ := List.mem_map.mp hmem
      rfl

/--
全員が main loop に入り、まだ何も送っていなければ、どの queue も空で、receiver は上流の全員を知っている。
node のモデルはこの状態から始まる。
-/
theorem HsInv.done (h : HsInv c s) (hrecv : s.recvPc = .run) (hprop : ∀ i, s.propPc i = .run)
    (hpushed : ∀ i m, .main m ∉ s.pushed i) (hpub : ∀ m, .main m ∉ s.published) :
    (∀ i, s.pushQ i = [] ∧ s.subQ i = []) ∧ ∀ id, id ∈ s.peers ↔ ∃ i, c.id i = id := by
  refine ⟨fun i => ⟨?_, ?_⟩, fun id => ?_⟩
  · cases hq : s.pushQ i with
    | nil => rfl
    | cons msg rest =>
      rcases h.push_head hq with ⟨n, hpc, -⟩ | ⟨n, hpc | hpc, -⟩ | ⟨-, m, rfl⟩
      · rw [hrecv] at hpc
        cases hpc
      · rw [hrecv] at hpc
        cases hpc
      · rw [hrecv] at hpc
        cases hpc
      · refine absurd ?_ (hpushed i m)
        rw [h.pushes i, hq]
        exact List.mem_append_right _ List.mem_cons_self
  · cases hq : s.subQ i with
    | nil => rfl
    | cons msg rest =>
      obtain ⟨m, rfl⟩ := (h.sub_head hq).2.2 (hprop i)
      refine absurd ?_ (hpub m)
      rw [h.stream i, hq]
      exact List.mem_append_right _ List.mem_cons_self
  · rw [h.peers]
    refine ⟨fun ⟨i, hi, _⟩ => ⟨i, hi⟩, fun ⟨i, hi⟩ => ⟨i, hi, fun hnil => ?_⟩⟩
    have h2 := h.all_acked (Or.inr hrecv) i
    rw [hnil] at h2
    cases h2

variable [DecidableEq ι]

/-- main loop に入った receiver は、そこから出ず、handshake の message を publish しない。 -/
theorem published_after_run (hpc : s.recvPc = .run) (h : Lts.Reachable (hsStep c) s s') :
    s'.recvPc = .run ∧ ∃ new, s'.published = s.published ++ new ∧
      ∀ m ∈ new, m.isHandshake = false := by
  refine Lts.Reachable.invariant (I := fun s' => s'.recvPc = .run ∧
    ∃ new, s'.published = s.published ++ new ∧ ∀ m ∈ new, m.isHandshake = false) ?_ ?_ h
  · exact ⟨hpc, [], (List.append_nil _).symm, by rintro _ ⟨⟩⟩
  · rintro a l b - hs ⟨hrun, new, hnew, hmain⟩
    cases hsStep_ok hs with
    | subscribe | sendInit | sendAckAck | recvSub | sendMain => exact ⟨hrun, new, hnew, hmain⟩
    | publishAck h0 | publishStart h0 | recvNothing h0 =>
      rw [hrun] at h0
      cases h0
    | @recvPush i msg rest r hq hr =>
      rw [hrun, HsConfig.onPush] at hr
      split at hr
      · cases hr
      · cases hr
        exact ⟨rfl, new, hnew, hmain⟩
    | @publishMain msg _ =>
      refine ⟨hrun, new ++ [.main msg], ?_, fun m hm => ?_⟩
      · rw [← List.append_assoc, ← hnew]
        rfl
      · rcases List.mem_append.mp hm with hm | hm
        · exact hmain m hm
        · rw [List.mem_singleton.mp hm]
          rfl

/--
**handshake は安全である。** 着けるどの状態でも、

* どの `CHECK` も落ちず、main loop に知らない message は来ない
* どの propagator も、`PropInit` と `PropInitACKACK` をこの順に一つずつしか送らない
* receiver が main loop に入った時には、どの propagator も `PropInitACK` を読んでいる
* `PropStart` は一度だけ publish され、どの propagator もそれを逃さない
* `PropStart` を読んだ propagator に、handshake の message は残っておらず、この後も publish されない
* `EPRUpdateBuffer` が送られた時には、`PropStart` は publish されている
-/
theorem handshake_safe (h : HsReachable c s) :
    (∀ l e, hsStep c s l ≠ some (.error e)) ∧
    (∀ i, (s.pushed i).filter WireMsg.isHandshake = (s.propPc i).handshakeSent (c.id i)) ∧
    (s.recvPc = .run → ∀ i, .propInitACK ∈ s.got i) ∧
    s.published.countP WireMsg.isPropStart = (if s.recvPc = .run then 1 else 0) ∧
    (∀ i, .propStart ∉ s.missed i) ∧
    (∀ i, .propStart ∈ s.got i → (∀ m ∈ s.subQ i, m.isHandshake = false) ∧
      ∀ s', Lts.Reachable (hsStep c) s s' →
        ∃ new, s'.published = s.published ++ new ∧ ∀ m ∈ new, m.isHandshake = false) ∧
    (∀ i t b, .main (.eprUpdateBuffer t b) ∈ s.pushed i → .propStart ∈ s.published) := by
  have hi := HsReachable.inv h
  refine ⟨hi.no_fault, fun i => (hi.prop i).handshakeSent, fun hpc i => ?_, hi.recv.count_start,
    fun i hm => ?_, fun i hgot => ⟨hi.subQ_main hgot, fun s' hs' => ?_⟩, fun i t b hm => ?_⟩
  · exact ((hi.prop i).got_of_pushed ((hi.all_acked (Or.inr hpc) i).trans (hi.taken_le i))).1
  · obtain ⟨a, ha⟩ := hi.missed i
    rw [ha] at hm
    cases List.eq_of_mem_replicate hm
  · exact (published_after_run (hi.recv_run ((hi.prop i).run_iff.mpr hgot)) hs').2
  · have hgot : .propStart ∈ s.got i := by
      have hprop := hi.prop i
      generalize s.propPc i = pc at hprop
      generalize s.pushed i = pushed at hprop hm
      generalize s.got i = got at hprop ⊢
      cases hprop with
      | sendInit | waitAck | sendAckAck | waitStart n => simp at hm
      | run n ms ns => simp
    rw [hi.stream i]
    exact List.mem_append_left _ (List.mem_append_right _ hgot)

end main

theorem val_injective : Function.Injective fun i : Fin 2 => (i.val : Int) := by decide

/-- 二つの propagator を持つ receiver。 -/
def twoPropagators : HsConfig (Fin 2) where
  props := List.finRange 2
  props_nodup := by decide
  mem_props := by decide
  props_ne_nil := by decide
  id := fun i => (i.val : Int)
  id_injective := val_injective

/-- 後から購読した propagator 1 が `PropInitACK` を一つ逃した run で、`handshake_safe` を使う。 -/
theorem handshake_safe_late_subscriber :
    ∃ s : HsState (Fin 2) (BitVec 32), HsReachable twoPropagators s ∧ s.recvPc = .run ∧
      (∀ i, s.propPc i = .run) ∧ (s.missed 1).length = 1 ∧ .propStart ∉ s.missed 1 ∧
      s.published.countP WireMsg.isPropStart = if s.recvPc = .run then 1 else 0 := by
  let labels : List (HsLabel (Fin 2) (BitVec 32)) :=
    [.subscribe 0, .send 1, .recvPush 1, .send 0, .recvPush 0, .publish, .recvSub 0, .send 0,
      .recvPush 0, .recvNothing, .subscribe 1, .publish, .recvSub 1, .recvNothing, .send 1,
      .publish, .recvPush 1, .publish, .recvSub 0, .recvSub 0, .recvSub 0, .recvSub 1, .recvSub 1]
  obtain ⟨s, hr, hrecv, hprop, hmissed⟩ : ∃ s : HsState (Fin 2) (BitVec 32),
      HsReachable twoPropagators s ∧ s.recvPc = .run ∧ (∀ i, s.propPc i = .run) ∧
      (s.missed 1).length = 1 :=
    Lts.Reachable.exists_of_run labels (by decide +kernel)
  have hsafe := handshake_safe hr
  exact ⟨s, hr, hrecv, hprop, hmissed, hsafe.2.2.2.2.1 1, hsafe.2.2.2.1⟩

end QuiltDB
