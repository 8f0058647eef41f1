import QuiltDB.Comm.Propagator
import QuiltDB.Comm.Receiver

/-!
# handler の場合分け

receiver と propagator の handler が落ちずに済んだ時に、状態のどこをどう変え、何を送るかを
一度だけ場合分けしておく。以後の証明は handler を開かずにここの補題を使う。
-/

namespace QuiltDB

/-- range の記録だけの履歴には、他の出来事が無い。 -/
theorem filterMap_recorded {V α : Type} {f : Event V → Option α} {id : NodeId} {t : TableId}
    (hf : ∀ p r, f (.recorded id t p r) = none) (rs : List (NodeId × UpdateRange)) :
    (rs.map fun r => (.recorded id t r.1 r.2 : Event V)).filterMap f = [] := by
  refine List.filterMap_eq_nil_iff.mpr fun e he => ?_
  obtain ⟨r, -, rfl⟩ := List.mem_map.mp he
  exact hf r.1 r.2

/-- 一歩が `f` で process を落とすかどうか。 -/
def failsWith {α : Type} (f : Fault) : Option (Except Fault α) → Bool
  | some (.error e) => decide (e = f)
  | _ => false

theorem eq_of_failsWith {α : Type} {f : Fault} {x : Option (Except Fault α)}
    (h : failsWith f x = true) : x = some (.error f) := by
  unfold failsWith at h
  split at h
  · next e => rw [of_decide_eq_true h]
  · cases h

namespace Receiver

variable {V : Type} {c : NodeConfig V} {r r' : Receiver V}

/-! ## handler が触らないもの -/

theorem dedup_ok_cases {t : TableId} {itable : InternalTable V} {b b' : UpdateBuffer V}
    (h : dedup c r t itable b = .ok (r', b')) : ∃ mu, r' = { r with myUpdates := mu } := by
  unfold dedup at h
  split at h
  · cases h; exact ⟨r.myUpdates, rfl⟩
  · split at h
    · cases h
    · split at h
      · cases h
      · cases h; exact ⟨_, rfl⟩

/-- ほかの table の queue には触らない。 -/
theorem dedup_other {t t' : TableId} {itable : InternalTable V} {b b' : UpdateBuffer V}
    (h : dedup c r t itable b = .ok (r', b')) (ht : t' ≠ t) :
    r'.myUpdates t' = r.myUpdates t' := by
  unfold dedup at h
  split at h
  · cases h; rfl
  · split at h
    · cases h
    · split at h
      · cases h
      · cases h
        exact Function.update_of_ne ht _ _

/-- callback の呼び出しが落ちるのは、ポインタが初期化されていない時だけである。 -/
theorem userCallback_error {itable : InternalTable V} {t : TableId} {b : UpdateBuffer V} {e : Fault}
    (h : userCallback itable t b = .error e) : e = .uninitializedCallback := by
  unfold userCallback at h
  split at h
  · split at h
    · exact (Except.error.inj h).symm
    · cases h
  · cases h

/-- `EPRUpdateBuffer` が書き換えるのは `my_updates` だけで、publish も ACK もしない。 -/
theorem onUpdateBuffer_ok_cases {storage storage' : TableId → Storage V} {t : TableId}
    {b : UpdateBuffer V} {out : RecvOut V}
    (h : onUpdateBuffer c storage r t b = .ok (r', storage', out)) :
    (∃ mu, r' = { r with myUpdates := mu }) ∧ out.ack = [] ∧ out.pub = [] ∧
      (out.upd = [] ∨ r.state = .run ∧ ∃ b', out.upd = [.epUpdateBuffer t b']) := by
  unfold onUpdateBuffer at h
  split at h
  · cases h; exact ⟨⟨_, rfl⟩, rfl, rfl, Or.inl rfl⟩
  · next hrun =>
    split at h
    · cases h; exact ⟨⟨_, rfl⟩, rfl, rfl, Or.inl rfl⟩
    · split at h
      · cases h
      · next it _ =>
        split at h
        · cases h
        · next r₁ b₁ hd =>
          dsimp only at h
          split at h
          · cases h
          · cases h
            refine ⟨dedup_ok_cases hd, rfl, rfl, ?_⟩
            cases hf : it.forwardUpdates with
            | false => exact Or.inl (by simp)
            | true => exact Or.inr ⟨not_not.mp hrun, b₁, by simp⟩

theorem exitTest_eq (r : Receiver V) :
    r.exitTest = { r with state :=
      if hasAllPeersAckedTerm r.peerPropInfo && r.haveRepliedPropPairTerm then .term
      else r.state } := by
  unfold exitTest
  split <;> rfl

/-- `EPRInternalTerminate` が落ちずに済む二つの場合。 -/
theorem onPropInternalTerminate_ok_cases {out : RecvOut V}
    (h : r.onPropInternalTerminate = .ok (r', out)) :
    (r.state = .run ∧ r' = { r with haveReceivedPropPairTerm := true } ∧ out = {}) ∨
      (r.state = .termSelf ∧ r' = exitTest { r with haveRepliedPropPairTerm := true } ∧
        out = { upd := [.epRecvInternalTerminateACK] }) := by
  unfold onPropInternalTerminate at h
  split at h
  · next hs => cases h; exact Or.inl ⟨hs, rfl, rfl⟩
  · next hs => cases h; exact Or.inr ⟨hs, rfl, rfl⟩
  · cases h

/-! ## `peer_prop_info` -/

theorem mem_entries_iff_lookup {α : Type} {β : α → Type} [DecidableEq α] {m : AList β} {a : α}
    {b : β a} : ⟨a, b⟩ ∈ m.entries ↔ m.lookup a = some b := by
  rw [AList.mem_lookup_iff.symm, Option.mem_def]

theorem hasAllPeersAckedTerm_iff {m : AList fun _ : NodeId => Bool} :
    hasAllPeersAckedTerm m = true ↔ ∀ id b, m.lookup id = some b → b = true := by
  unfold hasAllPeersAckedTerm
  rw [List.all_eq_true]
  constructor
  · intro h id b hb
    exact h ⟨id, b⟩ (mem_entries_iff_lookup.mpr hb)
  · rintro h ⟨id, b⟩ hm
    exact h id b (mem_entries_iff_lookup.mp hm)

/-- handshake の直後は、待っている propagator が全員「まだ」である。 -/
theorem lookup_initPeers (expected : List NodeId) (id : NodeId) :
    (initPeers expected).lookup id = if id ∈ expected then some false else none := by
  have hfold : ∀ (l : List NodeId) (m : AList fun _ : NodeId => Bool),
      (l.foldl (fun m id => m.insert id false) m).lookup id
        = if id ∈ l then some false else m.lookup id := by
    intro l
    induction l with
    | nil => intro m; simp
    | cons a l ih =>
      intro m
      rw [List.foldl_cons, ih]
      by_cases hl : id ∈ l
      · simp [hl]
      · by_cases ha : id = a
        · subst ha; simp [hl]
        · rw [AList.lookup_insert_ne ha]; simp [hl, ha]
  rw [initPeers, hfold]
  simp

end Receiver

/-! ## propagator -/

namespace Propagator

variable {V : Type} {c : NodeConfig V} {p p' : Propagator V} {out : PropOut V}

theorem exitTest_eq (p : Propagator V) :
    p.exitTest = { p with
      state := if p.haveStoppedTimerThr && p.haveStoppedRecvThr && p.haveRepliedDsTerm then .term
        else p.state
      pc := if p.haveStoppedTimerThr && p.haveStoppedRecvThr && p.haveRepliedDsTerm then .returned
        else p.pc } := by
  unfold exitTest
  split <;> rfl

/-- table の range を送り終えた形にする。 -/
def closeMyRange (pt : PropTable V) : PropTable V :=
  { pt with myUpdateRange := { pt.myUpdateRange with st := pt.myUpdateRange.end_ + 1 } }

theorem finishFlush_ok_cases {t : TableId} {buff : UpdateBuffer V} {todo : List TableId}
    (h : finishFlush c p t buff todo = .ok (p', out)) :
    c.hasDownstream = true ∧
      p' = { p with tab := Function.update p.tab t (closeMyRange (p.tab t)), pc := .flush todo } ∧
      out = { push := [.eprUpdateBuffer t buff], events := [.sent c.myId t buff] } := by
  unfold finishFlush at h
  dsimp only at h
  split at h
  · next hd => cases h; exact ⟨hd, rfl, rfl⟩
  · cases h

/--
for loop の本体の三つの場合。

store が空で飛ばすか、`EMyUpdates` を送って返事を待つか、そのまま下流へ送るかである。
-/
theorem flushTable_ok_cases {t : TableId} {todo : List TableId} {o : FlushOrder V}
    (h : flushTable c p t todo o = .ok (p', out)) :
    ((p.tab t).updateStore.entries = [] ∧ p' = { p with pc := .flush todo } ∧ out = {}) ∨
    ((p.tab t).updateStore.entries ≠ [] ∧ ∃ buff peers,
      buildBuffer c (p.tab t) o = .ok (buff, peers) ∧
      (((∃ tc, c.tableDir.lookup t = some tc ∧ tc.loop = true) ∧
        (p.tab t).myUpdateStore.entries ≠ [] ∧ ∃ myBuff,
          buildMyBuffer c (p.tab t) o.mine = .ok myBuff ∧
          p' = { p with
            tab := Function.update p.tab t { p.tab t with
              updateStore := ∅, tablePeersUpdateRange := peers, myUpdateStore := ∅ }
            pairPushSock := true
            pc := .waitAck t buff todo } ∧
          out = { pair := [.eMyUpdates t myBuff], events := [.myUpdatesSent c.myId t myBuff] }) ∨
       ((∀ tc, c.tableDir.lookup t = some tc → tc.loop = true →
          (p.tab t).myUpdateStore.entries = []) ∧
        c.hasDownstream = true ∧
          p' = { p with
            tab := Function.update p.tab t (closeMyRange { p.tab t with
              updateStore := ∅, tablePeersUpdateRange := peers })
            pc := .flush todo } ∧
          out = { push := [.eprUpdateBuffer t buff], events := [.sent c.myId t buff] }))) := by
  unfold flushTable at h
  dsimp only at h
  split at h
  · next he =>
    cases h
    exact Or.inl ⟨List.length_eq_zero_iff.mp he, rfl, rfl⟩
  · next hne =>
    have hst : (p.tab t).updateStore.entries ≠ [] := fun he => hne (by rw [he]; rfl)
    split at h
    · cases h
    · next buff peers hb =>
      refine Or.inr ⟨hst, buff, peers, hb, ?_⟩
      split at h
      · next hloop =>
        rw [Bool.and_eq_true, Option.any_eq_true] at hloop
        obtain ⟨⟨tc, htc, hl⟩, hmy⟩ := hloop
        split at h
        · cases h
        · next myBuff hm =>
          cases h
          refine Or.inl ⟨⟨tc, htc, hl⟩, fun he => ?_, myBuff, hm, rfl, rfl⟩
          rw [he] at hmy
          cases hmy
      · next hloop =>
        obtain ⟨hd, hp, ho⟩ := finishFlush_ok_cases h
        refine Or.inr ⟨fun tc htc hl => ?_, hd, ?_, ho⟩
        · by_contra hne'
          refine hloop ?_
          rw [Bool.and_eq_true, Option.any_eq_true]
          refine ⟨⟨tc, htc, hl⟩, ?_⟩
          simpa using hne'
        · rw [hp]
          simp

theorem onMyUpdatesReply_ok_cases {t : TableId} {buff : UpdateBuffer V} {todo : List TableId}
    {msg : PropagatorMsg V} (h : onMyUpdatesReply c p t buff todo msg = .ok (p', out)) :
    msg = .eMyUpdatesACK ∧ c.hasDownstream = true ∧
      p' = { p with tab := Function.update p.tab t (closeMyRange (p.tab t)), pc := .flush todo } ∧
      out = { push := [.eprUpdateBuffer t buff],
              events := [.ackReceived c.myId t, .sent c.myId t buff] } := by
  unfold onMyUpdatesReply at h
  split at h
  · split at h
    · cases h
    · next p₁ out₁ hf =>
      cases h
      obtain ⟨hd, hp, ho⟩ := finishFlush_ok_cases hf
      exact ⟨rfl, hd, hp, by rw [ho]⟩
  · cases h

/-- log 一つを table に足した形。 -/
def addLog [Zero V] (c : NodeConfig V) (t : TableId) (pt : PropTable V) (key : Key) (delta : V) :
    PropTable V :=
  let range := { pt.myUpdateRange with end_ := pt.myUpdateRange.end_ + 1 }
  match c.tableDir.lookup t with
  | none => { pt with myUpdateRange := range }
  | some tc =>
    if c.nanosec ≤ 0 then { pt with myUpdateRange := range }
    else
      { pt with
        updateStore := addUpdate tc.vaddFunc pt.updateStore key delta
        myUpdateRange := range
        myUpdateStore :=
          if tc.loop then addUpdate tc.vaddFunc pt.myUpdateStore key delta else pt.myUpdateStore }

/-- batch の間隔が正で table があれば、log は store にも足される。 -/
theorem addLog_eq [Zero V] {t : TableId} {pt : PropTable V} {key : Key} {delta : V}
    {tc : TableConfig V} (hn : 0 < c.nanosec) (htc : c.tableDir.lookup t = some tc) :
    addLog c t pt key delta =
      { pt with
        updateStore := addUpdate tc.vaddFunc pt.updateStore key delta
        myUpdateRange := { pt.myUpdateRange with end_ := pt.myUpdateRange.end_ + 1 }
        myUpdateStore :=
          if tc.loop then addUpdate tc.vaddFunc pt.myUpdateStore key delta
          else pt.myUpdateStore } := by
  unfold addLog
  rw [htc]
  exact if_neg (not_le.mpr hn)

theorem onUpdateLog_ok_cases [Zero V] {t : TableId} {key : Key} {delta : V}
    (h : onUpdateLog c p t key delta = .ok (p', out)) :
    (p.state ≠ .run ∧ p' = p ∧ out = {}) ∨
    (p.state = .run ∧ (0 < c.nanosec → ∃ tc, c.tableDir.lookup t = some tc) ∧
      p' = { p with tab := Function.update p.tab t (addLog c t (p.tab t) key delta) } ∧
      out = { events := [.logHandled c.myId t key delta] }) := by
  unfold onUpdateLog at h
  split at h
  · next hs => cases h; exact Or.inl ⟨hs, rfl, rfl⟩
  · next hs =>
    refine Or.inr ⟨not_not.mp hs, ?_⟩
    dsimp only at h
    split at h
    · next hn =>
      cases h
      refine ⟨fun hpos => absurd hpos (by omega), ?_, rfl⟩
      unfold addLog
      dsimp only
      split <;> simp [hn]
    · next hn =>
      split at h
      · cases h
      · next tc htc =>
        cases h
        refine ⟨fun _ => ⟨tc, htc⟩, ?_, rfl⟩
        simp only [addLog, htc, if_neg hn]

theorem onUpdateBuffer_ok_cases [Zero V] {t : TableId} {buff : UpdateBuffer V}
    (h : onUpdateBuffer c p t buff = .ok (p', out)) :
    ∃ tc, c.tableDir.lookup t = some tc ∧
    ((p.state ≠ .run ∧ p' = p ∧ out = {}) ∨
     (p.state = .run ∧ ∃ peers,
      recordRanges (p.tab t).tablePeersUpdateRange buff.iterNodeRanges = .ok peers ∧
      p' = { p with tab := Function.update p.tab t { p.tab t with
        updateStore := buff.iterUpdates.foldl (fun m kv => addUpdate tc.vaddFunc m kv.1 kv.2)
          (p.tab t).updateStore
        tablePeersUpdateRange := peers } } ∧
      out = { events := buff.iterNodeRanges.map fun r => .recorded c.myId t r.1 r.2 })) := by
  unfold onUpdateBuffer at h
  split at h
  · cases h
  · next tc htc =>
    refine ⟨tc, htc, ?_⟩
    split at h
    · next hs => cases h; exact Or.inl ⟨hs, rfl, rfl⟩
    · next hs =>
      dsimp only at h
      split at h
      · cases h
      · next peers hr =>
        cases h
        exact Or.inr ⟨not_not.mp hs, peers, hr, rfl, rfl⟩

/-- 残りの update を捨てた形。 -/
def clearStores (p : Propagator V) : TableId → PropTable V :=
  fun t => { p.tab t with updateStore := ∅ }

theorem onInternalTerminate_ok_cases (h : onInternalTerminate c p = .ok (p', out)) :
    (p.haveReceivedDsTerm = false ∧
      p' = { p with state := .termPrep, pairPushSock := true, tab := p.clearStores } ∧
      out = { pair := [.eprInternalTerminate] }) ∨
    (p.haveReceivedDsTerm = true ∧ c.hasDownstream = true ∧
      p' = { p with state := .termPrep, haveRepliedDsTerm := true, pairPushSock := true
                    tab := p.clearStores } ∧
      out = { pair := [.eprInternalTerminate], push := [.eprTerminateACK c.myId],
              events := [.termAckSent c.myId] }) := by
  unfold onInternalTerminate at h
  dsimp only at h
  cases hr : p.haveReceivedDsTerm with
  | false =>
    simp only [hr, Bool.false_eq_true, if_false] at h
    cases h
    exact Or.inl ⟨rfl, rfl, rfl⟩
  | true =>
    simp only [hr, if_true, replyTerminate] at h
    cases hd : c.hasDownstream with
    | false => simp [hd] at h
    | true =>
      simp only [hd, if_true] at h
      cases h
      exact Or.inr ⟨rfl, rfl, rfl, rfl⟩

theorem onTerminate_ok_cases (h : onTerminate c p = .ok (p', out)) :
    (p.state ≠ .termPrep ∧ p' = { p with haveReceivedDsTerm := true } ∧ out = {}) ∨
    (p.state = .termPrep ∧ c.hasDownstream = true ∧
      p' = exitTest { p with haveReceivedDsTerm := true, haveRepliedDsTerm := true } ∧
      out = { push := [.eprTerminateACK c.myId], events := [.termAckSent c.myId] }) := by
  unfold onTerminate at h
  split at h
  · next hs =>
    cases hd : c.hasDownstream with
    | false => simp [replyTerminate, hd] at h
    | true =>
      simp only [replyTerminate, hd, if_true] at h
      cases h
      exact Or.inr ⟨hs, rfl, rfl, rfl⟩
  · next hs => cases h; exact Or.inl ⟨hs, rfl, rfl⟩

end Propagator

end QuiltDB
