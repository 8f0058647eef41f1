import QuiltDB.Properties.Contents
import QuiltDB.Properties.PropHistory

/-!
# tick でまとめられる update

tick が table に送る buffer は、前の tick の後に処理した log と渡された buffer の delta を key ごとに
足したものである。

run の履歴を前の tick の終わりで二つに切り、後ろ半分（窓）に現れる delta と propagator の store とを
比べる。table は tick の中で順に送られるので、送り終えた table とまだの table を `pc` で分ける。

履歴は、処理した message と送った message だけを並べたものである。system のどの run の propagator についても成り立つ。
-/

namespace QuiltDB

open Totals Propagator

section log

variable {V : Type}

/-! ## 履歴の窓 -/

/-- for loop を抜ける一歩。tick はここで終わる。 -/
def PropInput.isFlushEnd : PropInput V → Bool
  | .flushEnd => true
  | _ => false

/-- 前の tick の終わりより後の履歴。 -/
def sinceTick (log : PropLog V) : PropLog V := log.rtakeWhile fun e => !e.1.isFlushEnd

/-- 前の tick の終わりまでの履歴。 -/
def beforeTick (log : PropLog V) : PropLog V := log.rdropWhile fun e => !e.1.isFlushEnd

/-- table `t` の `EPUpdateLog` の delta。 -/
def PropInput.logDeltas (t : TableId) : PropInput V → List (Key × V)
  | .update (.epUpdateLog t' key delta) => if t' = t then [(key, delta)] else []
  | _ => []

/-- 履歴の中で処理した table `t` の log。 -/
def logDeltas (t : TableId) (log : PropLog V) : List (Key × V) :=
  log.flatMap fun e => e.1.logDeltas t

/-- 渡された table `t` の buffer の delta。 -/
def PropInput.fwdDeltas (t : TableId) : PropInput V → List (Key × V)
  | .update (.epUpdateBuffer t' b) => if t' = t then b.updates else []
  | _ => []

/-- 履歴の中で渡された table `t` の delta。 -/
def fwdDeltas (t : TableId) (log : PropLog V) : List (Key × V) :=
  log.flatMap fun e => e.1.fwdDeltas t

/-- 前の tick の後に処理した log と渡された delta、それより前に処理した log の個数。 -/
structure Window (V : Type) where
  logs : List (Key × V)
  fwd : List (Key × V)
  before : Nat

/-- 履歴の窓に現れる、table `t` の delta。 -/
def window (t : TableId) (log : PropLog V) : Window V where
  logs := logDeltas t (sinceTick log)
  fwd := fwdDeltas t (sinceTick log)
  before := (logDeltas t (beforeTick log)).length

variable {t : TableId} {log : PropLog V} {i : PropInput V} {out : PropOut V}

theorem window_concat (hi : i.isFlushEnd = false) :
    window t (log ++ [(i, out)]) =
      { window t log with
        logs := (window t log).logs ++ i.logDeltas t
        fwd := (window t log).fwd ++ i.fwdDeltas t } := by
  have h1 : sinceTick (log ++ [(i, out)]) = sinceTick log ++ [(i, out)] :=
    List.rtakeWhile_concat_pos _ _ _ (by rw [hi]; rfl)
  have h2 : beforeTick (log ++ [(i, out)]) = beforeTick log :=
    List.rdropWhile_concat_pos _ _ _ (by rw [hi]; rfl)
  rw [window, h1, h2, logDeltas, fwdDeltas, List.flatMap_append, List.flatMap_append,
    List.flatMap_singleton, List.flatMap_singleton]
  rfl

/-- 窓に delta を足さない一歩。 -/
theorem window_quiet (hi : i.isFlushEnd = false)
    (hlog : i.logDeltas t = []) (hfwd : i.fwdDeltas t = []) :
    window t (log ++ [(i, out)]) = window t log := by
  rw [window_concat hi, hlog, hfwd, List.append_nil, List.append_nil]

/-- tick が終わると窓は空になる。 -/
theorem window_flushEnd :
    window t (log ++ [(.flushEnd, out)]) =
      { logs := [], fwd := [], before := (window t log).before + (window t log).logs.length } := by
  have hneg : ¬((!(PropInput.flushEnd : PropInput V).isFlushEnd) = true) := by
    simp [PropInput.isFlushEnd]
  have h1 : sinceTick (log ++ [(.flushEnd, out)]) = [] := List.rtakeWhile_concat_neg _ _ _ hneg
  have h2 : beforeTick (log ++ [(.flushEnd, out)]) = log ++ [(.flushEnd, out)] :=
    List.rdropWhile_concat_neg _ _ _ hneg
  have h3 : beforeTick log ++ sinceTick log = log := List.rdropWhile_append_rtakeWhile
  have h4 : logDeltas t (log ++ [(.flushEnd, out)]) = logDeltas t log := by
    rw [logDeltas, List.flatMap_append, List.flatMap_singleton]
    exact List.append_nil _
  have h5 : logDeltas t log = logDeltas t (beforeTick log) ++ logDeltas t (sinceTick log) := by
    conv_lhs => rw [← h3]
    exact List.flatMap_append
  rw [window, h1, h2, h4, h5, List.length_append]
  rfl

end log

/-! ## store の key -/

section keys

variable {V : Type} [Zero V]

theorem mem_addUpdate {vadd : V → V → V} {m : AList fun _ : Key => V} {key k : Key} {delta : V} :
    k ∈ addUpdate vadd m key delta ↔ k ∈ m ∨ k = key := by
  rw [addUpdate, AList.mem_insert, or_comm]

theorem mem_foldl_addUpdate {vadd : V → V → V} {us : List (Key × V)}
    {m : AList fun _ : Key => V} {k : Key} :
    k ∈ us.foldl (fun m kv => addUpdate vadd m kv.1 kv.2) m ↔ k ∈ m ∨ k ∈ us.map Prod.fst := by
  induction us generalizing m with
  | nil => simp
  | cons kv us ih =>
    rw [List.foldl_cons, ih, mem_addUpdate, List.map_cons, List.mem_cons, or_assoc]

omit [Zero V] in
theorem eq_empty_of_entries {α β : Type} {m : AList fun _ : α => β} (h : m.entries = []) : m = ∅ :=
  AList.ext h

end keys

/-! ## table 一つの store と窓 -/

section table

variable {V : Type} [AddCommMonoid V] {c : NodeConfig V} {t : TableId} {tc : TableConfig V}
  {w : Window V} {pt : PropTable V} {o : FlushOrder V} {buff : UpdateBuffer V}
  {peers : AList fun _ : NodeId => UpdateRange}

/-- 窓の log が占める range `[s, s + c - 1]`。 -/
def Window.range (w : Window V) : UpdateRange where
  st := w.before
  end_ := w.before + w.logs.length - 1

/-- まだ送っていない table の store は、窓の delta を持つ。 -/
structure Accum (tc : TableConfig V) (w : Window V) (pt : PropTable V) : Prop where
  keys : ∀ k, k ∈ pt.updateStore ↔ k ∈ (w.logs ++ w.fwd).map Prod.fst
  sums : content pt.updateStore = total (w.logs ++ w.fwd)
  range : pt.myUpdateRange = w.range
  mineKeys : tc.loop = true → ∀ k, k ∈ pt.myUpdateStore ↔ k ∈ w.logs.map Prod.fst
  mineSums : tc.loop = true → content pt.myUpdateStore = total w.logs
  mineNone : tc.loop = false → pt.myUpdateStore = ∅

/-- 送る buffer は窓の delta を key ごとに足したもので、自分の range は窓の log の分である。 -/
structure BatchOf (c : NodeConfig V) (w : Window V) (buff : UpdateBuffer V) : Prop where
  once : (buff.updates.map Prod.fst).Nodup
  keys : ∀ k, k ∈ buff.updates.map Prod.fst ↔ k ∈ (w.logs ++ w.fwd).map Prod.fst
  sums : total buff.updates = total (w.logs ++ w.fwd)
  range : buff.getNodeRange c.myId = if w.logs = [] then none else some w.range

/-- `EMyUpdates` の buffer は窓の log を key ごとに足したものである。 -/
structure MyBatchOf (c : NodeConfig V) (w : Window V) (myBuff : UpdateBuffer V) : Prop where
  once : (myBuff.updates.map Prod.fst).Nodup
  keys : ∀ k, k ∈ myBuff.updates.map Prod.fst ↔ k ∈ w.logs.map Prod.fst
  sums : total myBuff.updates = total w.logs
  range : myBuff.getNodeRange c.myId = some w.range

omit [AddCommMonoid V] in
theorem Window.range_pending (w : Window V) : w.range.pending = true ↔ w.logs ≠ [] := by
  rw [UpdateRange.pending, decide_eq_true_eq, ← List.length_pos_iff, Window.range]
  dsimp only
  omega

theorem Accum.log (h : Accum tc w pt) (hn : 0 < c.nanosec) (htc : c.tableDir.lookup t = some tc)
    (hadd : tc.vaddFunc = fun x y => x + y) (key : Key) (delta : V) :
    Accum tc { w with logs := w.logs ++ [(key, delta)] } (addLog c t pt key delta) := by
  rw [addLog_eq hn htc, hadd]
  refine ⟨fun k => ?_, ?_, ?_, fun hl => ?_, fun hl => ?_, fun hl => ?_⟩
  · dsimp only
    rw [mem_addUpdate, h.keys]
    simp only [List.map_append, List.mem_append, List.map_cons, List.map_nil, List.mem_singleton]
    tauto
  · dsimp only
    rw [content_addUpdate, h.sums, total_append, total_append, total_append, total_cons, total_nil,
      add_zero, add_right_comm]
  · dsimp only
    rw [h.range, Window.range, Window.range, List.length_append, List.length_singleton]
    congr 1
    push_cast
    omega
  · dsimp only
    rw [if_pos hl]
    intro k
    rw [mem_addUpdate, h.mineKeys hl]
    simp
  · dsimp only
    rw [if_pos hl, content_addUpdate, h.mineSums hl, total_append, total_cons, total_nil, add_zero]
  · dsimp only
    rw [if_neg (by rw [hl]; decide), h.mineNone hl]

theorem Accum.record (h : Accum tc w pt) (hadd : tc.vaddFunc = fun x y => x + y)
    (b : UpdateBuffer V) (peers : AList fun _ : NodeId => UpdateRange) :
    Accum tc { w with fwd := w.fwd ++ b.updates } { pt with
      updateStore := b.iterUpdates.foldl (fun m kv => addUpdate tc.vaddFunc m kv.1 kv.2)
        pt.updateStore
      tablePeersUpdateRange := peers } := by
  rw [UpdateBuffer.iterUpdates_eq, hadd]
  refine ⟨fun k => ?_, ?_, h.range, h.mineKeys, h.mineSums, h.mineNone⟩
  · dsimp only
    rw [mem_foldl_addUpdate, h.keys, ← List.append_assoc]
    simp only [List.map_append, List.mem_append]
  · dsimp only
    rw [content_foldl_addUpdate, h.sums, ← List.append_assoc, total_append _ b.updates]

/-- store が空なら、窓に log は無い。 -/
theorem Accum.logs_nil (h : Accum tc w pt) (he : pt.updateStore.entries = []) : w.logs = [] := by
  rw [List.eq_nil_iff_forall_not_mem]
  intro kv hkv
  have hmem := (h.keys kv.1).mpr (List.mem_map_of_mem (List.mem_append_left _ hkv))
  rw [eq_empty_of_entries he] at hmem
  exact AList.notMem_empty _ hmem

/-- 自分の store が空なら、loop する table の窓に log は無い。 -/
theorem Accum.logs_nil_of_mine (h : Accum tc w pt) (hl : tc.loop = true)
    (he : pt.myUpdateStore.entries = []) : w.logs = [] := by
  rw [List.eq_nil_iff_forall_not_mem]
  intro kv hkv
  have hmem := (h.mineKeys hl kv.1).mpr (List.mem_map_of_mem hkv)
  rw [eq_empty_of_entries he] at hmem
  exact AList.notMem_empty _ hmem

theorem Accum.batchOf (h : Accum tc w pt) (hr : TabRanges c t pt) (hid : 0 ≤ c.myId)
    (ho : o.Valid pt) (hb : buildBuffer c pt o = .ok (buff, peers)) : BatchOf c w buff := by
  obtain ⟨hup, ⟨k, hk⟩, -⟩ := buildBuffer_spec ho hid hr.peers hb
  refine ⟨?_, fun x => ?_, ?_, ?_⟩
  · rw [hup]
    exact (ho.1.map Prod.fst).nodup_iff.mpr (nodup_pairs _)
  · rw [hup, (ho.1.map Prod.fst).mem_iff, mem_keys_pairs, h.keys]
  · rw [hup, total_perm ho.1, total_pairs, h.sums]
  · split
    · next hnil =>
      -- 自分の range は空なので書かれず、peer の表にも自分の id は無い
      cases hg : buff.getNodeRange c.myId with
      | none => rfl
      | some r =>
        have hmem := hk.getNodeRange_some hid hg
        have hp : ¬pt.myUpdateRange.pending = true := by
          rw [h.range, Window.range_pending]
          exact not_not.mpr hnil
        rw [outRanges, if_neg hp, List.append_nil, List.mem_filter, ho.2.1.mem_iff,
          mem_pairs] at hmem
        exact absurd rfl (hr.peers _ _ hmem.1).2
    · next hne =>
      have hp : pt.myUpdateRange.pending = true := by
        rw [h.range, Window.range_pending]
        exact hne
      refine hk.getNodeRange_mem ?_
      rw [outRanges, if_pos hp, ← h.range]
      exact List.mem_append_right _ (List.mem_singleton_self _)

theorem Accum.myBatchOf (h : Accum tc w pt) (hid : 0 ≤ c.myId) (hl : tc.loop = true)
    (ho : o.Valid pt) (hb : buildMyBuffer c pt o.mine = .ok buff) : MyBatchOf c w buff := by
  obtain ⟨-, hup, hk⟩ := buildMyBuffer_spec hid hb
  refine ⟨?_, fun x => ?_, ?_, ?_⟩
  · rw [hup]
    exact (ho.2.2.map Prod.fst).nodup_iff.mpr (nodup_pairs _)
  · rw [hup, (ho.2.2.map Prod.fst).mem_iff, mem_keys_pairs, h.mineKeys hl]
  · rw [hup, total_perm ho.2.2, total_pairs, h.mineSums hl]
  · rw [← h.range]
    exact hk.getNodeRange_mem (List.mem_singleton_self _)

/-- 送り終えた table。 -/
structure Flushed (w : Window V) (pt : PropTable V) : Prop where
  store : pt.updateStore = ∅
  mine : pt.myUpdateStore = ∅
  range : pt.myUpdateRange =
    { st := w.before + w.logs.length, end_ := w.before + w.logs.length - 1 }

/-- `EMyUpdates` を送って返事を待っている table。`log` は窓の履歴である。 -/
structure Waiting (c : NodeConfig V) (t : TableId) (w : Window V) (log : PropLog V)
    (buff : UpdateBuffer V) (pt : PropTable V) : Prop where
  store : pt.updateStore = ∅
  mine : pt.myUpdateStore = ∅
  range : pt.myUpdateRange = w.range
  batch : BatchOf c w buff
  registered : ∃ myBuff, MyBatchOf c w myBuff ∧
    ∃ e ∈ sinceTick log, e.2.pair = [.eMyUpdates t myBuff]

/-- tick の中での table の位置。 -/
inductive TickPhase (V : Type) where
  | accum
  | waiting (buff : UpdateBuffer V)
  | flushed

/-- `pc` から見た table `t` の位置。 -/
def tickPhase (t : TableId) : PropagatorPc V → TickPhase V
  | .flush todo => if t ∈ todo then .accum else .flushed
  | .waitAck t' buff todo => if t = t' then .waiting buff else if t ∈ todo then .accum else .flushed
  | _ => .accum

/-- 位置に応じた、store と窓の関係。 -/
def Tracked (c : NodeConfig V) (t : TableId) (tc : TableConfig V) (log : PropLog V)
    (pt : PropTable V) : TickPhase V → Prop
  | .accum => Accum tc (window t log) pt
  | .waiting buff => Waiting c t (window t log) log buff pt
  | .flushed => Flushed (window t log) pt

theorem Accum.flushed_of_empty (h : Accum tc w pt) (he : pt.updateStore.entries = []) :
    Flushed w pt := by
  have hnil := h.logs_nil he
  refine ⟨eq_empty_of_entries he, ?_, ?_⟩
  · cases hl : tc.loop with
    | false => exact h.mineNone hl
    | true =>
      refine eq_empty_of_entries (List.eq_nil_iff_forall_not_mem.mpr fun e hmem => ?_)
      have hk := (h.mineKeys hl e.1).mp (AList.mem_keys.mpr (List.mem_map_of_mem hmem))
      rw [hnil] at hk
      cases hk
  · rw [h.range, Window.range, hnil]
    rfl

/-- 空の窓から始まる table。 -/
theorem Flushed.accum (h : Flushed w pt) :
    Accum tc { logs := [], fwd := [], before := w.before + w.logs.length } pt := by
  refine ⟨fun k => ?_, ?_, ?_, fun _ k => ?_, fun _ => ?_, fun _ => h.mine⟩
  · rw [h.store]
    exact iff_of_false (AList.notMem_empty _) (by rintro ⟨⟩)
  · rw [h.store]
    rfl
  · rw [h.range, Window.range]
    simp
  · rw [h.mine]
    exact iff_of_false (AList.notMem_empty _) (by rintro ⟨⟩)
  · rw [h.mine]
    rfl

/-- 窓に delta を足さない一歩では、触らない table の関係は変わらない。 -/
theorem Tracked.quiet {log : PropLog V} {i : PropInput V} {out : PropOut V} {ph : TickPhase V}
    (h : Tracked c t tc log pt ph) (hi : i.isFlushEnd = false)
    (hlog : i.logDeltas t = []) (hfwd : i.fwdDeltas t = []) :
    Tracked c t tc (log ++ [(i, out)]) pt ph := by
  have hw : window t (log ++ [(i, out)]) = window t log := window_quiet hi hlog hfwd
  cases ph with
  | accum =>
    unfold Tracked at h ⊢
    rw [hw]
    exact h
  | flushed =>
    unfold Tracked at h ⊢
    rw [hw]
    exact h
  | waiting buff =>
    unfold Tracked at h ⊢
    rw [hw]
    obtain ⟨myBuff, hmy, e, hmem, hpair⟩ := h.registered
    refine ⟨h.store, h.mine, h.range, h.batch, myBuff, hmy, e, ?_, hpair⟩
    rw [sinceTick, List.rtakeWhile_concat_pos _ _ _ (by rw [hi]; rfl)]
    exact List.mem_append_left _ hmem

end table

/-! ## run の間 -/

section run

variable {V : Type} [AddCommMonoid V] {c : NodeConfig V} {t : TableId} {tc : TableConfig V}
  {s : PropHist V} {i : PropInput V} {p' : Propagator V} {out : PropOut V}

/-- for loop の残りの table は重ならない。 -/
def pcTodo : PropagatorPc V → List TableId
  | .flush todo => todo
  | .waitAck t _ todo => t :: todo
  | _ => []

/-- 履歴と propagator の状態の関係。 -/
structure BatchInv (c : NodeConfig V) (t : TableId) (tc : TableConfig V) (s : PropHist V) :
    Prop where
  nodup : (pcTodo s.prop.pc).Nodup
  tracked : s.prop.state = .run →
    Tracked c t tc s.log (s.prop.tab t) (tickPhase t s.prop.pc)

omit [AddCommMonoid V] in
theorem tickPhase_flush_ne {t' : TableId} (h : t ≠ t') (todo : List TableId) :
    tickPhase (V := V) t (.flush (t' :: todo)) = tickPhase t (.flush todo) := by
  simp [tickPhase, h]

omit [AddCommMonoid V] in
theorem tickPhase_waitAck_ne {t' : TableId} (h : t ≠ t') (b : UpdateBuffer V)
    (todo : List TableId) : tickPhase t (.waitAck t' b todo) = tickPhase t (.flush todo) := by
  simp [tickPhase, h]

omit [AddCommMonoid V] in
theorem tickPhase_flush_self (todo : List TableId) :
    tickPhase (V := V) t (.flush (t :: todo)) = .accum := by
  simp [tickPhase]

omit [AddCommMonoid V] in
theorem tickPhase_flushed {todo : List TableId} (h : t ∉ todo) :
    tickPhase (V := V) t (.flush todo) = .flushed := by
  simp [tickPhase, h]

/-- 終了の判定は、RUN のままなら table にも位置にも触らない。 -/
theorem BatchInv.exitTest {p : Propagator V} {log : PropLog V} (hpc : p.pc = .poll)
    (h : p.state = .run → Accum tc (window t log) (p.tab t)) :
    BatchInv c t tc { prop := p.exitTest, log := log } := by
  rw [exitTest_eq]
  constructor
  · dsimp only
    split
    · exact List.nodup_nil
    · rw [hpc]
      exact List.nodup_nil
  · intro hrun
    dsimp only at hrun ⊢
    split at hrun
    · cases hrun
    · next hflag =>
      rw [if_neg hflag, hpc]
      exact h hrun

/-- table `t` にも窓にも触らない一歩。 -/
theorem BatchInv.frame (h : BatchInv c t tc s) (hstate : p'.state = .run → s.prop.state = .run)
    (htab : p'.tab t = s.prop.tab t) (hphase : tickPhase t p'.pc = tickPhase t s.prop.pc)
    (hnd : (pcTodo p'.pc).Nodup) (hi : i.isFlushEnd = false)
    (hlog : i.logDeltas t = []) (hfwd : i.fwdDeltas t = []) :
    BatchInv c t tc { prop := p', log := s.log ++ [(i, out)] } := by
  refine ⟨hnd, fun hrun => ?_⟩
  dsimp only
  rw [htab, hphase]
  exact (h.tracked (hstate hrun)).quiet hi hlog hfwd

/-- table `t` の番に来て、その表を書き換える一歩。 -/
theorem BatchInv.turn {pt : PropTable V} {pc : PropagatorPc V} {sock : Bool}
    (hstate : s.prop.state = .run → Tracked c t tc (s.log ++ [(i, out)]) pt (tickPhase t pc))
    (hnd : (pcTodo pc).Nodup) :
    BatchInv c t tc
      { prop := { s.prop with
          tab := Function.update s.prop.tab t pt, pairPushSock := sock, pc := pc }
        log := s.log ++ [(i, out)] } := by
  refine ⟨hnd, fun hrun => ?_⟩
  dsimp only at hrun ⊢
  rw [Function.update_self]
  exact hstate hrun

theorem BatchInv.flushTable {o : FlushOrder V} (hid : 0 ≤ c.myId)
    (htc : c.tableDir.lookup t = some tc) (hr : Ranges c s.prop) (h : BatchInv c t tc s)
    (he : PropEff c s.prop (.flushTable o) p' out) :
    BatchInv c t tc { prop := p', log := s.log ++ [(.flushTable o, out)] } := by
  have hnd := h.nodup
  have htr := h.tracked
  cases he with
  | @skip _ t' todo hpc hst =>
    rw [hpc] at hnd htr
    have hnd' := (List.nodup_cons.mp hnd).2
    by_cases ht : t = t'
    · subst ht
      refine ⟨hnd', fun hrun => ?_⟩
      rw [tickPhase_flush_self] at htr
      dsimp only
      rw [tickPhase_flushed (List.nodup_cons.mp hnd).1]
      refine Tracked.quiet ?_ rfl rfl rfl
      exact Accum.flushed_of_empty (htr hrun) hst
    · refine h.frame id rfl ?_ hnd' rfl rfl rfl
      rw [hpc, tickPhase_flush_ne ht]
  | @ask _ t' todo buff peers tc' myBuff hpc ho hst hb htc' hl hmy hm =>
    rw [hpc] at hnd htr
    by_cases ht : t = t'
    · subst ht
      rw [htc] at htc'
      cases htc'
      refine BatchInv.turn (fun hrun => ?_) hnd
      rw [tickPhase_flush_self] at htr
      have hacc : Accum tc (window t s.log) (s.prop.tab t) := htr hrun
      have hw : window t (s.log ++ [((.flushTable o : PropInput V),
          ({ pair := [.eMyUpdates t myBuff], events := [.myUpdatesSent c.myId t myBuff] }
            : PropOut V))]) = window t s.log := window_quiet rfl rfl rfl
      rw [show tickPhase t (.waitAck t buff todo) = .waiting buff by simp [tickPhase]]
      unfold Tracked
      rw [hw]
      refine ⟨rfl, rfl, hacc.range, hacc.batchOf (hr.tab t) hid ho hb, myBuff,
        hacc.myBatchOf hid hl ho hm, (.flushTable o,
          { pair := [.eMyUpdates t myBuff], events := [.myUpdatesSent c.myId t myBuff] }), ?_, rfl⟩
      rw [sinceTick, List.rtakeWhile_concat_pos _ _ _ rfl]
      exact List.mem_append_right _ List.mem_cons_self
    · refine h.frame id (Function.update_of_ne ht _ _) ?_ hnd rfl rfl rfl
      rw [hpc, tickPhase_flush_ne ht, tickPhase_waitAck_ne ht]
  | @send _ t' todo buff peers hpc ho hst hb hmy _ =>
    rw [hpc] at hnd htr
    have hnd' := (List.nodup_cons.mp hnd).2
    by_cases ht : t = t'
    · subst ht
      refine BatchInv.turn (fun hrun => ?_) hnd'
      rw [tickPhase_flush_self] at htr
      have hacc : Accum tc (window t s.log) (s.prop.tab t) := htr hrun
      rw [tickPhase_flushed (List.nodup_cons.mp hnd).1]
      refine Tracked.quiet ?_ rfl rfl rfl
      refine ⟨rfl, ?_, ?_⟩
      -- 登録せずに送れるのは、loop しない table か、自分の update が無い時である
      · cases hl : tc.loop with
        | false => exact hacc.mineNone hl
        | true => exact eq_empty_of_entries (hmy tc htc hl)
      · rw [closeMyRange]
        dsimp only
        rw [hacc.range, Window.range]
        simp
    · refine h.frame id (Function.update_of_ne ht _ _) ?_ hnd' rfl rfl rfl
      rw [hpc, tickPhase_flush_ne ht]

/-- 返事を受けた table だけが flush 済みになり、他の table の順番は変わらない。 -/
theorem BatchInv.reply {t' : TableId} {buff : UpdateBuffer V} {todo : List TableId}
    (h : BatchInv c t tc s) (he : PropEff c s.prop (.myUpdatesReply .eMyUpdatesACK) p' out)
    (hpc : s.prop.pc = .waitAck t' buff todo) :
    BatchInv c t tc { prop := p', log := s.log ++ [(.myUpdatesReply .eMyUpdatesACK, out)] } := by
  have hnd := h.nodup
  have htr := h.tracked
  rw [hpc] at hnd htr
  have hnd' := (List.nodup_cons.mp hnd).2
  cases he with
  | @reply t₁ buff₁ todo₁ hpc₁ _ =>
    obtain ⟨rfl, rfl, rfl⟩ := PropagatorPc.waitAck.inj (hpc.symm.trans hpc₁)
    by_cases ht : t = t'
    · subst ht
      refine BatchInv.turn (fun hrun => ?_) hnd'
      rw [show tickPhase t (.waitAck t buff todo) = .waiting buff by simp [tickPhase]] at htr
      have hwait : Waiting c t (window t s.log) s.log buff (s.prop.tab t) := htr hrun
      rw [tickPhase_flushed (List.nodup_cons.mp hnd).1]
      refine Tracked.quiet ?_ rfl rfl rfl
      refine ⟨hwait.store, hwait.mine, ?_⟩
      rw [closeMyRange]
      dsimp only
      rw [hwait.range, Window.range]
      simp
    · refine h.frame id (Function.update_of_ne ht _ _) ?_ hnd' rfl rfl rfl
      rw [hpc, tickPhase_waitAck_ne ht]

/-- tick が終わると、窓はそこで空から始まる。 -/
theorem BatchInv.flushEnd (h : BatchInv c t tc s) (hpc : s.prop.pc = .flush []) :
    BatchInv c t tc { prop := s.prop.flushEnd, log := s.log ++ [(.flushEnd, out)] } := by
  have htr := h.tracked
  rw [hpc, tickPhase_flushed List.not_mem_nil] at htr
  refine ⟨?_, fun hrun => ?_⟩
  · rw [Propagator.flushEnd]
    dsimp only
    split <;> exact List.nodup_nil
  · have hrun' : s.prop.state = .run := hrun
    have hfl : Flushed (window t s.log) (s.prop.tab t) := htr hrun'
    rw [Propagator.flushEnd]
    dsimp only
    rw [hrun', if_neg (by simp)]
    unfold tickPhase Tracked
    dsimp only
    rw [window_flushEnd]
    exact hfl.accum

/-- log を一つ処理すると、窓の log が一つ伸び、store には同じ delta が足される。 -/
theorem BatchInv.log {t' : TableId} {key : Key} {delta : V} (hn : 0 < c.nanosec)
    (htc : c.tableDir.lookup t = some tc) (hadd : tc.vaddFunc = fun x y => x + y)
    (h : BatchInv c t tc s) (hpc : s.prop.pc = .poll) (hrun : s.prop.state = .run) :
    BatchInv c t tc
      { prop := { s.prop with
          tab := Function.update s.prop.tab t' (addLog c t' (s.prop.tab t') key delta) }
        log := s.log ++ [(.update (.epUpdateLog t' key delta), out)] } := by
  have htr := h.tracked
  rw [hpc] at htr
  by_cases ht : t = t'
  · subst ht
    have hacc : Accum tc (window t s.log) (s.prop.tab t) := htr hrun
    refine ⟨by rw [hpc]; exact List.nodup_nil, fun _ => ?_⟩
    dsimp only
    rw [Function.update_self, hpc]
    unfold tickPhase Tracked
    dsimp only
    have hlog : (PropInput.update (.epUpdateLog t key delta)).logDeltas t = [(key, delta)] :=
      if_pos rfl
    rw [window_concat rfl, hlog]
    exact (List.append_nil (window t s.log).fwd).symm ▸ hacc.log hn htc hadd key delta
  · exact h.frame id (Function.update_of_ne ht _ _) rfl h.nodup rfl (if_neg (Ne.symm ht)) rfl

/-- 渡された buffer を記録すると、窓の後ろに同じ delta が並ぶ。 -/
theorem BatchInv.record {t' : TableId} {b : UpdateBuffer V} {tc' : TableConfig V}
    {peers : AList fun _ : NodeId => UpdateRange} (htc : c.tableDir.lookup t = some tc)
    (hadd : tc.vaddFunc = fun x y => x + y) (h : BatchInv c t tc s) (hpc : s.prop.pc = .poll)
    (hrun : s.prop.state = .run) (htc' : c.tableDir.lookup t' = some tc') :
    BatchInv c t tc
      { prop := { s.prop with tab := Function.update s.prop.tab t' { s.prop.tab t' with
          updateStore := b.iterUpdates.foldl (fun m kv => addUpdate tc'.vaddFunc m kv.1 kv.2)
            (s.prop.tab t').updateStore
          tablePeersUpdateRange := peers } }
        log := s.log ++ [(.update (.epUpdateBuffer t' b), out)] } := by
  have htr := h.tracked
  rw [hpc] at htr
  by_cases ht : t = t'
  · subst ht
    rw [htc] at htc'
    cases htc'
    have hacc : Accum tc (window t s.log) (s.prop.tab t) := htr hrun
    refine ⟨by rw [hpc]; exact List.nodup_nil, fun _ => ?_⟩
    dsimp only
    rw [Function.update_self, hpc]
    unfold tickPhase Tracked
    dsimp only
    have hfwd : (PropInput.update (.epUpdateBuffer t b)).fwdDeltas t = b.updates := if_pos rfl
    rw [window_concat rfl, hfwd]
    exact (List.append_nil (window t s.log).logs).symm ▸ hacc.record hadd b peers
  · exact h.frame id (Function.update_of_ne ht _ _) rfl h.nodup rfl rfl (if_neg (Ne.symm ht))

theorem BatchInv.step (hid : 0 ≤ c.myId) (hn : 0 < c.nanosec)
    (htc : c.tableDir.lookup t = some tc) (hadd : tc.vaddFunc = fun x y => x + y)
    (hr : Ranges c s.prop) (h : BatchInv c t tc s) (he : PropEff c s.prop i p' out) :
    BatchInv c t tc { prop := p', log := s.log ++ [(i, out)] } := by
  have hnd := h.nodup
  have htr := h.tracked
  cases he with
  | @trigger order hpc _ hperm =>
    have hmem : t ∈ order :=
      hperm.mem_iff.mpr (AList.mem_keys.mp (AList.lookup_isSome.mp (by rw [htc]; rfl)))
    refine h.frame id rfl ?_ ?_ rfl rfl rfl
    · rw [hpc, tickPhase, if_pos hmem]
      rfl
    · exact hperm.nodup_iff.mpr c.tableDir.nodupKeys
  | skip hpc hst => exact h.flushTable hid htc hr (.skip hpc hst)
  | ask hpc ho hst hb htc' hl hmy hm =>
    exact h.flushTable hid htc hr (.ask hpc ho hst hb htc' hl hmy hm)
  | send hpc ho hst hb hmy hd => exact h.flushTable hid htc hr (.send hpc ho hst hb hmy hd)
  | reply hpc hd => exact h.reply (.reply hpc hd) hpc
  | flushEnd hpc => exact h.flushEnd hpc
  | timerStopped hpc =>
    rw [hpc] at htr
    exact BatchInv.exitTest rfl fun hrun => (htr hrun).quiet rfl rfl rfl
  | log hpc hrun => exact h.log hn htc hadd hpc hrun
  | record hpc hrun htc' _ => exact h.record htc hadd hpc hrun htc'
  | drop _ hs => exact ⟨hnd, fun hrun => absurd hrun hs⟩
  | internalTerminate => exact ⟨hnd, by rintro ⟨⟩⟩
  | recvAck hpc =>
    rw [hpc] at htr
    exact BatchInv.exitTest hpc fun hrun => (htr hrun).quiet rfl rfl rfl
  | terminate hpc _ hp =>
    obtain ⟨d, r, rfl | rfl⟩ := hp
    · exact h.frame id rfl rfl hnd rfl rfl rfl
    · rw [hpc] at htr
      exact BatchInv.exitTest hpc fun hrun => (htr hrun).quiet rfl rfl rfl

variable [DecidableEq V]

theorem PropReachable.batchInv (hid : 0 ≤ c.myId) (hn : 0 < c.nanosec)
    (htc : c.tableDir.lookup t = some tc) (hadd : tc.vaddFunc = fun x y => x + y)
    (h : PropReachable c s) : BatchInv c t tc s := by
  refine PropReachableUnder.invariant h ?_ ?_
  · refine ⟨List.nodup_nil, fun _ => ?_⟩
    have hfl : Flushed ({ logs := [], fwd := [], before := 0 } : Window V)
        ((PropHist.start c).prop.tab t) := ⟨rfl, rfl, rfl⟩
    exact hfl.accum
  · intro s i p' out hr _ he hI
    exact hI.step hid hn htc hadd (PropReachable.ranges hid hr) he

omit [AddCommMonoid V] [DecidableEq V] in
/-- 下流があれば、table の番は落ちずに進む。 -/
theorem flushTable_succeeds {p : Propagator V} (hid : 0 ≤ c.myId) (hd : c.hasDownstream = true)
    (hr : TabRanges c t (p.tab t)) {o : FlushOrder V} (todo : List TableId)
    (ho : o.Valid (p.tab t)) : ∃ res, p.flushTable c t todo o = .ok res := by
  obtain ⟨buff, peers, hb, -⟩ := buildBuffer_ok ho hid hr.peers
  unfold Propagator.flushTable
  dsimp only
  split
  · exact ⟨_, rfl⟩
  · rw [hb]
    dsimp only
    split
    · next hloop =>
      have hne : (p.tab t).myUpdateStore.entries ≠ [] := by
        rintro he
        rw [he] at hloop
        exact absurd hloop (by simp)
      obtain ⟨-, myBuff, -, -, hm, -⟩ := buildMyBuffer_ok hid ho.2.2 (hr.mine hne)
      rw [hm]
      exact ⟨_, rfl⟩
    · rw [finishFlush, hd]
      exact ⟨_, rfl⟩

/--
RUN の propagator が table `t` について次に送るもの。`s` の履歴の、前の tick より後が窓である。

`sent` と `registered` は下流へ送る buffer、`asked` は paired receiver に渡す batch について述べる。
-/
structure BatchExact (c : NodeConfig V) (t : TableId) (tc : TableConfig V) (s : PropHist V) :
    Prop where
  /-- 下流へ送る buffer は窓の delta を key ごとに足したもので、送った後の store は空である。 -/
  sent : ∀ {i p' out buff}, propHandle c s.prop i = some (.ok (p', out)) →
    .eprUpdateBuffer t buff ∈ out.push →
    out.push = [.eprUpdateBuffer t buff] ∧ BatchOf c (window t s.log) buff ∧
      (p'.tab t).updateStore = ∅ ∧ (p'.tab t).myUpdateStore = ∅
  /-- loop する table に log があれば、先に、同じ range と log だけの和を持つ batch を渡してある。 -/
  registered : ∀ {i p' out buff}, propHandle c s.prop i = some (.ok (p', out)) →
    .eprUpdateBuffer t buff ∈ out.push → tc.loop = true → (window t s.log).logs ≠ [] →
    ∃ e ∈ sinceTick s.log, ∃ myBuff, e.2.pair = [.eMyUpdates t myBuff] ∧
      myBuff.getNodeRange c.myId = buff.getNodeRange c.myId ∧
      total myBuff.updates = total (window t s.log).logs ∧
      ∀ k ∈ myBuff.updates.map Prod.fst, k ∈ buff.updates.map Prod.fst
  asked : ∀ {i p' out myBuff}, propHandle c s.prop i = some (.ok (p', out)) →
    .eMyUpdates t myBuff ∈ out.pair →
    out.pair = [.eMyUpdates t myBuff] ∧ MyBatchOf c (window t s.log) myBuff
  /-- 自分の update があるのに自分の range が空、ということは起こらない。 -/
  rangeNonempty : ∀ i, propHandle c s.prop i ≠ some (.error .myUpdateRangeEmpty)
  /-- 下流があれば、table の番は落ちずに進む。 -/
  flushes : c.hasDownstream = true → ∀ o todo, s.prop.pc = .flush (t :: todo) →
    o.Valid (s.prop.tab t) → ∃ res, propHandle c s.prop (.flushTable o) = some (.ok res)
  replies : c.hasDownstream = true → ∀ buff todo, s.prop.pc = .waitAck t buff todo →
    ∃ res, propHandle c s.prop (.myUpdatesReply .eMyUpdatesACK) = some (.ok res) ∧
      res.2.push = [.eprUpdateBuffer t buff]

omit [DecidableEq V] in
/-- buffer を送る一歩では、窓の delta が全て送られる。 -/
theorem BatchInv.sends {buff : UpdateBuffer V} (hid : 0 ≤ c.myId)
    (htc : c.tableDir.lookup t = some tc) (hr : Ranges c s.prop) (h : BatchInv c t tc s)
    (hrun : s.prop.state = .run) (he : PropEff c s.prop i p' out)
    (hpush : .eprUpdateBuffer t buff ∈ out.push) :
    out.push = [.eprUpdateBuffer t buff] ∧ BatchOf c (window t s.log) buff ∧
      (p'.tab t).updateStore = ∅ ∧ (p'.tab t).myUpdateStore = ∅ ∧
      (tc.loop = true → (window t s.log).logs ≠ [] → ∃ myBuff,
        MyBatchOf c (window t s.log) myBuff ∧
          ∃ e ∈ sinceTick s.log, e.2.pair = [.eMyUpdates t myBuff]) := by
  have htr := h.tracked hrun
  cases he with
  | @send o t' todo buff' peers hpc ho hst hb hmy hd =>
    obtain ⟨rfl, rfl⟩ : t = t' ∧ buff = buff' := by simpa using hpush
    rw [hpc, tickPhase_flush_self] at htr
    have hacc : Accum tc (window t s.log) (s.prop.tab t) := htr
    refine ⟨rfl, hacc.batchOf (hr.tab t) hid ho hb, ?_, ?_, fun hl hne => ?_⟩
    · dsimp only
      rw [Function.update_self]
      rfl
    · dsimp only
      rw [Function.update_self]
      cases hl : tc.loop with
      | false => exact hacc.mineNone hl
      | true => exact eq_empty_of_entries (hmy tc htc hl)
    · exact absurd (hacc.logs_nil_of_mine hl (hmy tc htc hl)) hne
  | @reply t' buff' todo hpc hd =>
    obtain ⟨rfl, rfl⟩ : t = t' ∧ buff = buff' := by simpa using hpush
    rw [hpc, show tickPhase t (.waitAck t buff todo) = .waiting buff by simp [tickPhase]] at htr
    have hwait : Waiting c t (window t s.log) s.log buff (s.prop.tab t) := htr
    refine ⟨rfl, hwait.batch, ?_, ?_, fun _ _ => hwait.registered⟩
    · dsimp only
      rw [Function.update_self]
      exact hwait.store
    · dsimp only
      rw [Function.update_self]
      exact hwait.mine
  -- 残りの一歩は buffer を送らない
  | internalTerminate _ _ _ _ _ hack | terminate _ _ _ _ _ _ hack => cases hack _ hpush
  | _ => cases hpush

omit [DecidableEq V] in
/-- batch を渡す一歩では、窓の log だけが渡される。 -/
theorem BatchInv.asks {myBuff : UpdateBuffer V} (hid : 0 ≤ c.myId)
    (htc : c.tableDir.lookup t = some tc) (h : BatchInv c t tc s) (hrun : s.prop.state = .run)
    (he : PropEff c s.prop i p' out) (hpair : .eMyUpdates t myBuff ∈ out.pair) :
    out.pair = [.eMyUpdates t myBuff] ∧ MyBatchOf c (window t s.log) myBuff := by
  have htr := h.tracked hrun
  cases he with
  | @ask o t' todo buff peers tc' myBuff' hpc ho hst hb htc' hl hmy hm =>
    obtain ⟨rfl, rfl⟩ : t = t' ∧ myBuff = myBuff' := by simpa using hpair
    obtain rfl : tc = tc' := Option.some.inj (htc.symm.trans htc')
    rw [hpc, tickPhase_flush_self] at htr
    have hacc : Accum tc (window t s.log) (s.prop.tab t) := htr
    exact ⟨rfl, hacc.myBatchOf hid hl ho hm⟩
  | internalTerminate _ _ _ hp =>
    rw [hp] at hpair
    cases List.mem_singleton.mp hpair
  | terminate _ _ _ _ hp =>
    rw [hp] at hpair
    cases hpair
  | _ => cases hpair

/-- **自分の range の無い buffer だけを渡された propagator は、窓の delta をちょうど送る。** -/
theorem PropReachable.batchExact (hid : 0 ≤ c.myId) (hn : 0 < c.nanosec)
    (htc : c.tableDir.lookup t = some tc) (hadd : tc.vaddFunc = fun x y => x + y)
    (h : PropReachable c s) (hrun : s.prop.state = .run) : BatchExact c t tc s := by
  have hr := h.ranges hid
  have hinv := h.batchInv hid hn htc hadd
  refine ⟨fun hp hpush => ?_, fun hp hpush hl hne => ?_, fun hp hpair => ?_, fun i hp => ?_,
    fun hd o todo hpc ho => ?_, fun hd buff todo hpc => ?_⟩
  · obtain ⟨h1, h2, h3, h4, -⟩ := hinv.sends hid htc hr hrun (propHandle_cases hp) hpush
    exact ⟨h1, h2, h3, h4⟩
  · obtain ⟨-, hbatch, -, -, hreg⟩ := hinv.sends hid htc hr hrun (propHandle_cases hp) hpush
    obtain ⟨myBuff, hmy, e, hmem, hpair⟩ := hreg hl hne
    refine ⟨e, hmem, myBuff, hpair, ?_, hmy.sums, fun k hk => ?_⟩
    · rw [hmy.range, hbatch.range, if_neg hne]
    · rw [hbatch.keys, List.map_append]
      exact List.mem_append_left _ ((hmy.keys k).mp hk)
  · exact hinv.asks hid htc hrun (propHandle_cases hp) hpair
  · cases propHandle_fails hp with
    | rangeEmpty hpc hmy hempty => exact hempty (of_decide_eq_true ((hr.tab _).mine hmy))
  · obtain ⟨res, hres⟩ := flushTable_succeeds hid hd (hr.tab t) todo ho
    refine ⟨res, ?_⟩
    unfold propHandle
    rw [hpc]
    dsimp only
    rw [if_pos ho, hres]
  · unfold propHandle
    rw [hpc]
    dsimp only
    rw [onMyUpdatesReply, finishFlush, hd]
    exact ⟨_, rfl, rfl⟩

/--
**RUN の propagator が tick で table に送る buffer は、前の tick の後に処理した log と渡された buffer
の delta を、順によらず key ごとに足したものである。**

どの結び方の、どの run `ls` でも、`j` の propagator が処理したことの列（`propInputs`）はその propagator の run になり、
着いた状態から送るものは履歴の窓の通りである。`sent` の buffer が運ぶ自分の range は、処理した log の分
`[s, s + c - 1]` で、無ければ運ばない。buffer を channel に入れるのは、`BatchExact` の言う一歩だけである。
-/
theorem batching_exact {Node : Type} [DecidableEq Node] {C : SysConfig Node V} {j : Node}
    (hn : 0 < C.nanosec j) (htc : (C.tableDir j).lookup t = some tc)
    (hadd : tc.vaddFunc = fun x y => x + y) {ls : List (SysLabel Node V)} {σ : SysState Node V}
    (hls : Lts.run (sysStep C) (SysState.start C) ls = some σ)
    (hrun : (σ.node j).prop.state = .run) :
    ∃ s, Lts.run (histStep (C.nodeConfig j)) (PropHist.start (C.nodeConfig j))
        (propInputs C j (SysState.start C) ls) = some s ∧
      s.prop = (σ.node j).prop ∧ BatchExact (C.nodeConfig j) t tc s ∧
      ∀ l σ' buff, sysStep C σ l = some (.ok σ') →
        σ'.tcp j = σ.tcp j ++ [.eprUpdateBuffer t buff] →
        ∃ i p' out, propHandle (C.nodeConfig j) s.prop i = some (.ok (p', out)) ∧
          out.push = [.eprUpdateBuffer t buff] := by
  obtain ⟨s, hs, hreach, heq⟩ := SysState.propHistory hls j
  have hexact := hreach.batchExact (t := t) (C.id_nonneg j) hn htc hadd (by rw [heq]; exact hrun)
  refine ⟨s, hs, heq, hexact, fun l σ' buff hstep htcp => ?_⟩
  have hσ : SysReachable C σ := .of_run hls
  rcases hσ.step_prop hstep j with ⟨i, po, -, hp, hpush⟩ | ⟨-, -, hle⟩
  · rw [heq]
    exact ⟨i, _, po, hp, List.append_cancel_left (hpush.symm.trans htcp)⟩
  · rw [htcp, List.length_append] at hle
    exact absurd hle (by simp)

end run

/-- 二つの node の輪の node 0 が、二つの log と node 1 から渡された buffer を一つにまとめて送る tick。 -/
theorem batching_exact_pairRing :
    ∃ (σ : SysState (Fin 2) (BitVec 32)) (s : PropHist (BitVec 32)) (p' : Propagator (BitVec 32))
      (out : PropOut (BitVec 32)) (buff : UpdateBuffer (BitVec 32)), SysReachable pairRing σ ∧
      s.prop = (σ.node 0).prop ∧
      propHandle (pairRing.nodeConfig 0) s.prop (.myUpdatesReply .eMyUpdatesACK)
        = some (.ok (p', out)) ∧
      out.push = [.eprUpdateBuffer 0 buff] ∧ (window 0 s.log).logs = [(1, 1), (1, 2)] ∧
      (window 0 s.log).fwd = [(2, 3)] ∧ BatchOf (pairRing.nodeConfig 0) (window 0 s.log) buff := by
  let labels : List (SysLabel (Fin 2) (BitVec 32)) := List.flatten
    [incLabels 1 2 3, tickLabels 1 ⟨[(2, 3)], [], [(2, 3)]⟩, incLabels 0 1 1,
      [.tcp 1, .node 0 .pullRecv], incLabels 0 1 2,
      [.node 0 .timerFire, .node 0 (.timerTrigger [0]), .node 0 .timerCmd,
        .node 0 (.flushTable ⟨[(2, 3), (1, 3)], [(1, ⟨0, 0⟩)], [(1, 3)]⟩), .node 0 .recvPair]]
  let buff : UpdateBuffer (BitVec 32) :=
    { updateCapacity := 2, updates := [(2, 3), (1, 3)], slots := [⟨1, 0, 0⟩, ⟨0, 0, 1⟩],
      updateIter := 0, nodeRangeIter := 0 }
  obtain ⟨σ, hls, hrun, hpc⟩ : ∃ σ, Lts.run (sysStep pairRing) (SysState.start pairRing) labels
      = some σ ∧ (σ.node 0).prop.state = .run ∧ (σ.node 0).prop.pc = .waitAck 0 buff [] :=
    Lts.exists_run (by decide +kernel)
  obtain ⟨s, hs, heq, hexact, -⟩ := batching_exact (j := 0) (t := 0) (by decide) rfl rfl hls hrun
  obtain ⟨⟨p', out⟩, hres, hpush⟩ := hexact.replies rfl buff [] (by rw [heq, hpc])
  obtain ⟨s', hs', hlogs, hfwd⟩ : ∃ s', Lts.run (histStep (pairRing.nodeConfig 0))
      (PropHist.start (pairRing.nodeConfig 0))
      (propInputs pairRing 0 (SysState.start pairRing) labels) = some s' ∧
      (window 0 s'.log).logs = [(1, 1), (1, 2)] ∧ (window 0 s'.log).fwd = [(2, 3)] :=
    Lts.exists_run (by decide +kernel)
  obtain rfl : s = s' := Option.some.inj (hs.symm.trans hs')
  refine ⟨σ, s, p', out, buff, .of_run hls, heq, hres, hpush, hlogs, hfwd, ?_⟩
  exact (hexact.sent hres (by rw [hpush]; exact List.mem_cons_self)).2.1

end QuiltDB
