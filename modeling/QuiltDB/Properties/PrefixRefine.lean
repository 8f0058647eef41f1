import QuiltDB.Lib.PrefixStore
import QuiltDB.Properties.LiveFlow
import QuiltDB.Properties.Prefix

/-!
# 森の system は、log の先頭を配る複製である

輪の無い network で動く system を、`PrefixStore` の仕様と突き合わせる。system の状態から仕様の状態を読み取り
（`SysState.prefixState`）、system の一歩が仕様の一歩か、仕様では何も起きない一歩であることを示す。

どの node がいつ `ShutDown` してもよい。仕様の状態から読める表は、いつも実際の table と同じである。
-/

namespace QuiltDB

open Segments Totals Slices

variable {V Node : Type}

/-! ## 下流は上流を追い越さない -/

section order

variable [DecidableEq Node] {C : SysConfig Node V} {t : TableId} {o j u d : Node} {v : TabView V}
  {S : TabSys Node V}

/-- peer の range は、記録した所までしか送らない。 -/
theorem NodeShape.emitted_le_recd (hs : NodeShape C j v) (hj : j ≠ o) :
    v.emitted C o j ≤ v.recd (C.id o) := by
  rw [TabView.emitted, if_neg hj, TabView.recd]
  cases hl : v.pt.tablePeersUpdateRange.lookup (C.id o) with
  | none => exact le_rfl
  | some r => exact (hs.peers _ _ hl).2.2

/-- 自分の range は、処理した log の所までしか送らない。 -/
theorem NodeShape.emitted_le_logs {tr : List (Event V)} (hs : NodeShape C o v)
    (ht : NodeTally C t tr o v) : v.emitted C o o ≤ (logsOf (C.id o) t tr).length := by
  rw [ht.length, TabView.emitted, if_pos rfl]
  split
  · exact le_rfl
  · exact hs.range

/-- 上流が送り終えた所は、上流が持っている所を越えない。 -/
theorem Flow.emitted_le (hf : Flow (· ≤ ·) C t o S) (hs : Shape C S)
    (ht : NodeTally C t S.trace o (S.view o)) (u : Node) :
    (S.view u).emitted C o u
      ≤ if u = o then ((logsOf (C.id o) t S.trace).length : Int) else recvTop C t o S.trace u := by
  split
  · next hu =>
    subst hu
    exact (hs.node u).emitted_le_logs ht
  · next hu => exact ((hs.node u).emitted_le_recd hu).trans ((hf.node u).fwd hu).le

/-- 区間の列の端は、後ろほど大きい。 -/
theorem foldl_max_of_chain {a b : Int} {xs : List (Int × Int)} (h : Chain (· ≤ ·) a xs b) :
    (xs.map Prod.snd).foldl max a = (xs.getLast?.map Prod.snd).getD a := by
  induction xs generalizing a with
  | nil => rfl
  | cons s xs ih =>
    obtain ⟨h1, h2, h3⟩ := h
    rw [List.map_cons, List.foldl_cons, max_eq_right (h1.trans h2.le), ih h3, List.getLast?_cons]
    cases xs.getLast? <;> rfl

omit [DecidableEq Node] in
theorem processedTo_eq_recvTop {tr : List (Event V)}
    (h : Chain (· ≤ ·) 0 (recvSegs C t o (tr.filter (Event.isOf t)) j)
      (recvTop C t o (tr.filter (Event.isOf t)) j)) :
    recvTop C t o (tr.filter (Event.isOf t)) j = processedTo C t o j tr := by
  have hmax := foldl_max_of_chain h
  rw [recvSegs_filter] at hmax
  rw [processedTo, hmax, recvTop, topOf, recvSegs_filter]

variable [Zero V] [DecidableEq V] {s : SysState Node V}

/--
**下流は上流を追い越さない。** `o` の update を運ぶ道が一つなら、どの node がいつ止まっても、下流の receiver が
処理した `o` の range は、上流が持っている所を越えない。
-/
theorem downstream_never_ahead (hsf : C.SingleFeed o) (h : SysReachable C s)
    (hd : C.down u = some d) (hfeed : C.Feeds o u) :
    processedTo C t o d s.trace
      ≤ if u = o then ((logsOf (C.id o) t s.trace).length : Int) else processedTo C t o u s.trace := by
  have htab := h.tabReach t
  have hflow := htab.flow_le hsf
  have htop : ∀ j, recvTop C t o (s.tab t).trace j = processedTo C t o j s.trace := fun j =>
    processedTo_eq_recvTop (hflow.node j).recv
  have hle := (hflow.link u d hd hfeed).le.trans
    (hflow.emitted_le htab.shape (htab.nodeTally o) u)
  have hlogs : logsOf (C.id o) t (s.tab t).trace = logsOf (C.id o) t s.trace :=
    handledLog_local.filterMap_filter s.trace
  rwa [htop, htop, hlogs] at hle

end order

/-! ## 仕様の状態 -/

/-- table `t` から読み取る、仕様の状態。 -/
def TabSys.prefixState (C : SysConfig Node V) (t : TableId) (S : TabSys Node V) :
    PrefixStore.State Node Key V where
  own := fun j => incsOf (C.id j) t S.trace
  pending := fun j => (S.view j).logs
  log := fun o => logsOf (C.id o) t S.trace
  seen := fun j o => (recvTop C t o S.trace j).toNat

/-- system から読み取る、仕様の状態。 -/
def SysState.prefixState (C : SysConfig Node V) (t : TableId) (s : SysState Node V) :
    PrefixStore.State Node Key V where
  own := fun j => incsOf (C.id j) t s.trace
  pending := fun j => (s.node j).appQ.filterMap fun e => e.2.logOf t
  log := fun o => logsOf (C.id o) t s.trace
  seen := fun j o => (processedTo C t o j s.trace).toNat

section simulation

variable [DecidableEq Node] {C : SysConfig Node V} {t : TableId} {j u d : Node} {v' : TabView V}
  {ev : List (Event V)} {S S' : TabSys Node V}

/-- node `j` の一歩の後の仕様の状態。他の node のものは変わらない。 -/
theorem prefixState_update (hev : ∀ k, k ≠ j → ∀ e ∈ ev, e.nodeId ≠ C.id k)
    {chan : Node → List (UpdateBuffer V)} :
    TabSys.prefixState C t
        { view := Function.update S.view j v', chan := chan, trace := S.trace ++ ev } =
      { own := Function.update (S.prefixState C t).own j
          (incsOf (C.id j) t S.trace ++ incsOf (C.id j) t ev)
        pending := Function.update (S.prefixState C t).pending j v'.logs
        log := Function.update (S.prefixState C t).log j
          (logsOf (C.id j) t S.trace ++ logsOf (C.id j) t ev)
        seen := Function.update (S.prefixState C t).seen j
          fun o => (recvTop C t o (S.trace ++ ev) j).toNat } := by
  unfold TabSys.prefixState
  congr 1
  · funext k
    by_cases hk : k = j
    · subst hk
      rw [Function.update_self, incsOf_append]
    · rw [Function.update_of_ne hk, incsOf_other (hev k hk)]
  · funext k
    by_cases hk : k = j
    · subst hk
      dsimp only
      rw [Function.update_self, Function.update_self]
    · dsimp only
      rw [Function.update_of_ne hk, Function.update_of_ne hk]
  · funext k
    by_cases hk : k = j
    · subst hk
      rw [Function.update_self, logsOf_append]
    · rw [Function.update_of_ne hk, logsOf_other (hev k hk)]
  · funext k o
    by_cases hk : k = j
    · subst hk
      rw [Function.update_self]
    · rw [Function.update_of_ne hk, (recvTop_frame o S.trace (receivedBy_other (hev k hk))).2]

omit [DecidableEq Node] in
/-- 受け取りが無ければ、届いた所も変わらない。 -/
theorem seen_frame (hrecv : receivedBy (C.id j) t ev = []) :
    (fun o => (recvTop C t o (S.trace ++ ev) j).toNat) = (S.prefixState C t).seen j := by
  funext o
  rw [(recvTop_frame o S.trace hrecv).2]
  rfl

/-- `Inc` も log の処理も受け取りも無い一歩は、log の queue だけを動かす。 -/
theorem prefixState_quiet (hev : ∀ k, k ≠ j → ∀ e ∈ ev, e.nodeId ≠ C.id k)
    (hincs : incsOf (C.id j) t ev = []) (hlogs : logsOf (C.id j) t ev = [])
    (hrecv : receivedBy (C.id j) t ev = []) {chan : Node → List (UpdateBuffer V)} :
    TabSys.prefixState C t
        { view := Function.update S.view j v', chan := chan, trace := S.trace ++ ev } =
      { S.prefixState C t with
        pending := Function.update (S.prefixState C t).pending j v'.logs } := by
  rw [prefixState_update hev, hincs, hlogs, List.append_nil, List.append_nil, seen_frame hrecv]
  congr 1
  · exact Function.update_eq_self j _
  · exact Function.update_eq_self j _
  · exact Function.update_eq_self j _

/-- log の queue も動かさない一歩では、仕様の状態は変わらない。 -/
theorem prefixStep_same (hev : ∀ k, k ≠ j → ∀ e ∈ ev, e.nodeId ≠ C.id k)
    (hincs : incsOf (C.id j) t ev = []) (hlogs : logsOf (C.id j) t ev = [])
    (hrecv : receivedBy (C.id j) t ev = []) (hv : v'.logs = (S.view j).logs)
    {chan : Node → List (UpdateBuffer V)} :
    Relation.ReflGen (PrefixStore.Step C.down NodeState.logKey) (S.prefixState C t)
      (TabSys.prefixState C t
        { view := Function.update S.view j v', chan := chan, trace := S.trace ++ ev }) := by
  have hsame : Function.update (S.prefixState C t).pending j v'.logs = (S.prefixState C t).pending := by
    rw [hv]
    exact Function.update_eq_self j _
  rw [prefixState_quiet hev hincs hlogs hrecv, hsame]

variable [Zero V] {push : List (UpdateBuffer V)}

omit [DecidableEq Node] in
/-- 届いた buffer は、log の queue を動かさない。 -/
theorem TabEff.logs_eq {c : NodeConfig V} {v : TabView V} {b : UpdateBuffer V}
    (h : TabEff c t v (some b) v' push ev) : v'.logs = v.logs := by
  cases h with
  | discard | noPeer | process => rfl

/-- 自分で動く一歩。 -/
theorem TabEff.prefixStep_self (he : TabEff (C.nodeConfig j) t (S.view j) none v' push ev)
    {chan : Node → List (UpdateBuffer V)} :
    Relation.ReflGen (PrefixStore.Step C.down NodeState.logKey) (S.prefixState C t)
      (TabSys.prefixState C t
        { view := Function.update S.view j v', chan := chan, trace := S.trace ++ ev }) := by
  have hev : ∀ k, k ≠ j → ∀ e ∈ ev, e.nodeId ≠ C.id k := fun k hk => he.nodeId_ne hk
  have hrecv := he.receivedBy_nil (C.id j)
  cases he with
  | skip | stop | ask | send | reply | register | recvStop | dropBuffer =>
    refine prefixStep_same hev rfl rfl hrecv ?_
    rfl
  | record =>
    refine prefixStep_same hev (recorded_ledger _ _).1 (recorded_ledger _ _).2 hrecv ?_
    rfl
  | dropLog _ hq =>
    rw [prefixState_quiet hev rfl rfl hrecv]
    exact .single (.discard hq)
  | @inc key delta tc _ =>
    have hincs : incsOf (C.id j) t [.inc (C.nodeConfig j).myId t key delta] = [(key, delta)] := by
      simp [incsOf, Event.incDelta, SysConfig.nodeConfig]
    have hlogs : logsOf (C.id j) t [.inc (C.nodeConfig j).myId t key delta] = [] := rfl
    rw [prefixState_update hev, hincs, hlogs, seen_frame hrecv, Function.update_eq_self,
      List.append_nil, show Function.update (S.prefixState C t).log j (logsOf (C.id j) t S.trace)
        = (S.prefixState C t).log from Function.update_eq_self j _]
    have hq : (if (S.view j).pRun then (S.view j).logs ++ [(NodeState.logKey key, delta)]
        else (S.view j).logs)
        = (S.view j).logs ++ if (S.view j).pRun then [(NodeState.logKey key, delta)] else [] := by
      cases (S.view j).pRun <;> simp
    dsimp only
    rw [hq]
    exact .single (.add j key delta (S.view j).pRun)
  | @log l₁ l₂ key delta _ _ _ hq =>
    have hlogs : logsOf (C.id j) t [.logHandled (C.nodeConfig j).myId t key delta]
        = [(key, delta)] := by
      simp [logsOf, Event.handledLog, SysConfig.nodeConfig]
    have hincs : incsOf (C.id j) t [.logHandled (C.nodeConfig j).myId t key delta] = [] := rfl
    rw [prefixState_update hev, hlogs, hincs, seen_frame hrecv, Function.update_eq_self,
      List.append_nil, show Function.update (S.prefixState C t).own j (incsOf (C.id j) t S.trace)
        = (S.prefixState C t).own from Function.update_eq_self j _]
    exact .single (.publish hq)

omit [Zero V] in
/-- 届いた range の分だけ、`o` の log の続きが届く。上流の持っている所は越えない。 -/
theorem LiveFlow.seen_step {o : Node} {b : UpdateBuffer V} {rest : List (UpdateBuffer V)}
    (hlive : LiveFlow C t o S) (hle : Flow (· ≤ ·) C t o S) (hs : Shape C S) (hc : Carry C S)
    (ht : NodeTally C t S.trace o (S.view o)) (hd : C.down u = some d) (hch : S.chan u = b :: rest)
    (hr : (S.view d).rRun = true) :
    (recvTop C t o (S.trace ++ [.received (C.id d) t b]) d).toNat = (S.prefixState C t).seen d o ∨
    ((S.prefixState C t).seen d o
        < (recvTop C t o (S.trace ++ [.received (C.id d) t b]) d).toNat ∧
      (recvTop C t o (S.trace ++ [.received (C.id d) t b]) d).toNat
        ≤ (S.prefixState C t).frontier u o) := by
  have hb : b ∈ S.chan u := by rw [hch]; exact List.mem_cons_self
  rw [recvTop, recvSegs_append, recvSegs_received]
  cases hseg : b.segOf (C.id o) with
  | none =>
    left
    rw [Option.toList_none, List.append_nil]
    rfl
  | some x =>
    right
    obtain ⟨r, hrng, -⟩ := UpdateBuffer.segOf_some hseg
    have hlink := hlive.link u d hd (hc.chan u b hb _ hrng o rfl) hr
    rw [hch, List.cons_append, segsOf_cons, hseg] at hlink
    obtain ⟨h1, h2, h3⟩ := hlink
    have h0 : 0 ≤ recvTop C t o S.trace d := (hlive.recv d).eq_le.le
    have hfront := (h3.eq_le.le.trans (hle.emitted_le hs ht u))
    rw [Option.toList_some, topOf_concat]
    refine ⟨?_, ?_⟩
    · show (recvTop C t o S.trace d).toNat < x.2.toNat
      omega
    · unfold PrefixStore.State.frontier
      split at hfront
      · next hu =>
        rw [if_pos hu]
        show x.2.toNat ≤ (logsOf (C.id o) t S.trace).length
        omega
      · next hu =>
        rw [if_neg hu]
        exact Int.toNat_le_toNat hfront

/-- **table の一歩は、仕様の一歩か、仕様では何も起きない一歩である。** -/
theorem TabStep.prefixStep {Q : Node → UpdateBuffer V → Prop} (hlive : ∀ o, LiveFlow C t o S)
    (hle : ∀ o, Flow (· ≤ ·) C t o S) (hs : Shape C S) (hc : Carry C S)
    (ht : ∀ j, NodeTally C t S.trace j (S.view j)) (h : TabStep C t Q S S') :
    Relation.ReflGen (PrefixStore.Step C.down NodeState.logKey) (S.prefixState C t)
      (S'.prefixState C t) := by
  cases h with
  | self he => exact he.prefixStep_self
  | @recv u d b rest v' ev hd hch _ he =>
    have hev : ∀ k, k ≠ d → ∀ e ∈ ev, e.nodeId ≠ C.id k := fun k hk => he.nodeId_ne hk
    obtain ⟨-, -, ⟨hr, rfl⟩ | ⟨-, rfl⟩⟩ := he.recv_cases
    · have hincs : incsOf (C.id d) t [.received (C.nodeConfig d).myId t b] = [] := rfl
      have hlogs : logsOf (C.id d) t [.received (C.nodeConfig d).myId t b] = [] := rfl
      rw [prefixState_update hev, hincs, hlogs, List.append_nil, List.append_nil,
        show Function.update (S.prefixState C t).own d (incsOf (C.id d) t S.trace)
          = (S.prefixState C t).own from Function.update_eq_self d _,
        show Function.update (S.prefixState C t).log d (logsOf (C.id d) t S.trace)
          = (S.prefixState C t).log from Function.update_eq_self d _,
        show Function.update (S.prefixState C t).pending d v'.logs = (S.prefixState C t).pending from
          he.logs_eq ▸ Function.update_eq_self d _]
      exact .single (.deliver hd fun o => (hlive o).seen_step (hle o) hs hc (ht o) hd hch hr)
    · exact prefixStep_same hev rfl rfl rfl he.logs_eq

end simulation

/-! ## 森 -/

section forest

variable [DecidableEq Node] [AddCommMonoid V] {C : SysConfig Node V} {t : TableId}
  {Q : Node → UpdateBuffer V → Prop} {S : TabSys Node V}

theorem TabReach.forest_liveFlow (h : TabReach C t Q S) (hf : C.IsForest)
    (hfwd : ForwardsDown C t) (o : Node) :
    LiveFlow C t o S :=
  (h.forest hf).liveFlow (hf o).singleFeed ⟨hfwd, fun _ _ hb => .of_absent hb⟩

/-- 受け取った range が 0 から続いていれば、table は仕様の表である。 -/
theorem NodeTable.value_eq {j : Node} (h : NodeTable C t S.trace j (S.view j))
    (hrecv : ∀ o, Chain (· = ·) 0 (recvSegs C t o S.trace j) (recvTop C t o S.trace j)) :
    (S.view j).storage = (S.prefixState C t).value C.nodeSet j := by
  rw [h.storage]
  refine congrArg _ (Finset.sum_congr rfl fun o _ => ?_)
  rw [sum_slice_of_chain _ (hrecv o), slice_zero]
  rfl

variable [DecidableEq V] {s s' : SysState Node V}

/-- system から読んでも、table `t` から読んでも、仕様の状態は同じである。 -/
theorem SysReachable.prefixState_eq (h : SysReachable C s) (hf : C.IsForest)
    (hfwd : ForwardsDown C t) :
    (s.tab t).prefixState C t = s.prefixState C t := by
  have hlive := (h.tabReach t).forest_liveFlow hf hfwd
  unfold TabSys.prefixState SysState.prefixState
  congr 1
  · funext j
    exact incDelta_local.filterMap_filter s.trace
  · funext o
    exact handledLog_local.filterMap_filter s.trace
  · funext j o
    exact congrArg Int.toNat (processedTo_eq_recvTop ((hlive o).recv j).eq_le)

/-- table は仕様の表である。 -/
theorem SysReachable.storage_eq_value (h : SysReachable C s) (hf : C.IsForest)
    (hC : ∀ j, ∃ tc, (C.tableDir j).lookup t = some tc ∧ tc.vaddFunc = (· + ·) ∧
      tc.applyUpdates = true)
    (hfwd : ForwardsDown C t) (j : Node) :
    (s.node j).storage t = (s.prefixState C t).value C.nodeSet j := by
  have htab := h.tabReach t
  rw [← h.prefixState_eq hf hfwd]
  exact ((htab.faithfulOn_offRing hC).table j (hf.offRing j)).value_eq fun o =>
    (htab.forest_liveFlow hf hfwd o).recv j

/-- system の一歩は、仕様の一歩か、仕様では何も起きない一歩である。 -/
theorem SysReachable.prefixStep (h : SysReachable C s) (hf : C.IsForest)
    (hfwd : ForwardsDown C t)
    {l : SysLabel Node V} (hs : sysStep C s l = some (.ok s')) :
    Relation.ReflGen (PrefixStore.Step C.down NodeState.logKey) (s.prefixState C t)
      (s'.prefixState C t) := by
  have htab := h.tabReach t
  have h' : SysReachable C s' := h.step hs
  have hstep : TabStep C t (fun _ _ => True) (s.tab t) (s'.tab t) :=
    (sysStep_cases (fun j => h.kinds j) hs).tabStep (fun j => h.control j)
      fun _ _ _ _ _ _ _ _ => trivial
  rw [← h.prefixState_eq hf hfwd, ← h'.prefixState_eq hf hfwd]
  exact hstep.prefixStep (htab.forest_liveFlow hf hfwd)
    (fun o => htab.flow_le (hf o).singleFeed) htab.shape htab.carry fun j => htab.nodeTally j

/-- 仕様の状態は、何も無い状態から仕様の一歩を重ねて着ける。 -/
theorem SysReachable.prefixState_reachable (h : SysReachable C s) (hf : C.IsForest)
    (hfwd : ForwardsDown C t) :
    Relation.ReflTransGen (PrefixStore.Step C.down NodeState.logKey) PrefixStore.init
      (s.prefixState C t) := by
  have hinit : (SysState.start C : SysState Node V).prefixState C t = PrefixStore.init := rfl
  refine Lts.Reachable.invariant (I := fun s => Relation.ReflTransGen
    (PrefixStore.Step C.down NodeState.logKey) PrefixStore.init (s.prefixState C t))
    (by rw [hinit]) ?_ h
  intro s l s' hr hs hi
  have hgen : Relation.ReflGen _ _ _ := SysReachable.prefixStep hr hf hfwd hs
  exact hi.trans hgen.to_reflTransGen

/--
**森の system は、log の先頭を配る複製の仕様を満たす。** どの node がいつ `Inc` や `ShutDown` をしても、着く状態は仕様でも
着ける状態であり、どの table も仕様の表である。system の一歩は仕様の一歩か、仕様では何も起きない一歩である。
-/
theorem forest_refines_prefixStore (hforest : C.IsForest)
    (hC : ∀ j, ∃ tc, (C.tableDir j).lookup t = some tc ∧ tc.vaddFunc = (· + ·) ∧
      tc.applyUpdates = true)
    (hfwd : ForwardsDown C t)
    (h : SysReachable C s) :
    Relation.ReflTransGen (PrefixStore.Step C.down NodeState.logKey) PrefixStore.init
      (s.prefixState C t) ∧
    (∀ j, (s.node j).storage t = (s.prefixState C t).value C.nodeSet j) ∧
    ∀ l s', sysStep C s l = some (.ok s') →
      Relation.ReflGen (PrefixStore.Step C.down NodeState.logKey) (s.prefixState C t)
        (s'.prefixState C t) :=
  ⟨h.prefixState_reachable hforest hfwd, fun j => h.storage_eq_value hforest hC hfwd j,
    fun _ _ hs => h.prefixStep hforest hfwd hs⟩

/-! ### 表は戻らない -/

/-- 仕様では、公開された所までしか届いていない。 -/
theorem SysReachable.prefixState_bounded (h : SysReachable C s) (hf : C.IsForest)
    (hfwd : ForwardsDown C t) :
    PrefixStore.Bounded (s.prefixState C t) := by
  refine Relation.ReflTransGen.head_induction_on (motive := fun A _ =>
    PrefixStore.Bounded A → PrefixStore.Bounded (s.prefixState C t))
    (h.prefixState_reachable hf hfwd) id ?_ PrefixStore.bounded_init
  exact fun hstep _ ih hA => ih (hA.step hstep)

/-- run に沿って、仕様の状態は進む。 -/
theorem SysReachable.prefixState_advances (h : SysReachable C s) (hf : C.IsForest)
    (hfwd : ForwardsDown C t)
    (h' : Lts.Reachable (sysStep C) s s') :
    PrefixStore.Advances (s.prefixState C t) (s'.prefixState C t) := by
  induction h' with
  | init => exact .refl _
  | @step s₁ s₂ l hr _ hs ih =>
    have hreach : SysReachable C s₁ := Lts.ReachableUnder.trans h hr
    have hgen : Relation.ReflGen _ _ _ := hreach.prefixStep hf hfwd hs
    rcases (Relation.reflGen_iff _ _ _).mp hgen with heq | hstep
    · exact heq ▸ ih
    · exact ih.trans hstep.advances

/--
**表は戻らない。** `s` から `s'` まで進む間に node の table に加わるものは、その間の自分の `Inc` の和と、他の node の
log のうちちょうど届いた続きの和である。
-/
theorem forest_tables_advance (hforest : C.IsForest)
    (hC : ∀ j, ∃ tc, (C.tableDir j).lookup t = some tc ∧ tc.vaddFunc = (· + ·) ∧
      tc.applyUpdates = true)
    (hfwd : ForwardsDown C t)
    (h : SysReachable C s) (h' : Lts.Reachable (sysStep C) s s') (j : Node) :
    (∀ o, (processedTo C t o j s.trace).toNat ≤ (processedTo C t o j s'.trace).toNat) ∧
    (s'.node j).storage t = (s.node j).storage t
      + (total ((incsOf (C.id j) t s'.trace).drop (incsOf (C.id j) t s.trace).length)
      + ∑ o ∈ C.nodeSet.erase j, slice (logsOf (C.id o) t s'.trace)
          ((processedTo C t o j s.trace).toNat, (processedTo C t o j s'.trace).toNat)) := by
  have hadv := h.prefixState_advances (t := t) hforest hfwd h'
  have hreach : SysReachable C s' := Lts.ReachableUnder.trans h h'
  refine ⟨hadv.seen j, ?_⟩
  rw [h.storage_eq_value hforest hC hfwd j, hreach.storage_eq_value hforest hC hfwd j]
  exact hadv.value_eq (h.prefixState_bounded hforest hfwd) j

end forest

/-! ## 例 -/

theorem forwardsDown_pathTopology : ForwardsDown pathTopology 0 := by
  intro j tc _ htc
  obtain rfl : loopTable = tc := Option.some.inj htc
  rfl

/-- node 0 の log が node 1 に届いた所で、`downstream_never_ahead` を使う。 -/
theorem downstream_never_ahead_pathTopology :
    ∃ s, SysReachable pathTopology s ∧ processedTo pathTopology 0 0 1 s.trace = 1 ∧
      processedTo pathTopology 0 0 2 s.trace ≤ processedTo pathTopology 0 0 1 s.trace := by
  obtain ⟨s, hr, hone⟩ : ∃ s, SysReachable pathTopology s ∧
      processedTo pathTopology 0 0 1 s.trace = 1 :=
    Lts.Reachable.exists_of_run
      (incLabels 0 1 1 ++ tickLabels 0 ⟨[(1, 1)], [], [(1, 1)]⟩ ++ [.tcp 0]) (by decide +kernel)
  have hfeed : pathTopology.Feeds 0 1 := .single (by decide)
  exact ⟨s, hr, hone,
    downstream_never_ahead (u := 1) (pathTopology_isForest 0).singleFeed hr (by decide) hfeed⟩

/-- node 1 の propagator が RUN を出た後に node 0 の batch が届いた所で、`forest_refines_prefixStore` を使う。 -/
theorem forest_refines_stopping_node :
    ∃ s, SysReachable pathTopology s ∧ (s.node 1).prop.state = .termPrep ∧
      (s.node 1).storage 0 1 = 1 ∧
      (s.node 1).storage 0 = (s.prefixState pathTopology 0).value pathTopology.nodeSet 1 := by
  obtain ⟨s, hr, hstate, hone⟩ : ∃ s, SysReachable pathTopology s ∧
      (s.node 1).prop.state = .termPrep ∧ (s.node 1).storage 0 1 = 1 :=
    Lts.Reachable.exists_of_run (incLabels 0 1 1 ++ tickLabels 0 ⟨[(1, 1)], [], [(1, 1)]⟩ ++
      [.node 1 .signalTermProp, .node 1 (.pullApp 0), .tcp 0]) (by decide +kernel)
  exact ⟨s, hr, hstate, hone, (forest_refines_prefixStore pathTopology_isForest
    appliesAll_pathTopology.table forwardsDown_pathTopology hr).2.1 1⟩

/-- node 0 の batch が node 1 に届く前と後で、`forest_tables_advance` を使う。 -/
theorem forest_tables_advance_pathTopology :
    ∃ s s', SysReachable pathTopology s ∧ Lts.Reachable (sysStep pathTopology) s s' ∧
      (s.node 1).storage 0 1 = 0 ∧ (s'.node 1).storage 0 1 = 1 ∧
      (processedTo pathTopology 0 0 1 s.trace).toNat
        ≤ (processedTo pathTopology 0 0 1 s'.trace).toNat := by
  obtain ⟨s, hr, hbefore, hrest⟩ : ∃ s, SysReachable pathTopology s ∧
      (s.node 1).storage 0 1 = 0 ∧ (Lts.run (sysStep pathTopology) s [.tcp 0]).any
        (fun s' => decide ((s'.node 1).storage 0 1 = 1)) = true :=
    Lts.Reachable.exists_of_run (incLabels 0 1 1 ++ tickLabels 0 ⟨[(1, 1)], [], [(1, 1)]⟩)
      (by decide +kernel)
  obtain ⟨s', hr', hafter⟩ := Lts.Reachable.exists_of_run _ hrest
  exact ⟨s, s', hr, hr', hbefore, hafter,
    (forest_tables_advance pathTopology_isForest appliesAll_pathTopology.table
      forwardsDown_pathTopology hr hr' 1).1 0⟩

end QuiltDB
