import QuiltDB.Comm.Lifecycle
import QuiltDB.Properties.Agreement

/-!
# `Table::Inc` は全部か無か

`InternalTable::Inc` は先に table に足し、その後で `Propagator::Inc` を呼ぶ。`Propagator::Inc` が `-1` を
返しても、足したものは戻らない。

`Inc` の間に propagator の状態が変わる時は、`Propagator::Inc` が状態を読む所で `Inc` の全体が起きたと
見る。table に足すのはその前だが、状態を変える一歩は table を読まないので、順を入れ替えても同じである。
-/

namespace QuiltDB

variable {V : Type}

/-! ## key の幅 -/

/-- `Propagator::Inc` を通って変わらないのは、`int32_t` に収まる key だけである。 -/
theorem logKey_eq_iff {key : Key} : NodeState.logKey key = key ↔ int32Key key = true := by
  refine ⟨fun h => ?_, logKey_of_int32Key⟩
  have hlo := Int32.le_toInt key.toInt32
  have hhi := Int32.toInt_lt key.toInt32
  have heq : key.toInt32.toInt = key.toInt := by
    rw [← Int32.toInt_toInt64]
    exact congrArg Int64.toInt h
  rw [heq] at hlo hhi
  rw [int32Key, Bool.and_eq_true, decide_eq_true_eq, decide_eq_true_eq]
  exact ⟨hlo, hhi⟩

/-! ## 全部か無か -/

/-- thread `thr` の log を propagator が受け付けるか。 -/
def PropHandle.accepts (p : PropHandle V) (thr : Nat) : Bool :=
  decide (p.state = .run) && decide (thr ∈ p.updatePushSock)

theorem PropHandle.inc_eq (p : PropHandle V) (thr : Nat) (t : TableId) (key : Int32) (delta : V) :
    p.inc thr t key delta
      = if p.accepts thr then
          some { p with queue := p.queue ++ [(thr, .epUpdateLog t key.toInt64 delta)] }
        else none := by
  unfold PropHandle.inc PropHandle.accepts
  by_cases hs : p.state = .run <;> by_cases hm : thr ∈ p.updatePushSock <;> simp [hs, hm]

/--
`db` で `Inc` を呼んで `db'` になった時、それが全部か無かであること。

table に delta が足されて同じ key と delta の log が queue に入るか、`Propagator::Inc` が `-1` を返して
table が元のままであるかのどちらかである。
-/
def AllOrNothing (db db' : Db V) (thr : Nat) (t : TableId) (key : Key) (delta : V) : Prop :=
  ∃ tab tab', db.tableDir.lookup t = some tab ∧ db'.tableDir.lookup t = some tab' ∧
    ((tab'.storage = incRaw tab.vaddFunc tab.storage key delta ∧
        (db'.prop tab.direction).queue
          = (db.prop tab.direction).queue ++ [(thr, .epUpdateLog t key delta)]) ∨
      ((db.prop tab.direction).inc thr t key.toInt32 delta = none ∧
        (db'.prop tab.direction).queue = (db.prop tab.direction).queue ∧
        tab'.storage = tab.storage))

/--
`Inc` を呼ぶ前の条件。

propagator が log を受け付けるなら key が `int32_t` に収まり、受け付けないなら delta を足しても値が
変わらない。
-/
def IncSafe (db : Db V) (thr : Nat) (t : TableId) (key : Key) (delta : V) : Prop :=
  ∃ tab, db.tableDir.lookup t = some tab ∧
    if (db.prop tab.direction).accepts thr then int32Key key = true
    else tab.vaddFunc (tab.storage key) delta = tab.storage key

theorem incRaw_eq_self {vadd : V → V → V} {storage : Storage V} {key : Key} {delta : V} :
    incRaw vadd storage key delta = storage ↔ vadd (storage key) delta = storage key :=
  Function.update_eq_self_iff

section inc

variable (db : Db V) (thr : Nat) (t : TableId) (tab : TableEntry V) (key : Key) (delta : V)

/-- `Inc` の後の table。どの場合も足されている。 -/
theorem Db.inc_lookup :
    (db.inc thr t tab key delta).tableDir.lookup t
      = some { tab with storage := incRaw tab.vaddFunc tab.storage key delta } := by
  unfold Db.inc
  dsimp only
  split <;> exact AList.lookup_insert _

/-- `Inc` の後の queue。 -/
theorem Db.inc_queue :
    ((db.inc thr t tab key delta).prop tab.direction).queue
      = if (db.prop tab.direction).accepts thr then
          (db.prop tab.direction).queue ++ [(thr, .epUpdateLog t (NodeState.logKey key) delta)]
        else (db.prop tab.direction).queue := by
  unfold Db.inc
  dsimp only
  rw [PropHandle.inc_eq]
  by_cases ha : (db.prop tab.direction).accepts thr = true
  · rw [if_pos ha, if_pos ha]
    simp [NodeState.logKey]
  · rw [if_neg ha, if_neg ha]

variable {db thr t tab key delta}

/-- 登録した thread の `Inc` は、node のモデルの `Inc` と同じことをする。 -/
theorem Db.inc_eq_node {c : NodeConfig V} {ns : NodeState V}
    (hsock : thr ∈ (db.prop tab.direction).updatePushSock)
    (hstate : (db.prop tab.direction).state = ns.prop.state)
    (hqueue : (db.prop tab.direction).queue = ns.appQ) (hstorage : tab.storage = ns.storage t) :
    ((db.inc thr t tab key delta).tableDir.lookup t).map TableEntry.storage
        = some ((ns.inc c tab.vaddFunc thr t key delta).1.storage t) ∧
      ((db.inc thr t tab key delta).prop tab.direction).queue
        = (ns.inc c tab.vaddFunc thr t key delta).1.appQ := by
  constructor
  · rw [Db.inc_lookup, Option.map_some, hstorage, NodeState.inc]
    dsimp only
    rw [Function.update_self]
  · rw [Db.inc_queue, NodeState.inc]
    by_cases hr : ns.prop.state = .run
    · simp [PropHandle.accepts, hsock, hstate, hr, hqueue]
    · simp [PropHandle.accepts, hstate, hr, hqueue]

/-- 二つの queue は、最後の log の key が同じ時に等しい。 -/
theorem queue_concat_eq {q : List (Nat × PropagatorMsg V)} {key' : Key} :
    q ++ [(thr, .epUpdateLog t key' delta)] = q ++ [(thr, .epUpdateLog t key delta)] ↔
      key' = key := by
  rw [List.append_cancel_left_eq]
  simp

/-- 一度の `Inc` が全部か無かである条件。 -/
theorem Db.inc_allOrNothing_iff (htab : db.tableDir.lookup t = some tab) :
    AllOrNothing db (db.inc thr t tab key delta) thr t key delta ↔ IncSafe db thr t key delta := by
  have hinc := (db.prop tab.direction).inc_eq thr t key.toInt32 delta
  have hqueue := Db.inc_queue db thr t tab key delta
  have hlook := Db.inc_lookup db thr t tab key delta
  constructor
  · rintro ⟨tab₁, tab', h1, h2, h3⟩
    obtain rfl : tab = tab₁ := Option.some.inj (htab.symm.trans h1)
    obtain rfl := Option.some.inj (hlook.symm.trans h2)
    refine ⟨tab, htab, ?_⟩
    by_cases ha : (db.prop tab.direction).accepts thr = true
    · rw [if_pos ha] at hinc hqueue ⊢
      rcases h3 with ⟨-, hq⟩ | ⟨hnone, -⟩
      · rw [hqueue, queue_concat_eq] at hq
        exact logKey_eq_iff.mp hq
      · rw [hinc] at hnone
        cases hnone
    · rw [if_neg ha] at hqueue ⊢
      rcases h3 with ⟨-, hq⟩ | ⟨-, -, hst⟩
      · rw [hqueue] at hq
        simp at hq
      · exact incRaw_eq_self.mp hst
  · rintro ⟨tab₁, h1, h2⟩
    obtain rfl : tab = tab₁ := Option.some.inj (htab.symm.trans h1)
    refine ⟨tab, _, htab, hlook, ?_⟩
    by_cases ha : (db.prop tab.direction).accepts thr = true
    · rw [if_pos ha] at hqueue h2
      refine Or.inl ⟨rfl, ?_⟩
      rw [hqueue, queue_concat_eq]
      exact logKey_eq_iff.mpr h2
    · rw [if_neg ha] at hinc hqueue h2
      exact Or.inr ⟨hinc, hqueue, incRaw_eq_self.mpr h2⟩

end inc

/-! ## どんな順に呼んでも -/

section run

variable [Zero V] {nanosec : Int} {db a b : Db V} {steps : List (Db V × LifeLabel V × Db V)}
  {thr : Nat} {t : TableId} {key : Key} {delta : V}

/-- `Inc` の一歩は、table があれば `Db.inc` である。 -/
theorem lifeStep_inc (h : lifeStep nanosec a (.call thr (.inc t key delta)) = some (.ok b)) :
    ∃ tab, a.tableDir.lookup t = some tab ∧ b = a.inc thr t tab key delta := by
  rw [lifeStep] at h
  split at h
  · rw [Db.call] at h
    split at h
    · cases h
    · next tab htab => exact ⟨tab, htab, (Except.ok.inj (Option.some.inj h)).symm⟩
  · cases h

/--
**`Inc` が全部か無かである条件。** application の thread が関数をどんな順に呼んだ run でも、その中の `Inc` は、
log を受け付けられて key が `int32_t` に収まる時か、受け付けられず delta が値を変えない時に、そしてその時に
限り、全部か無かである。
-/
theorem inc_all_or_nothing_iff (h : Lts.Trace (lifeStep nanosec) Db.create steps db)
    (hinc : (a, .call thr (.inc t key delta), b) ∈ steps) :
    AllOrNothing a b thr t key delta ↔ IncSafe a thr t key delta := by
  obtain ⟨tab, htab, rfl⟩ := lifeStep_inc (h.step_of_mem hinc)
  exact Db.inc_allOrNothing_iff htab

end run

/-- table 0 を作って start し、二つの propagator が RUN になるまで。 -/
def startLabels : List (LifeLabel (BitVec 32)) :=
  [.call 0 (.createHTable 0 (· + ·)), .call 0 .start, .enterRun .horizontal, .enterRun .vertical,
    .resume 0]

/-- 登録した thread の `Inc` で、`inc_all_or_nothing_iff` を使う。 -/
theorem inc_all_or_nothing_registered :
    ∃ steps, ∃ db a b : Db (BitVec 32), Lts.Trace (lifeStep 1) Db.create steps db ∧
      (a, .call 0 (.inc 0 1 1), b) ∈ steps ∧ IncSafe a 0 0 1 1 ∧ AllOrNothing a b 0 0 1 1 := by
  obtain ⟨a, ha, h1, h2, h3⟩ : ∃ a : Db (BitVec 32), Lts.Reachable (lifeStep 1) Db.create a ∧
      (a.prop .horizontal).accepts 0 = true ∧ a.calls 0 = [] ∧
      (a.tableDir.lookup 0).any (fun tab => decide (tab.direction = .horizontal)) = true :=
    Lts.Reachable.exists_of_run (startLabels ++ [.call 0 .registerThr]) (by decide +kernel)
  obtain ⟨tab, htab, hdir⟩ := (Option.any_eq_true _ _).mp h3
  have hdir := of_decide_eq_true hdir
  have hsafe : IncSafe a 0 0 1 1 := by
    refine ⟨tab, htab, ?_⟩
    rw [hdir, if_pos h1]
    decide
  obtain ⟨steps, ht⟩ := ha.trace
  have hstep : lifeStep 1 a (.call 0 (.inc 0 1 1)) = some (.ok (a.inc 0 0 tab 1 1)) := by
    rw [lifeStep, if_pos h2, Db.call, htab]
  have hmem : (a, LifeLabel.call 0 (.inc 0 1 1), a.inc 0 0 tab 1 1)
      ∈ steps ++ [(a, .call 0 (.inc 0 1 1), a.inc 0 0 tab 1 1)] :=
    List.mem_append_right _ (List.mem_singleton_self _)
  exact ⟨_, _, a, _, ht.snoc hstep, hmem, hsafe,
    (inc_all_or_nothing_iff (ht.snoc hstep) hmem).mpr hsafe⟩

/-- 登録していない thread の `Inc` は、table に足すだけで log を送らない。 -/
theorem inc_half_applied :
    ∃ steps, ∃ db a b : Db (BitVec 32), Lts.Trace (lifeStep 1) Db.create steps db ∧
      (a, .call 0 (.inc 0 1 1), b) ∈ steps ∧ ¬AllOrNothing a b 0 0 1 1 := by
  obtain ⟨a, ha, hcalls, htabs⟩ : ∃ a : Db (BitVec 32), Lts.Reachable (lifeStep 1) Db.create a ∧
      a.calls 0 = [] ∧ (a.tableDir.lookup 0).any (fun tab =>
        decide ((a.prop tab.direction).accepts 0 = false ∧
          tab.vaddFunc (tab.storage 1) 1 ≠ tab.storage 1)) = true :=
    Lts.Reachable.exists_of_run startLabels (by decide +kernel)
  obtain ⟨tab, htab, htabp⟩ := (Option.any_eq_true _ _).mp htabs
  obtain ⟨hrefuse, hchange⟩ := of_decide_eq_true htabp
  obtain ⟨steps, ht⟩ := ha.trace
  have hstep : lifeStep 1 a (.call 0 (.inc 0 1 1)) = some (.ok (a.inc 0 0 tab 1 1)) := by
    rw [lifeStep, if_pos hcalls, Db.call, htab]
  refine ⟨_, _, a, _, ht.snoc hstep,
    List.mem_append_right _ (List.mem_singleton_self _), fun hall => ?_⟩
  obtain ⟨tab₁, h1, h2⟩ := (Db.inc_allOrNothing_iff htab).mp hall
  obtain rfl : tab = tab₁ := Option.some.inj (htab.symm.trans h1)
  rw [hrefuse, if_neg Bool.false_ne_true] at h2
  exact hchange h2

end QuiltDB
