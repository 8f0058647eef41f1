import QuiltDB.Properties.Shape

/-!
# `Inc` と log の帳簿

node ごと table ごとに、`Table::Inc` の列と、propagator が処理した log の列を履歴から取り出す。

propagator が RUN の間は、`Inc` の送った log は、処理したものと queue にあるものに分かれる。処理した
log の数は、自分の range の終わりに等しい。
-/

namespace QuiltDB

variable {V Node : Type}

/-! ## 履歴から取り出す列 -/

/-- node `id` の `Inc`。 -/
def Event.incDelta (id : NodeId) (t : TableId) : Event V → Option (Key × V)
  | .inc k t' key delta => if k = id ∧ t' = t then some (key, delta) else none
  | _ => none

/-- propagator `id` が処理した log。 -/
def Event.handledLog (id : NodeId) (t : TableId) : Event V → Option (Key × V)
  | .logHandled k t' key delta => if k = id ∧ t' = t then some (key, delta) else none
  | _ => none

/-- node `id` の `Inc` の列。 -/
def incsOf (id : NodeId) (t : TableId) (trace : List (Event V)) : List (Key × V) :=
  trace.filterMap (Event.incDelta id t)

/-- propagator `id` が処理した log の列。sequence number の順に並ぶ。 -/
def logsOf (id : NodeId) (t : TableId) (trace : List (Event V)) : List (Key × V) :=
  trace.filterMap (Event.handledLog id t)

/-- `Inc` が送る log。 -/
def logged (kv : Key × V) : Key × V := (NodeState.logKey kv.1, kv.2)

variable {id : NodeId} {t : TableId}

theorem incDelta_local : Event.Local (V := V) id t (Event.incDelta id t) := by
  intro e he
  cases e with
  | inc k t' key delta =>
    have h : k = id ∧ t' = t := of_not_not fun hne => he (if_neg hne)
    exact ⟨h.1, beq_iff_eq.mpr h.2⟩
  | logHandled | myUpdatesSent | registered | ackReceived | sent | termAckSent | received
  | recorded => exact absurd rfl he

theorem handledLog_local : Event.Local (V := V) id t (Event.handledLog id t) := by
  intro e he
  cases e with
  | logHandled k t' key delta =>
    have h : k = id ∧ t' = t := of_not_not fun hne => he (if_neg hne)
    exact ⟨h.1, beq_iff_eq.mpr h.2⟩
  | inc | myUpdatesSent | registered | ackReceived | sent | termAckSent | received
  | recorded => exact absurd rfl he

theorem incsOf_append (tr ev : List (Event V)) :
    incsOf id t (tr ++ ev) = incsOf id t tr ++ incsOf id t ev := by
  simp [incsOf]

theorem logsOf_append (tr ev : List (Event V)) :
    logsOf id t (tr ++ ev) = logsOf id t tr ++ logsOf id t ev := by
  simp [logsOf]

/-- 他の node の出来事では、帳簿は変わらない。 -/
theorem incsOf_other {ev : List (Event V)} (hev : ∀ e ∈ ev, e.nodeId ≠ id) (tr : List (Event V)) :
    incsOf id t (tr ++ ev) = incsOf id t tr := by
  rw [incsOf_append, incsOf, incsOf, incDelta_local.filterMap_other hev, List.append_nil]

theorem logsOf_other {ev : List (Event V)} (hev : ∀ e ∈ ev, e.nodeId ≠ id) (tr : List (Event V)) :
    logsOf id t (tr ++ ev) = logsOf id t tr := by
  rw [logsOf_append, logsOf, logsOf, handledLog_local.filterMap_other hev, List.append_nil]

/-! ## 帳簿の不変量 -/

theorem recorded_ledger (id' : NodeId) (b : UpdateBuffer V) :
    incsOf id t (b.iterNodeRanges.map fun r => (.recorded id' t r.1 r.2 : Event V)) = [] ∧
      logsOf id t (b.iterNodeRanges.map fun r => (.recorded id' t r.1 r.2 : Event V)) = [] := by
  constructor
  · exact filterMap_recorded (fun _ _ => rfl) _
  · exact filterMap_recorded (fun _ _ => rfl) _

section tally

variable {C : SysConfig Node V} {j : Node} {v v' : TabView V} {tr ev : List (Event V)}

/-- 帳簿と propagator の状態の対応。 -/
structure NodeTally (C : SysConfig Node V) (t : TableId) (trace : List (Event V)) (j : Node)
    (v : TabView V) : Prop where
  /-- 自分の range の終わりは、処理した log の数である。 -/
  length : ((logsOf (C.id j) t trace).length : Int) = v.pt.myUpdateRange.end_ + 1
  /-- `Inc` の log は、処理したか、まだ queue にある。 -/
  incs : v.pRun = true → ((incsOf (C.id j) t trace).map logged).Perm
    (logsOf (C.id j) t trace ++ v.logs)

/-- 帳簿も log の queue も動かさない一歩。 -/
theorem NodeTally.quiet (h : NodeTally C t tr j v)
    (hend : v'.pt.myUpdateRange.end_ = v.pt.myUpdateRange.end_) (hlogs : v'.logs = v.logs)
    (hrun : v'.pRun = true → v.pRun = true)
    (hev : incsOf (C.id j) t ev = [] ∧ logsOf (C.id j) t ev = []) :
    NodeTally C t (tr ++ ev) j v' := by
  refine ⟨?_, fun hr => ?_⟩
  · rw [logsOf_append, hev.2, List.append_nil, hend]
    exact h.length
  · rw [incsOf_append, logsOf_append, hev.1, hev.2, List.append_nil, List.append_nil, hlogs]
    exact h.incs (hrun hr)

variable [DecidableEq Node] [Zero V] {ib : Option (UpdateBuffer V)} {push : List (UpdateBuffer V)}

theorem NodeTally.step (h : NodeTally C t tr j v)
    (he : TabEff (C.nodeConfig j) t v ib v' push ev) : NodeTally C t (tr ++ ev) j v' := by
  cases he with
  | skip | stop | ask | send | reply | register | recvStop | discard | noPeer | process
  | dropBuffer => exact h.quiet rfl rfl (by simp) ⟨rfl, rfl⟩
  | record => exact h.quiet rfl rfl id (recorded_ledger _ _)
  | @inc key delta tc _ =>
    have hev : incsOf (C.id j) t [.inc (C.nodeConfig j).myId t key delta] = [(key, delta)] := by
      simp [incsOf, Event.incDelta, SysConfig.nodeConfig]
    refine ⟨?_, fun hr => ?_⟩
    · rw [logsOf_append]
      exact (List.append_nil _).symm ▸ h.length
    · have hlogs : logsOf (C.id j) t (tr ++ [.inc (C.nodeConfig j).myId t key delta])
          = logsOf (C.id j) t tr := by
        rw [logsOf_append]
        exact List.append_nil _
      rw [incsOf_append, hev, hlogs, if_pos (show v.pRun = true from hr), List.map_append,
        ← List.append_assoc]
      exact (h.incs hr).append_right _
  | @log l₁ l₂ key delta hrun _ _ hq =>
    have hev : logsOf (C.id j) t [.logHandled (C.nodeConfig j).myId t key delta]
        = [(key, delta)] := by
      simp [logsOf, Event.handledLog, SysConfig.nodeConfig]
    refine ⟨?_, fun hr => ?_⟩
    · rw [logsOf_append, hev, List.length_append, List.length_singleton,
        (addLog_range (C.nodeConfig j) t v.pt key delta).1, Nat.cast_add, h.length]
      rfl
    · have hincs : incsOf (C.id j) t (tr ++ [.logHandled (C.nodeConfig j).myId t key delta])
          = incsOf (C.id j) t tr := by
        rw [incsOf_append]
        exact List.append_nil _
      have h0 := h.incs hr
      rw [hq] at h0
      rw [hincs, logsOf_append, hev, List.append_assoc, List.singleton_append]
      exact h0.trans (List.perm_middle.append_left _)
  | dropLog hrun =>
    refine ⟨?_, fun hr => ?_⟩
    · rw [List.append_nil]
      exact h.length
    · rw [show v.pRun = true from hr] at hrun
      cases hrun

/-- **帳簿はいつも合っている。** -/
theorem TabReach.nodeTally {Q : Node → UpdateBuffer V → Prop} {S : TabSys Node V}
    (h : TabReach C t Q S) (j : Node) : NodeTally C t S.trace j (S.view j) := by
  refine h.invariant (I := fun S => NodeTally C t S.trace j (S.view j)) ?_ ?_
  · exact ⟨rfl, fun _ => .nil⟩
  · intro S S' hr hs hi
    refine hs.at_node (I := fun tr v => NodeTally C t tr j v) hi
      (fun _ _ _ _ _ he => hi.step he) fun ev hev => ?_
    refine ⟨?_, fun hrun => ?_⟩
    · rw [logsOf_other hev]
      exact hi.length
    · rw [logsOf_other hev, incsOf_other hev]
      exact hi.incs hrun

end tally

end QuiltDB
