import QuiltDB.Lib.Potential
import QuiltDB.Properties.Termination

/-!
# 残っている仕事の量

message の一つ一つと thread の位置に重さを付けて、system に残っている仕事を数える。
仕事が増えるのは application の `Inc` と、RUN の propagator を持つ node の timer が鳴った時だけで、
ほかの一歩は必ず仕事を減らす。

* 一回りの for loop は table ごとに高々一つの buffer を送るので、trigger の重さは table の数で決まる。
* 受け取った update は `update_store` に入って止まり、次に timer が鳴るまで先へ進まない。
  だから輪であっても仕事は回り続けない。
* RUN を出た propagator の timer は、鳴ってもあと一度である。
-/

namespace QuiltDB

variable {V : Type}

/-! ## 重さ -/

/-- `ETimerTrigger` の重さ。for loop は table ごとに 6 を使う。 -/
def trigWeight (c : NodeConfig V) : Nat := 6 * c.tableDir.keys.length + 4

/-- RUN を出た後に timer が鳴る分。 -/
def fireWeight (c : NodeConfig V) : Nat := trigWeight c + 1

/-- `EPInternalTerminate` の重さ。 -/
def termWeight (c : NodeConfig V) : Nat := fireWeight c + 5

/-- `ERInternalTerminate` の重さ。上流の propagator それぞれに `EPRTerminate` が届く。 -/
def publishWeight (c : NodeConfig V) : Nat := 3 * c.numExpectedPropagators + 2

@[simp] def AppPhase.work (c : NodeConfig V) : AppPhase → Nat
  | .running => termWeight c + publishWeight c + 4
  | .signaledProp => publishWeight c + 3
  | .signaledRecv => 2
  | .joinedProp => 1
  | .finished => 0

def PropagatorPc.work : PropagatorPc V → Nat
  | .poll => 0
  | .flush todo => 6 * todo.length + 2
  | .waitAck _ _ todo => 6 * todo.length + 5
  | .waitStop => 1
  | .returned => 0

@[simp] theorem PropagatorPc.work_poll : (.poll : PropagatorPc V).work = 0 := rfl

@[simp] theorem PropagatorPc.work_flush (todo : List TableId) :
    (.flush todo : PropagatorPc V).work = 6 * todo.length + 2 := rfl

@[simp] theorem PropagatorPc.work_waitAck (t : TableId) (b : UpdateBuffer V) (todo : List TableId) :
    (.waitAck t b todo : PropagatorPc V).work = 6 * todo.length + 5 := rfl

@[simp] theorem PropagatorPc.work_waitStop : (.waitStop : PropagatorPc V).work = 1 := rfl

@[simp] def PropagatorMsg.work (c : NodeConfig V) : PropagatorMsg V → Nat
  | .epInternalTerminate => termWeight c
  | _ => 1

/-- application の queue に残る仕事。 -/
def appQWork (c : NodeConfig V) (q : List (Nat × PropagatorMsg V)) : Nat :=
  (q.map fun e => e.2.work c).sum

/-- RUN を出た propagator の timer が、あと何度鳴るか。 -/
def firesLeft (timer : TimerThr) (cmdQ : List Int) : Nat :=
  (if timer = .sleeping then 1 else 0) + cmdQ.countP fun n => 0 < n

/-- RUN の間は、鳴った分だけ外から持ち込まれると数える。 -/
def timerWork (c : NodeConfig V) (st : PropagatorState) (timer : TimerThr) (cmdQ : List Int) : Nat :=
  if st = .run then 0 else fireWeight c * firesLeft timer cmdQ

/-- node 一つの中に残る仕事。 -/
def NodeState.work (c : NodeConfig V) (ns : NodeState V) : Nat :=
  ns.app.work c + appQWork c ns.appQ + ns.updQ.length + ns.ackQ.length + 2 * ns.pairQ.length +
    publishWeight c * ns.termQ.length + trigWeight c * ns.trigQ.length + ns.cmdQ.length +
    ns.prop.pc.work + timerWork c ns.prop.state ns.timer ns.cmdQ

/-- node の外へ出た message の重さ。 -/
@[simp] def NodeOut.work (c : NodeConfig V) (out : NodeOut V) : Nat :=
  2 * out.push.length + 3 * c.numExpectedPropagators * out.pub.length

/-- 外から読んだ message の重さ。 -/
@[simp] def NodeInput.work : NodeInput V → Nat
  | .self _ => 0
  | .tcp _ => 2
  | .pub _ => 3

/-- `Inc` でなければ一歩と数える。 -/
@[simp] def NodeInput.counted : NodeInput V → Nat
  | .self (.inc ..) => 0
  | _ => 1

/-- 一歩が持ち込む仕事。RUN の propagator への `Inc` と、RUN の間に鳴る timer だけである。 -/
@[simp] def NodeInput.cost (c : NodeConfig V) (ns : NodeState V) : NodeInput V → Nat
  | .self (.inc ..) => if ns.prop.state = .run then 1 else 0
  | .self .timerFire => if ns.prop.state = .run then fireWeight c else 0
  | _ => 0

variable {c : NodeConfig V} {ns ns' : NodeState V} {out : NodeOut V} {i : NodeInput V}

theorem appQWork_append (q : List (Nat × PropagatorMsg V)) (e : Nat × PropagatorMsg V) :
    appQWork c (q ++ [e]) = appQWork c q + e.2.work c := by
  simp [appQWork]

theorem appQWork_take {thr : Nat} {q rest : List (Nat × PropagatorMsg V)} {msg : PropagatorMsg V}
    (h : NodeState.takeApp thr q = some (msg, rest)) :
    appQWork c q = appQWork c rest + msg.work c := by
  obtain ⟨l₁, l₂, rfl, rfl, -⟩ := takeApp_some h
  simp [appQWork]
  omega

theorem timerWork_of_run {st : PropagatorState} {timer : TimerThr} {cmdQ : List Int}
    (h : st = .run) : timerWork c st timer cmdQ = 0 := if_pos h

theorem timerWork_of_ne {st : PropagatorState} {timer : TimerThr} {cmdQ : List Int}
    (h : st ≠ .run) : timerWork c st timer cmdQ = fireWeight c * firesLeft timer cmdQ := if_neg h

/-- RUN を出ている限り、どの状態にいるかは timer の仕事を変えない。 -/
theorem timerWork_congr {st st' : PropagatorState} (h : st ≠ .run) (h' : st' ≠ .run)
    (timer : TimerThr) (cmdQ : List Int) :
    timerWork c st' timer cmdQ = timerWork c st timer cmdQ := by
  rw [timerWork_of_ne h, timerWork_of_ne h']

/-! ## timer の動かない node -/

/-- 間隔が正でなければ timer thread は無い。 -/
def TimerIdle (c : NodeConfig V) (ns : NodeState V) : Prop :=
  c.nanosec ≤ 0 → ns.timer = .notStarted ∧ ns.cmdQ = []

/-- timer がこの先鳴れるのは、命令一つにつき一度である。 -/
theorem firesLeft_le (hc : Control c ns) (hidle : TimerIdle c ns) :
    firesLeft ns.timer ns.cmdQ ≤ 1 := by
  by_cases hn : 0 < c.nanosec
  · cases hc.timer hn with
    | alive _ _ h =>
      rcases h with ⟨h1, -, h2⟩ | ⟨h1, -, h2⟩ | ⟨h1, -, h2⟩ <;> simp [firesLeft, h1, h2]
      split <;> omega
    | closing _ _ _ _ h =>
      rcases h with ⟨h1, h2⟩ | ⟨h1, h2⟩ <;> simp [firesLeft, h1, h2]
    | stopped _ _ _ h1 _ h2 => simp [firesLeft, h1, h2]
  · obtain ⟨h1, h2⟩ := hidle (by omega)
    simp [firesLeft, h1, h2]

section step

variable [Zero V]

theorem TimerIdle.step (h : NodeStep c ns i ns' out) (hi : TimerIdle c ns) : TimerIdle c ns' := by
  intro hn
  obtain ⟨h1, h2⟩ := hi hn
  cases h with
  | timerFire ht => rw [h1] at ht; cases ht
  | timerCmd ht => rw [h1] at ht; cases ht
  | timerTrigger _ _ hpos => omega
  | _ => exact ⟨h1, h2⟩

omit [Zero V] in
/-- 終了の判定は、待っていた所に戻るか終わるかである。 -/
theorem Propagator.exitTest_work {p : Propagator V} (h : p.pc = .poll) :
    p.exitTest.pc.work = 0 := by
  rcases p.exitTest_cases with ⟨-, he⟩ | ⟨-, he⟩
  · rw [he]; rfl
  · rw [he, h]; rfl

omit [Zero V] in
/-- timer が命令を受けても、この先鳴れる回数は増えない。 -/
theorem firesLeft_cmd {nanosec : Int} {rest : List Int} :
    firesLeft (if nanosec ≤ 0 then .exited else .sleeping) rest
      = firesLeft .waitCmd (nanosec :: rest) := by
  by_cases h : nanosec ≤ 0
  · simp [firesLeft, h, not_lt.mpr h]
  · simp [firesLeft, h, not_le.mp h]
    omega

/--
**node の一歩の会計。**

数える一歩の分、残る仕事、外へ出した仕事は、手前の仕事、読んだ message の重さ、持ち込んだ仕事で賄われる。
-/
theorem NodeStep.work_le (hc : Control c ns) (hidle : TimerIdle c ns)
    (h : NodeStep c ns i ns' out) :
    ns'.work c + out.work c + i.counted ≤ ns.work c + i.work + i.cost c ns := by
  cases h with
  | inc =>
    by_cases hs : ns.prop.state = .run
    · simp [NodeState.work, NodeState.inc, hs, appQWork_append]
      omega
    · simp [NodeState.work, NodeState.inc, hs]
  | signalTermProp ha hs =>
    simp [NodeState.work, ha, appQWork_append]
    omega
  | signalTermRecv ha hs =>
    simp [NodeState.work, ha, Nat.mul_add]
    omega
  | waitTermProp ha | waitTermRecv ha => simp [NodeState.work, ha]
  | timerFire ht =>
    by_cases hs : ns.prop.state = .run
    · simp [NodeState.work, hs, timerWork_of_run, fireWeight, Nat.mul_add]
      omega
    · simp [NodeState.work, hs, timerWork_of_ne hs, firesLeft, ht, Nat.mul_add, fireWeight]
      omega
  | @timerCmd nanosec rest ht hq =>
    have ht' : timerWork c ns.prop.state (if nanosec ≤ 0 then .exited else .sleeping) rest
        = timerWork c ns.prop.state ns.timer ns.cmdQ := by
      rw [timerWork, timerWork, firesLeft_cmd, ht, hq]
    simp [NodeState.work, ht', hq]
  | timerTrigger hpc hq hn hperm =>
    have ht : timerWork c ns.prop.state ns.timer
          (ns.cmdQ ++ [if ns.prop.state = .run then c.nanosec else 0])
        = timerWork c ns.prop.state ns.timer ns.cmdQ := by
      by_cases hs : ns.prop.state = .run
      · rw [timerWork_of_run hs, timerWork_of_run hs]
      · simp [timerWork_of_ne hs, firesLeft, hs]
    simp [NodeState.work, ht, hpc, hq, hperm.length_eq, Nat.mul_add, trigWeight]
    omega
  | flushSkip hpc => simp [NodeState.work, hpc, Nat.mul_add]
  | flushRegister hpc =>
    simp [NodeState.work, hpc, Nat.mul_add]
    omega
  | flushSend hpc =>
    simp [NodeState.work, hpc, Nat.mul_add]
    omega
  | myUpdatesReply hpc hq =>
    simp [NodeState.work, hpc, hq]
    omega
  | flushEnd hpc =>
    by_cases hs : ns.prop.state = .termPrep
    · simp [NodeState.work, Propagator.flushEnd, hpc, hs]
    · simp [NodeState.work, Propagator.flushEnd, hpc, hs]
  | timerStopped hpc =>
    have hne : ns.prop.state ≠ .run := by rw [hc.prop.waitStop hpc]; rintro ⟨⟩
    have hne' : ns.prop.onTimerStopped.state ≠ .run := Propagator.exitTest_state_ne_run hne
    have hpc' : ns.prop.onTimerStopped.pc.work = 0 := Propagator.exitTest_work rfl
    simp [NodeState.work, timerWork_congr hne hne', hpc', hpc]
  | pullLog _ ht | dropLog _ ht => simp [NodeState.work, appQWork_take ht]
  | pullTerm hpc ht =>
    have hfire := Nat.mul_le_mul_left (fireWeight c) (firesLeft_le hc hidle)
    simp [NodeState.work, appQWork_take ht, timerWork_of_ne, termWeight]
    omega
  | pullTermReply hpc ht =>
    have hfire := Nat.mul_le_mul_left (fireWeight c) (firesLeft_le hc hidle)
    simp [NodeState.work, appQWork_take ht, timerWork_of_ne, termWeight]
    omega
  | record _ hq | dropBuffer _ hq => simp [NodeState.work, hq]
  | pullRecvAck hpc hq =>
    have hne : ns.prop.state ≠ .run := (hc.ack_state hq).2.2.2
    have hne' : ns.prop.onRecvInternalTerminateACK.state ≠ .run :=
      Propagator.exitTest_state_ne_run hne
    have hpc' : ns.prop.onRecvInternalTerminateACK.pc.work = 0 := Propagator.exitTest_work hpc
    simp [NodeState.work, timerWork_congr hne hne', hpc', hpc, hq]
  | subTerm => simp [NodeState.work]
  | subTermReply hpc hs =>
    have hne : ns.prop.state ≠ .run := by rw [hs]; rintro ⟨⟩
    generalize hp : Propagator.exitTest _ = p
    have hne' : p.state ≠ .run := hp ▸ Propagator.exitTest_state_ne_run hne
    have hpc' : p.pc.work = 0 := hp ▸ Propagator.exitTest_work hpc
    simp [NodeState.work, timerWork_congr hne hne', hpc', hpc]
  | register _ hq =>
    simp [NodeState.work, hq]
    omega
  | pairTermRun _ hq =>
    simp [NodeState.work, hq]
  | pairTermStop _ hq =>
    simp [NodeState.work, hq]
    omega
  | recvTerm _ hq =>
    have hupd : (if ns.recv.haveReceivedPropPairTerm then [PropagatorMsg.epRecvInternalTerminateACK]
        else ([] : List (PropagatorMsg V))).length ≤ 1 := by
      split <;> simp
    by_cases hexp : 0 < c.numExpectedPropagators
    · simp [NodeState.work, hq, hexp, publishWeight, Nat.mul_add] at hupd ⊢
      omega
    · simp [NodeState.work, hq, hexp, publishWeight, Nat.mul_add] at hupd ⊢
      omega
  | tcpDiscard | tcpNoPeer => simp [NodeState.work]
  | @tcpProcess t _ tc _ buff' =>
    have hupd : (if tc.forwardUpdates then [PropagatorMsg.epUpdateBuffer t buff']
        else []).length ≤ 1 := by
      split <;> simp
    simp [NodeState.work]
    omega
  | tcpAck => simp [NodeState.work]

end step

/-! ## system の仕事 -/

section system

variable {Node : Type} [DecidableEq Node] {C : SysConfig Node V} {s s' : SysState Node V}
  {l : SysLabel Node V}

/-- system に残る仕事。 -/
def sysWork (C : SysConfig Node V) (s : SysState Node V) : Nat :=
  (C.nodes.map fun j => (s.node j).work (C.nodeConfig j)).sum +
    (C.nodes.map fun j => 2 * (s.tcp j).length).sum + (C.nodes.map fun j => 3 * (s.pub j).length).sum

/-- `Inc` でなければ一歩と数える。 -/
def SysLabel.counted (l : SysLabel Node V) : Nat := if l.isInc then 0 else 1

/-- system の一歩が持ち込む仕事。 -/
def SysLabel.cost (C : SysConfig Node V) (s : SysState Node V) : SysLabel Node V → Nat
  | .node j l => NodeInput.cost (C.nodeConfig j) (s.node j) (.self l)
  | _ => 0

/-- 一つの node の一歩を書き戻した後の仕事。 -/
theorem sysWork_put (s : SysState Node V) (j : Node) (ns' : NodeState V) (out : NodeOut V) :
    sysWork C (s.put C j (ns', out)) + (s.node j).work (C.nodeConfig j)
      = sysWork C s + ns'.work (C.nodeConfig j) + out.work (C.nodeConfig j) := by
  have hnode := Lts.sum_map_of_eq_off C.nodes_nodup (C.mem_nodes j)
    (f := fun k => (s.node k).work (C.nodeConfig k))
    (g := fun k => ((s.put C j (ns', out)).node k).work (C.nodeConfig k))
    (fun k hk => by rw [put_node_of_ne hk])
  have htcp := Lts.sum_map_of_eq_off C.nodes_nodup (C.mem_nodes j)
    (f := fun k => 2 * (s.tcp k).length) (g := fun k => 2 * ((s.put C j (ns', out)).tcp k).length)
    (fun k hk => by rw [put_tcp_of_ne hk])
  have hpub : (C.nodes.map fun k => 3 * ((s.put C j (ns', out)).pub k).length).sum
      = (C.nodes.map fun k => 3 * (s.pub k).length).sum
        + (C.upstream j).length * (3 * out.pub.length) := by
    rw [Topology.upstream, ← Lts.sum_map_add_if]
    refine congrArg List.sum (List.map_congr_left fun k _ => ?_)
    by_cases hk : C.down k = some j
    · simp [SysState.put, hk, Nat.mul_add]
    · simp [SysState.put, hk]
  have hup : (C.nodeConfig j).numExpectedPropagators = (C.upstream j).length := by
    simp [NodeConfig.numExpectedPropagators, SysConfig.nodeConfig]
  simp only [put_node_self] at hnode
  simp only [put_tcp_self, List.length_append] at htcp
  have hmul : 3 * (C.upstream j).length * out.pub.length
      = (C.upstream j).length * (3 * out.pub.length) := by ring
  simp only [sysWork, NodeOut.work, hup, hpub, hmul]
  omega

/-- 読んだ message を channel から除いた後の仕事。 -/
theorem sysWork_tcp {u : Node} {m : PropRecvMsg V} {rest : List (PropRecvMsg V)}
    (h : s.tcp u = m :: rest) :
    sysWork C { s with tcp := Function.update s.tcp u rest } + 2 = sysWork C s := by
  have htcp := Lts.sum_map_of_eq_off C.nodes_nodup (C.mem_nodes u)
    (f := fun k => 2 * (s.tcp k).length) (g := fun k => 2 * (Function.update s.tcp u rest k).length)
    (fun k hk => by rw [Function.update_of_ne hk])
  simp only [Function.update_self, h, List.length_cons] at htcp
  simp only [sysWork]
  omega

theorem sysWork_pub {u : Node} {m : PropRecvMsg V} {rest : List (PropRecvMsg V)}
    (h : s.pub u = m :: rest) :
    sysWork C { s with pub := Function.update s.pub u rest } + 3 = sysWork C s := by
  have hpub := Lts.sum_map_of_eq_off C.nodes_nodup (C.mem_nodes u)
    (f := fun k => 3 * (s.pub k).length) (g := fun k => 3 * (Function.update s.pub u rest k).length)
    (fun k hk => by rw [Function.update_of_ne hk])
  simp only [Function.update_self, h, List.length_cons] at hpub
  simp only [sysWork]
  omega

variable [Zero V]

/-- **system の一歩の会計。** -/
theorem SysStep.work_le (hc : ∀ j, Control (C.nodeConfig j) (s.node j))
    (hidle : ∀ j, TimerIdle (C.nodeConfig j) (s.node j)) (h : SysStep C s l s') :
    sysWork C s' + l.counted ≤ sysWork C s + l.cost C s := by
  cases h with
  | @node j l ns' out hn =>
    have hle := hn.work_le (hc j) (hidle j)
    have hput := sysWork_put (C := C) s j ns' out
    have hcount : SysLabel.counted (.node j l : SysLabel Node V) = NodeInput.counted (.self l) := by
      cases l <;> rfl
    simp only [NodeInput.work] at hle
    simp only [hcount, SysLabel.cost]
    omega
  | @tcp u d msg rest ns' out hd hq hn =>
    have hle := hn.work_le (hc d) (hidle d)
    have hput := sysWork_put (C := C) { s with tcp := Function.update s.tcp u rest } d ns' out
    dsimp only at hput
    have hread := sysWork_tcp (C := C) hq
    simp only [NodeInput.work, NodeInput.counted, NodeInput.cost] at hle
    simp only [SysLabel.counted, SysLabel.isInc, SysLabel.cost, Bool.false_eq_true, if_false]
    omega
  | @termSub j msg rest ns' out hq hn =>
    have hle := hn.work_le (hc j) (hidle j)
    have hput := sysWork_put (C := C) { s with pub := Function.update s.pub j rest } j ns' out
    dsimp only at hput
    have hread := sysWork_pub (C := C) hq
    simp only [NodeInput.work, NodeInput.counted, NodeInput.cost] at hle
    simp only [SysLabel.counted, SysLabel.isInc, SysLabel.cost, Bool.false_eq_true, if_false]
    omega

/-- RUN を出た propagator は RUN に戻らない。 -/
theorem NodeStep.prop_left_run {c : NodeConfig V} {ns ns' : NodeState V} {i : NodeInput V}
    {out : NodeOut V} (h : NodeStep c ns i ns' out) (hs : ns.prop.state ≠ .run) :
    ns'.prop.state ≠ .run := by
  cases h with
  | timerStopped | pullRecvAck | subTermReply => exact Propagator.exitTest_state_ne_run hs
  | pullTerm | pullTermReply => rintro ⟨⟩
  | _ => exact hs

variable [DecidableEq V]

theorem SysReachable.timerIdle (h : SysReachable C s) (j : Node) :
    TimerIdle (C.nodeConfig j) (s.node j) := by
  refine h.node_invariant (I := TimerIdle) (fun j hn => ?_) (fun j ns i ns' out hstep => ?_) j
  · simp [NodeState.start, not_lt.mpr hn]
  · exact TimerIdle.step hstep

/-- 着ける状態からの一歩は、いつでも会計に合う。 -/
theorem pays_sysWork :
    Lts.Pays (sysStep C) (SysReachable C) (sysWork C) (fun _ l => l.counted) (SysLabel.cost C) := by
  intro s l s' hr hs
  refine ⟨hr.step hs, ?_⟩
  exact (sysStep_cases hr.kinds hs).work_le (fun j => hr.control j) (fun j => hr.timerIdle j)

omit [Zero V] [DecidableEq V] in
/-- どの propagator も RUN を出た後は、何も持ち込まれない。 -/
theorem SysLabel.cost_of_stopping (h : ∀ j, (s.node j).prop.state ≠ .run) : l.cost C s = 0 := by
  cases l with
  | node j l => cases l <;> simp [SysLabel.cost, h j]
  | _ => rfl

/-- どの propagator も RUN を出た、着ける状態。 -/
def AllStopping (C : SysConfig Node V) (s : SysState Node V) : Prop :=
  SysReachable C s ∧ ∀ j, (s.node j).prop.state ≠ .run

/-- 終了に入った system では、仕事は減るだけである。 -/
theorem pays_stopping : Lts.Pays (sysStep C) (AllStopping C) (sysWork C) (fun _ l => l.counted)
    (fun _ _ => 0) := by
  rintro s l s' ⟨hr, hstop⟩ hs
  obtain ⟨hr', hle⟩ := pays_sysWork s l s' hr hs
  have hstep := sysStep_cases hr.kinds hs
  refine ⟨⟨hr', hstep.forall_node (I := fun _ ns => ns.prop.state ≠ .run)
    (fun j i ns' out hn => hn.prop_left_run (hstop j)) hstop⟩, ?_⟩
  rwa [SysLabel.cost_of_stopping hstop] at hle

/-! ## run の長さ -/

/-- timer が鳴る一歩かどうか。 -/
def SysLabel.isFire : SysLabel Node V → Bool
  | .node _ .timerFire => true
  | _ => false

omit [Zero V] [DecidableEq V] in
/-- 持ち込まれる仕事は、`Inc` と timer の鳴った回数で抑えられる。 -/
theorem SysLabel.cost_le {K : Nat} (hK : ∀ j, (C.tableDir j).keys.length ≤ K)
    (l : SysLabel Node V) (s : SysState Node V) :
    l.cost C s ≤ (if l.isInc then 1 else 0) + (6 * K + 5) * if l.isFire then 1 else 0 := by
  cases l with
  | node j l =>
    cases l with
    | inc =>
      simp only [SysLabel.cost, NodeInput.cost, SysLabel.isInc, NodeLabel.isInc]
      split <;> simp
    | timerFire =>
      have hk := hK j
      simp only [SysLabel.cost, NodeInput.cost, SysLabel.isFire, fireWeight, trigWeight,
        SysConfig.nodeConfig]
      split
      · simp
        omega
      · simp
    | _ => exact Nat.zero_le _
  | _ => exact Nat.zero_le _

omit [DecidableEq Node] [Zero V] [DecidableEq V] in
/-- 数えた分の和は、`Inc` でない一歩の数である。 -/
theorem counted_sum (steps : List (SysState Node V × SysLabel Node V × SysState Node V)) :
    (steps.map fun e => e.2.1.counted).sum = steps.countP fun e => !e.2.1.isInc := by
  rw [← Lts.sum_map_ite_one]
  refine congrArg List.sum (List.map_congr_left fun e _ => ?_)
  cases h : e.2.1.isInc <;> simp [SysLabel.counted, h]

/--
**どの thread の歩数も、`Inc` と timer の鳴った回数に比例する分を超えない。**

`K` はどの node の table の数も超えない数である。どの順に thread が動いても、輪であっても同じである。
-/
theorem thread_steps_linear {K : Nat} (hK : ∀ j, (C.tableDir j).keys.length ≤ K)
    (h : SysReachable C s) {steps : List (SysState Node V × SysLabel Node V × SysState Node V)}
    (ht : Lts.Trace (sysStep C) s steps s') :
    steps.countP (fun e => !e.2.1.isInc)
      ≤ sysWork C s + steps.countP (fun e => e.2.1.isInc)
        + (6 * K + 5) * steps.countP (fun e => e.2.1.isFire) := by
  obtain ⟨-, hle⟩ := pays_sysWork.trace h ht
  rw [counted_sum] at hle
  have hcost : (steps.map fun e => e.2.1.cost C e.1).sum
      ≤ steps.countP (fun e => e.2.1.isInc) + (6 * K + 5) * steps.countP fun e => e.2.1.isFire := by
    calc (steps.map fun e => e.2.1.cost C e.1).sum
        ≤ (steps.map fun e => (if e.2.1.isInc then 1 else 0)
            + (6 * K + 5) * if e.2.1.isFire then 1 else 0).sum :=
          List.sum_le_sum fun e _ => e.2.1.cost_le hK e.1
      _ = steps.countP (fun e => e.2.1.isInc)
            + (6 * K + 5) * steps.countP fun e => e.2.1.isFire := by
          rw [List.sum_map_add, List.sum_map_mul_left, Lts.sum_map_ite_one, Lts.sum_map_ite_one]
  omega

/--
**終了は必ず片付く。**

どの propagator も RUN を出た後は、どの順に thread が動いても、application の `Inc` を除く歩数は
その時に残っていた仕事を超えない。
-/
theorem shutdown_steps_le (h : SysReachable C s) (hstop : ∀ j, (s.node j).prop.state ≠ .run)
    {steps : List (SysState Node V × SysLabel Node V × SysState Node V)}
    (ht : Lts.Trace (sysStep C) s steps s') :
    steps.countP (fun e => !e.2.1.isInc) ≤ sysWork C s := by
  obtain ⟨-, hle⟩ := pays_stopping.trace ⟨h, hstop⟩ ht
  rw [counted_sum, List.map_const', List.sum_replicate] at hle
  simp at hle
  omega

/-- 輪が最後まで止まる run で、`thread_steps_linear` を使う。 -/
theorem thread_steps_linear_pairRing : ∃ s steps,
    Lts.Trace (sysStep pairRing) (SysState.start pairRing) steps s ∧
      (∀ j, (s.node j).app = .finished) ∧
      steps.countP (fun e => !e.2.1.isInc) ≤ sysWork pairRing (SysState.start pairRing)
        + steps.countP (fun e => e.2.1.isInc) + 11 * steps.countP (fun e => e.2.1.isFire) := by
  obtain ⟨s, hr, hfin⟩ : ∃ s, SysReachable pairRing s ∧ ∀ j, (s.node j).app = .finished :=
    Lts.Reachable.exists_of_run shutDownBoth (by decide +kernel)
  obtain ⟨steps, ht⟩ := Lts.Reachable.trace hr
  exact ⟨s, steps, ht, hfin, thread_steps_linear (K := 1) (by decide) Lts.Reachable.init ht⟩

/-- どちらの node も `ShutDown` を呼んだ後の run で、`shutdown_steps_le` を使う。 -/
theorem shutdown_steps_le_pairRing : ∃ s s' steps, SysReachable pairRing s ∧
    (∀ j, (s.node j).prop.state = .termPrep) ∧ Lts.Trace (sysStep pairRing) s steps s' ∧
      (∀ j, (s'.node j).prop.state = .term) ∧
      steps.countP (fun e => !e.2.1.isInc) ≤ sysWork pairRing s := by
  obtain ⟨s, hr, hprep, hrest⟩ : ∃ s, SysReachable pairRing s ∧
      (∀ j, (s.node j).prop.state = .termPrep) ∧
      (Lts.run (sysStep pairRing) s ((List.finRange 2).map .termSub)).any
        (fun s' => decide (∀ j, (s'.node j).prop.state = .term)) = true :=
    Lts.Reachable.exists_of_run ((List.finRange 2).flatMap stopNode) (by decide +kernel)
  obtain ⟨s', hr', hterm⟩ := Lts.Reachable.exists_of_run _ hrest
  obtain ⟨steps, ht⟩ := Lts.Reachable.trace hr'
  refine ⟨s, s', steps, hr, hprep, ht, hterm, shutdown_steps_le hr ?_ ht⟩
  intro j
  rw [hprep j]
  rintro ⟨⟩

/-! ## いつでも片付けられる -/

/-- `ShutDown` を呼ぶ thread の一歩かどうか。 -/
def NodeLabel.isMain : NodeLabel V → Bool
  | .signalTermProp | .signalTermRecv | .waitTermProp | .waitTermRecv => true
  | _ => false

/-- `ShutDown` が呼ばれていれば、RUN の propagator を持つ node には、timer が鳴らなくても動ける thread がある。 -/
theorem Control.thread_moves {c : NodeConfig V} {ns : NodeState V} (hc : Control c ns)
    (hs : ns.prop.state = .run) (happ : ns.app ≠ .running) :
    ∃ l : NodeLabel V, l.isInc = false ∧ l.isMain = false ∧ l ≠ .timerFire ∧
      nodeStepSelf c ns l ≠ none := by
  cases hpc : ns.prop.pc with
  | returned => rw [hc.prop.returned.mp hpc] at hs; cases hs
  | waitStop => rw [hc.prop.waitStop hpc] at hs; cases hs
  | flush todo =>
    cases todo with
    | nil => exact ⟨.flushEnd, rfl, rfl, by rintro ⟨⟩, by simp [nodeStepSelf, hpc]⟩
    | cons t todo =>
      obtain ⟨o, ho⟩ := FlushOrder.exists_valid (ns.prop.tab t)
      exact ⟨.flushTable o, rfl, rfl, by rintro ⟨⟩, by simp [nodeStepSelf, hpc, ho]⟩
  | waitAck t b todo =>
    cases hc.pair with
    | idle _ h => exact absurd hpc (h _ _ _)
    | asked _ _ _ hrep hq =>
      have hne : ns.recv.state ≠ .term := fun ht => by
        rw [(hc.recv.term ht).1] at hrep; cases hrep
      exact ⟨.recvPair, rfl, rfl, by rintro ⟨⟩, by simp [nodeStepSelf, hq, hne]⟩
    | answered _ _ _ _ _ hq =>
      exact ⟨.myUpdatesReply, rfl, rfl, by rintro ⟨⟩, by simp [nodeStepSelf, hpc, hq]⟩
    | told h | heard h => exact absurd hs h
  | poll =>
    cases hc.app with
    | running ha => exact absurd ha happ
    | signaled _ _ hq =>
      refine ⟨.pullApp 0, rfl, rfl, by rintro ⟨⟩, ?_⟩
      cases ht : NodeState.takeApp 0 ns.appQ with
      | none => rw [mainMsgs_eq_nil_of_takeApp ht] at hq; exact absurd hq.symm (by simp)
      | some res => simp [nodeStepSelf, hpc, ht]
    | handled _ h => exact absurd hs h

/-- RUN の propagator を持つ node には、timer が鳴らなくても動ける thread がある。 -/
theorem Control.run_moves {c : NodeConfig V} {ns : NodeState V} (hc : Control c ns)
    (hs : ns.prop.state = .run) :
    ∃ l : NodeLabel V, l.isInc = false ∧ l ≠ .timerFire ∧ nodeStepSelf c ns l ≠ none := by
  by_cases happ : ns.app = .running
  · exact ⟨.signalTermProp, rfl, by rintro ⟨⟩, by simp [nodeStepSelf, happ, hs]⟩
  · obtain ⟨l, hinc, -, hfire, hmove⟩ := hc.thread_moves hs happ
    exact ⟨l, hinc, hfire, hmove⟩

/-- 仕事を持ち込まない一歩。 -/
def Internal (C : SysConfig Node V) (s : SysState Node V) (l : SysLabel Node V) : Prop :=
  l.isInc = false ∧ l.cost C s = 0

omit [Zero V] [DecidableEq V] in
theorem internal_of_ne_fire {j : Node} {l : NodeLabel V} (hinc : l.isInc = false)
    (hfire : l ≠ .timerFire) : Internal C s (.node j l) := by
  refine ⟨hinc, ?_⟩
  cases l with
  | inc => cases hinc
  | timerFire => exact absurd rfl hfire
  | _ => rfl

/-- 仕事を持ち込まない一歩で、仕事は減る。 -/
theorem Internal.work_lt {l : SysLabel Node V} (h : Internal C s l) (hr : SysReachable C s)
    (hs : sysStep C s l = some (.ok s')) : sysWork C s' < sysWork C s := by
  have hle := (pays_sysWork s l s' hr hs).2
  simp only [h.1, h.2, SysLabel.counted, Bool.false_eq_true, if_false] at hle
  omega

/-- 仕事を持ち込まない run は、動ける thread の無い状態か、次の一歩が異常終了する状態に着く。 -/
theorem SysReachable.wind_down (h : SysReachable C s) :
    ∃ s', Lts.ReachableUnder (sysStep C) (Internal C) s s' ∧
      ((∃ l e, sysStep C s' l = some (.error e)) ∨ Quiescent C s') := by
  obtain ⟨s', hreach, hr, hend⟩ := Lts.exists_blocked (R := SysReachable C) (P := Internal C)
    (sysWork C) (fun _ _ _ hr hp hs => ⟨hr.step hs, hp.work_lt hr hs⟩) s h
  refine ⟨s', hreach, hend.imp_right fun hnone => ?_⟩
  -- RUN の propagator があれば、仕事を持ち込まない一歩がまだある。
  have hstop : ∀ j, (s'.node j).prop.state ≠ .run := by
    intro j hs
    obtain ⟨l, hinc, hfire, hmove⟩ := (hr.control j).run_moves hs
    exact hmove (Option.map_eq_none_iff.mp (hnone _ (internal_of_ne_fire hinc hfire)))
  exact fun l hl => hnone l ⟨hl, SysLabel.cost_of_stopping hstop⟩

/--
**どこからでも片付けられる。**

どの着ける状態からも、`Inc` をせずに、動ける thread の無い状態か、次の一歩が異常終了する状態に着ける。
-/
theorem can_wind_down (h : SysReachable C s) :
    ∃ s', Lts.ReachableUnder (sysStep C) (fun _ l => l.isInc = false) s s' ∧
      ((∃ l e, sysStep C s' l = some (.error e)) ∨ Quiescent C s') := by
  obtain ⟨s', hreach, hend⟩ := h.wind_down
  exact ⟨s', hreach.mono fun _ _ hp => hp.1, hend⟩

/--
node 0 の batch が channel に、node 1 の log が queue に残り、node 1 の `ShutDown` が始まった所で、
`can_wind_down` を使う。
-/
theorem can_wind_down_pairRing : ∃ s s', SysReachable pairRing s ∧ (s.tcp 0).length = 1 ∧
    (s.node 1).appQ.length = 2 ∧ (s.node 1).app = .signaledProp ∧
    Lts.ReachableUnder (sysStep pairRing) (fun _ l => l.isInc = false) s s' ∧
      ((∃ l e, sysStep pairRing s' l = some (.error e)) ∨ Quiescent pairRing s') := by
  obtain ⟨s, hr, htcp, hq, happ⟩ : ∃ s, SysReachable pairRing s ∧ (s.tcp 0).length = 1 ∧
      (s.node 1).appQ.length = 2 ∧ (s.node 1).app = .signaledProp :=
    Lts.Reachable.exists_of_run (incLabels 0 1 1 ++ tickLabels 0 ⟨[(1, 1)], [], [(1, 1)]⟩ ++
      [.node 1 (.inc 0 0 2 1), .node 1 .signalTermProp]) (by decide +kernel)
  obtain ⟨s', hreach, hend⟩ := can_wind_down hr
  exact ⟨s, s', hr, htcp, hq, happ, hreach, hend⟩

end system

end QuiltDB
