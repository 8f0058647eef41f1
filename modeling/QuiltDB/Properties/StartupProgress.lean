import QuiltDB.Properties.HandshakeWork
import QuiltDB.Properties.Startup

/-!
# 起動は必ず済ませられる

どこまで進んだ状態からも、全ての process の `Start` が戻るところまで進められる。輪であっても、
互いを待ち合って起動できないことはない。receiver は何も待たずに `EPRInit` を送るからである。
-/

namespace QuiltDB

variable {P V : Type} {T : Topology (P × Direction)}

section step

variable [DecidableEq P] {s s' : BootState T V} {l : BootLabel T V}

/-! ## 残りの仕事 -/

def MainPc.work : MainPc → Nat
  | .createProp .horizontal => 11
  | .waitProp .horizontal => 10
  | .createRecv .horizontal => 9
  | .createProp .vertical => 8
  | .waitProp .vertical => 7
  | .createRecv .vertical => 6
  | .semWait left => left + 1
  | .returned => 0

def PropStage.work : PropStage → Nat
  | .notCreated => 4
  | .setup => 3
  | .waitInit => 2
  | .handshake => 1
  | .run => 0

def RecvStage.work : RecvStage → Nat
  | .notCreated => 3
  | .setup => 2
  | .handshake => 1
  | .run => 0

/-- receiver `r` の handshake に残る仕事。 -/
def BootState.hsWork (s : BootState T V) (r : P × Direction) : Nat :=
  if h : T.upProps r ≠ [] then (s.hs r).work (T.hsConfig r h) else 0

/-- logical node 一つの分。 -/
def BootState.slotWork (s : BootState T V) (a : P × Direction) : Nat :=
  (s.main a.1).work + (s.prop a).work + (s.recv a).work + s.hsWork a

/-- 起動に残る仕事。 -/
def BootState.work (s : BootState T V) : Nat := (T.nodes.map s.slotWork).sum

/-- 仕事を減らす一歩。 -/
def BootLabel.Useful (s : BootState T V) : BootLabel T V → Prop
  | .hs r k => ∃ h : T.upProps r ≠ [], k.Useful (T.hsConfig r h) (s.hs r)
  | _ => True

/-- 減らす値を書き込んでも、どこの重さも増えない。 -/
theorem update_work_le {α β : Type} [DecidableEq α] {f : α → β} {w : β → Nat} {b : α} {x : β}
    (h : w x ≤ w (f b)) (a : α) : w (Function.update f b x a) ≤ w (f a) := by
  by_cases heq : a = b
  · subst heq
    rw [Function.update_self]
    exact h
  · rw [Function.update_of_ne heq]

/-- どこの重さも増えず、一か所で減る一歩。 -/
theorem BootState.work_lt (hm : ∀ p, (s'.main p).work ≤ (s.main p).work)
    (hp : ∀ a, (s'.prop a).work ≤ (s.prop a).work) (hr : ∀ a, (s'.recv a).work ≤ (s.recv a).work)
    (hh : ∀ r, s'.hsWork r ≤ s.hsWork r) {a : P × Direction}
    (ha : (s'.main a.1).work < (s.main a.1).work ∨ (s'.prop a).work < (s.prop a).work ∨
      (s'.recv a).work < (s.recv a).work ∨ s'.hsWork a < s.hsWork a) : s'.work < s.work := by
  have hle : ∀ b, s'.slotWork b ≤ s.slotWork b := by
    intro b
    have h1 := hm b.1
    have h2 := hp b
    have h3 := hr b
    have h4 := hh b
    unfold BootState.slotWork
    omega
  refine List.sum_lt_sum _ _ (fun b _ => hle b) ⟨a, T.mem_nodes a, ?_⟩
  have h1 := hm a.1
  have h2 := hp a
  have h3 := hr a
  have h4 := hh a
  unfold BootState.slotWork
  omega

/-- `Start` を呼んだ thread が進む。 -/
theorem BootState.work_lt_main {p : P} {pc : MainPc} (hlt : pc.work < (s.main p).work)
    (hm : s'.main = Function.update s.main p pc) (hp : ∀ a, (s'.prop a).work ≤ (s.prop a).work)
    (hr : ∀ a, (s'.recv a).work ≤ (s.recv a).work) (hh : s'.hs = s.hs) : s'.work < s.work := by
  refine BootState.work_lt (a := (p, .horizontal)) (fun q => ?_) hp hr (fun r => ?_) (Or.inl ?_)
  · rw [hm]
    exact update_work_le hlt.le q
  · simp [BootState.hsWork, hh]
  · rw [hm, Function.update_self]
    exact hlt

/-- propagator thread が進む。 -/
theorem BootState.work_lt_prop {a : P × Direction} {x : PropStage} (hlt : x.work < (s.prop a).work)
    (hp : s'.prop = Function.update s.prop a x) (hm : s'.main = s.main) (hr : s'.recv = s.recv)
    (hh : s'.hs = s.hs) : s'.work < s.work := by
  refine BootState.work_lt (a := a) (fun q => by rw [hm]) (fun b => ?_) (fun b => by rw [hr])
    (fun r => by simp [BootState.hsWork, hh]) (Or.inr (Or.inl ?_))
  · rw [hp]
    exact update_work_le hlt.le b
  · rw [hp, Function.update_self]
    exact hlt

/-- receiver thread が進む。 -/
theorem BootState.work_lt_recv {a : P × Direction} {x : RecvStage} (hlt : x.work < (s.recv a).work)
    (hr : s'.recv = Function.update s.recv a x) (hm : s'.main = s.main) (hp : s'.prop = s.prop)
    (hh : s'.hs = s.hs) : s'.work < s.work := by
  refine BootState.work_lt (a := a) (fun q => by rw [hm]) (fun b => by rw [hp]) (fun b => ?_)
    (fun r => by simp [BootState.hsWork, hh]) (Or.inr (Or.inr (Or.inl ?_)))
  · rw [hr]
    exact update_work_le hlt.le b
  · rw [hr, Function.update_self]
    exact hlt

/-- **役に立つ一歩は、必ず仕事を減らす。** -/
theorem BootInv.work_lt (hi : BootInv s) (hu : l.Useful s) (h : BootStep s l s') :
    s'.work < s.work := by
  cases h with
  | @createProp p d hm =>
    have hslot := hi.slot (p, d)
    rw [hm] at hslot
    have hlt : (MainPc.waitProp d).work < (s.main p).work := by rw [hm]; cases d <;> decide
    refine BootState.work_lt_main hlt rfl (update_work_le ?_) (fun _ => le_rfl) rfl
    rw [hslot.prop_new]
    decide
  | @waitProp p d hm =>
    have hlt : (MainPc.createRecv d).work < (s.main p).work := by rw [hm]; cases d <;> decide
    exact BootState.work_lt_main hlt rfl (fun _ => le_rfl) (fun _ => le_rfl) rfl
  | @createRecv p d hm =>
    have hslot := hi.slot (p, d)
    rw [hm] at hslot
    have hlt : (MainPc.afterRecv d).work < (s.main p).work := by rw [hm]; cases d <;> decide
    refine BootState.work_lt_main hlt rfl (fun _ => le_rfl) (update_work_le ?_) rfl
    rw [hslot.recv_new]
    decide
  | @semWait p left hm =>
    have hlt : (MainPc.semWait left).work < (s.main p).work := by rw [hm]; exact Nat.lt_succ_self _
    exact BootState.work_lt_main hlt rfl (fun _ => le_rfl) (fun _ => le_rfl) rfl
  | @returns p hm =>
    have hlt : MainPc.returned.work < (s.main p).work := by rw [hm]; decide
    exact BootState.work_lt_main hlt rfl (fun _ => le_rfl) (fun _ => le_rfl) rfl
  | @propSetup a hp =>
    have hlt : PropStage.waitInit.work < (s.prop a).work := by rw [hp]; decide
    exact BootState.work_lt_prop hlt rfl rfl rfl rfl
  | @propInit a rest hp =>
    have hlt : PropStage.handshake.work < (s.prop a).work := by rw [hp]; decide
    exact BootState.work_lt_prop hlt rfl rfl rfl rfl
  | @propRun a hp =>
    have hlt : PropStage.run.work < (s.prop a).work := by rw [hp]; decide
    exact BootState.work_lt_prop hlt rfl rfl rfl rfl
  | @recvSetup a hr =>
    have hlt : RecvStage.handshake.work < (s.recv a).work := by rw [hr]; decide
    exact BootState.work_lt_recv hlt rfl rfl rfl rfl
  | @recvRun a hr =>
    have hlt : RecvStage.run.work < (s.recv a).work := by rw [hr]; decide
    exact BootState.work_lt_recv hlt rfl rfl rfl rfl
  | @hs r k t hne hk =>
    obtain ⟨_, hu⟩ := hu
    have hlt := (hi.hs r hne).work_lt hu hk
    have hself : BootState.hsWork { s with hs := Function.update s.hs r t } r < s.hsWork r := by
      simpa [BootState.hsWork, hne] using hlt
    refine BootState.work_lt (a := r) (fun _ => le_rfl) (fun _ => le_rfl) (fun _ => le_rfl)
      (fun b => ?_) (Or.inr (Or.inr (Or.inr hself)))
    by_cases hb : b = r
    · subst hb
      exact hself.le
    · simp [BootState.hsWork, Function.update_of_ne hb]

/-! ## 選べる一歩が無い時 -/

/-- どの thread も作られ、`EPRInit` を読んだ所まで進んでいる。 -/
theorem BootInv.threads_of_blocked (hi : BootInv s)
    (hb : ∀ l : BootLabel T V, l.Useful s → bootStep T s l = none) :
    (∀ a, s.prop a = .handshake ∨ s.prop a = .run) ∧
      (∀ a, s.recv a = .handshake ∨ s.recv a = .run) ∧
      ∀ p, (∃ left, s.main p = .semWait (left + 1)) ∨ s.main p = .returned := by
  have hpset : ∀ a, s.prop a ≠ .setup := by
    intro a hp
    have h := hb (.prop a) trivial
    simp [bootStep, BootState.stepProp, hp] at h
  have hrset : ∀ a, s.recv a ≠ .setup := by
    intro a hr
    have h := hb (.recv a) trivial
    have hbound := (hi.slot a).bound_of_recv (by rw [hr]; rintro ⟨⟩)
    simp [bootStep, BootState.stepRecv, hr, hbound] at h
  have hmain : ∀ p, (∃ left, s.main p = .semWait (left + 1)) ∨ s.main p = .returned := by
    intro p
    have h := hb (.main p) trivial
    simp only [bootStep, Option.map_eq_none_iff] at h
    cases hm : s.main p with
    | createProp d => simp [BootState.stepMain, hm] at h
    | waitProp d =>
      -- propagator は bind を済ませているので、`internal_sync_sem` は上がっている。
      exfalso
      have hslot := hi.slot (p, d)
      rw [hm] at hslot
      have hsem : s.internalSem (p, d) = 0 := by
        simpa [BootState.stepMain, hm] using h
      have hnew : s.prop (p, d) ≠ .notCreated := fun hn => by
        have hle := hslot.propNew.mp hn
        cases d <;> simp [MainPc.rank, Direction.base] at hle
      have hbound : (s.prop (p, d)).bound = true := by
        cases hp : s.prop (p, d) with
        | notCreated => exact absurd hp hnew
        | setup => exact absurd hp (hpset _)
        | _ => rfl
      have hcount := hslot.sem
      rw [hsem, hbound] at hcount
      cases d <;> simp [MainPc.rank, Direction.base] at hcount
    | createRecv d => simp [BootState.stepMain, hm] at h
    | semWait left =>
      cases left with
      | zero => simp [BootState.stepMain, hm] at h
      | succ left => exact Or.inl ⟨left, rfl⟩
    | returned => exact Or.inr rfl
  have hrank : ∀ p, 6 ≤ (s.main p).rank := by
    intro p
    rcases hmain p with ⟨left, hm⟩ | hm <;> rw [hm] <;> simp [MainPc.rank]
  have hbase : ∀ d : Direction, d.base + 2 < 6 := by intro d; cases d <;> decide
  have hrecv : ∀ a, s.recv a = .handshake ∨ s.recv a = .run := by
    intro a
    have hnew : s.recv a ≠ .notCreated := fun hn => by
      have hle := (hi.slot a).recvNew.mp hn
      have h1 := hrank a.1
      have h2 := hbase a.2
      omega
    cases hr : s.recv a with
    | notCreated => exact absurd hr hnew
    | setup => exact absurd hr (hrset a)
    | handshake => exact Or.inl rfl
    | run => exact Or.inr rfl
  refine ⟨fun a => ?_, hrecv, hmain⟩
  cases hp : s.prop a with
  | notCreated =>
    have hle := (hi.slot a).propNew.mp hp
    have h1 := hrank a.1
    have h2 := hbase a.2
    omega
  | setup => exact absurd hp (hpset a)
  | waitInit =>
    have h := hb (.prop a) trivial
    have hq := (hi.slot a).initQ
    have hbound : (s.recv a).bound = true := by
      rcases hrecv a with hr | hr <;> rw [hr] <;> rfl
    rw [hbound, hp, if_pos (by decide)] at hq
    simp [bootStep, BootState.stepProp, hp, hq] at h
  | handshake => exact Or.inl rfl
  | run => exact Or.inr rfl

/-- handshake の済んだ thread が RUN に入っていれば、handshake の一歩を妨げるものは無い。 -/
theorem BootInv.gate_open (hi : BootInv s) (hprop : ∀ a, s.prop a = .handshake ∨ s.prop a = .run)
    (hrecv : ∀ a, s.recv a = .handshake ∨ s.recv a = .run)
    (hpdone : ∀ a, s.prop a = .handshake → s.propDone a = false)
    (hrdone : ∀ a, s.recv a = .handshake → s.recvDone a = false) {r : P × Direction}
    (hne : T.upProps r ≠ []) {k : HsLabel (T.Up r) V}
    (hk : k.Useful (T.hsConfig r hne) (s.hs r)) : s.gate r k = true := by
  have hpact : ∀ i : T.Up r, s.propActive i = true := by
    intro i
    unfold BootState.propActive
    rcases hprop i.1 with hp | hp
    · have hnot := hpdone i.1 hp
      rw [if_neg, hp]
      · rfl
      · intro hpc
        rw [BootState.propDone_iff.mpr] at hnot
        · cases hnot
        · intro r' hr'
          obtain rfl := Option.some.inj (i.2.symm.trans hr')
          exact hpc
    · rw [if_pos (BootState.propDone_iff.mp (hi.propRun i.1 hp) r i.2), hp]
      rfl
  have hract : s.recvActive r = true := by
    unfold BootState.recvActive
    rcases hrecv r with hr | hr
    · have hnot := hrdone r hr
      rw [if_neg, hr]
      · rfl
      · intro hpc
        rw [BootState.recvDone_iff.mpr fun _ => hpc] at hnot
        cases hnot
    · rw [if_pos (BootState.recvDone_iff.mp (hi.recvRun r hr) hne), hr]
      rfl
  cases k with
  | subscribe i =>
    have h1 : (s.prop i.1).bound = true := by rcases hprop i.1 with h | h <;> rw [h] <;> rfl
    have h2 : (s.recv r).bound = true := by rcases hrecv r with h | h <;> rw [h] <;> rfl
    simp [BootState.gate, h1, h2]
  | send i | recvSub i => exact hpact i
  | publish | recvPush i | recvNothing => exact hract
  | sendMain | publishMain => exact hk.elim

/-- 選べる一歩が無ければ、どの thread も RUN である。 -/
theorem BootInv.run_of_blocked (hi : BootInv s)
    (hb : ∀ l : BootLabel T V, l.Useful s → bootStep T s l = none) :
    (∀ a, s.prop a = .run) ∧ ∀ a, s.recv a = .run := by
  obtain ⟨hprop, hrecv, -⟩ := hi.threads_of_blocked hb
  have hpdone : ∀ a, s.prop a = .handshake → s.propDone a = false := by
    intro a hp
    have h := hb (.prop a) trivial
    simpa [bootStep, BootState.stepProp, hp] using h
  have hrdone : ∀ a, s.recv a = .handshake → s.recvDone a = false := by
    intro a hr
    have h := hb (.recv a) trivial
    simpa [bootStep, BootState.stepRecv, hr] using h
  have hdone : ∀ r (hne : T.upProps r ≠ []),
      (s.hs r).recvPc = .run ∧ ∀ i, (s.hs r).propPc i = .run := by
    intro r hne
    refine (hi.hs r hne).done_of_blocked fun k hk => ?_
    have h := hb (.hs r k) ⟨hne, hk⟩
    have hgate := hi.gate_open hprop hrecv hpdone hrdone hne hk
    simp only [bootStep, BootState.stepHs, dif_pos hne, hgate, if_true] at h
    split at h
    · next hnone => exact hnone
    · cases h
    · cases h
  refine ⟨fun a => ?_, fun a => ?_⟩
  · rcases hprop a with hp | hp
    · have hnot := hpdone a hp
      rw [BootState.propDone_iff.mpr fun r hr => (hdone r (upProps_ne_nil hr)).2 ⟨a, hr⟩] at hnot
      cases hnot
    · exact hp
  · rcases hrecv a with hr | hr
    · have hnot := hrdone a hr
      rw [BootState.recvDone_iff.mpr fun hne => (hdone a hne).1] at hnot
      cases hnot
    · exact hr

/-- 選べる一歩が無ければ、どの process の `Start` も戻っている。 -/
theorem BootInv.returned_of_blocked (hi : BootInv s)
    (hb : ∀ l : BootLabel T V, l.Useful s → bootStep T s l = none) (p : P) :
    s.main p = .returned := by
  obtain ⟨-, -, hmain⟩ := hi.threads_of_blocked hb
  obtain ⟨hprop, hrecv⟩ := hi.run_of_blocked hb
  rcases hmain p with ⟨left, hm⟩ | hm
  · -- 四つの thread が上げた分は、まだ残っている。
    exfalso
    have h := hb (.main p) trivial
    have hsync := hi.sync p
    simp only [running, hprop, hrecv, hm, MainPc.toWait, PropStage.isRun_run, RecvStage.isRun_run,
      Bool.toNat_true] at hsync
    simp [bootStep, BootState.stepMain, hm] at h
    omega
  · exact hm

/--
**起動は必ず済ませられる。**

着けるどの状態からも、全ての process の `Start` が戻る状態に着ける。結び方は輪でも構わない。
-/
theorem startup_can_complete (h : BootReachable T s) :
    ∃ s', Lts.Reachable (bootStep T) s s' ∧ ∀ p, s'.main p = .returned := by
  obtain ⟨s', hreach, hr, hend⟩ := Lts.exists_blocked (R := BootReachable T)
    (P := fun s (l : BootLabel T V) => l.Useful s) BootState.work (fun s l s' hr hu hs =>
      ⟨hr.step hs, (BootReachable.inv hr).work_lt hu (bootStep_ok hs)⟩) s h
  have hi := BootReachable.inv hr
  refine ⟨s', hreach.reachable, hi.returned_of_blocked ?_⟩
  rcases hend with ⟨l, e, hfault⟩ | hnone
  · exact absurd hfault (hi.no_fault l e)
  · exact hnone

/-- 一方の process だけが thread を作り始めた状態で、`startup_can_complete` を使う。 -/
theorem startup_can_complete_bootRing : ∃ s s' : BootState bootRing (BitVec 32),
    BootReachable bootRing s ∧ s.main true = .createProp .horizontal ∧
      s.recv (false, .horizontal) = .handshake ∧ Lts.Reachable (bootStep bootRing) s s' ∧
      ∀ p, s'.main p = .returned := by
  obtain ⟨s, hr, hmain, hrecv⟩ : ∃ s : BootState bootRing (BitVec 32), BootReachable bootRing s ∧
      s.main true = .createProp .horizontal ∧ s.recv (false, .horizontal) = .handshake :=
    Lts.Reachable.exists_of_run (createThreads (false, .horizontal)) (by decide +kernel)
  obtain ⟨s', hreach, hret⟩ := startup_can_complete hr
  exact ⟨s, s', hr, hmain, hrecv, hreach, hret⟩

end step

end QuiltDB
