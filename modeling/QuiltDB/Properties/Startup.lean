import QuiltDB.Comm.Startup
import QuiltDB.Properties.Handshake

/-!
# 起動の安全性

`Start` が戻った process では、四つの thread が全て RUN である。inproc の `connect` は、相手が bind した
後にしか起きない。どちらも semaphore の値と thread の位置を結ぶ不変量から従う。
-/

namespace QuiltDB

variable {P V : Type} {T : Topology (P × Direction)}

/-! ## 一歩の場合分け -/

section cases

variable [DecidableEq P]

/-- 起動の一歩。 -/
inductive BootStep (s : BootState T V) : BootLabel T V → BootState T V → Prop
  | createProp {p d} : s.main p = .createProp d →
      BootStep s (.main p) { s with main := Function.update s.main p (.waitProp d)
                                    prop := Function.update s.prop (p, d) .setup }
  | waitProp {p d} : s.main p = .waitProp d → 0 < s.internalSem (p, d) →
      BootStep s (.main p) { s with
        main := Function.update s.main p (.createRecv d)
        internalSem := Function.update s.internalSem (p, d) (s.internalSem (p, d) - 1) }
  | createRecv {p d} : s.main p = .createRecv d →
      BootStep s (.main p) { s with main := Function.update s.main p (.afterRecv d)
                                    recv := Function.update s.recv (p, d) .setup }
  | semWait {p left} : s.main p = .semWait (left + 1) → 0 < s.syncSem p →
      BootStep s (.main p) { s with main := Function.update s.main p (.semWait left)
                                    syncSem := Function.update s.syncSem p (s.syncSem p - 1) }
  | returns {p} : s.main p = .semWait 0 →
      BootStep s (.main p) { s with main := Function.update s.main p .returned }
  | propSetup {a} : s.prop a = .setup →
      BootStep s (.prop a) { s with
        prop := Function.update s.prop a .waitInit
        internalSem := Function.update s.internalSem a (s.internalSem a + 1) }
  | propInit {a rest} : s.prop a = .waitInit → s.initQ a = .epRInit :: rest →
      BootStep s (.prop a) { s with prop := Function.update s.prop a .handshake
                                    initQ := Function.update s.initQ a rest }
  | propRun {a} : s.prop a = .handshake → s.propDone a = true →
      BootStep s (.prop a) { s with
        prop := Function.update s.prop a .run
        syncSem := Function.update s.syncSem a.1 (s.syncSem a.1 + 1) }
  | recvSetup {a} : s.recv a = .setup → (s.prop a).bound = true →
      BootStep s (.recv a) { s with
        recv := Function.update s.recv a .handshake
        initQ := Function.update s.initQ a (s.initQ a ++ [.epRInit]) }
  | recvRun {a} : s.recv a = .handshake → s.recvDone a = true →
      BootStep s (.recv a) { s with
        recv := Function.update s.recv a .run
        syncSem := Function.update s.syncSem a.1 (s.syncSem a.1 + 1) }
  | hs {r l t} (h : T.upProps r ≠ []) : hsStep (T.hsConfig r h) (s.hs r) l = some (.ok t) →
      BootStep s (.hs r l) { s with hs := Function.update s.hs r t }

theorem bootStep_ok {s s' : BootState T V} {l : BootLabel T V}
    (h : bootStep T s l = some (.ok s')) : BootStep s l s' := by
  cases l with
  | main p =>
    obtain ⟨t, ht, heq⟩ := Option.map_eq_some_iff.mp h
    cases heq
    unfold BootState.stepMain at ht
    split at ht
    · next d hm => cases ht; exact .createProp hm
    · next d hm =>
      split at ht
      · next hs => cases ht; exact .waitProp hm hs
      · cases ht
    · next d hm => cases ht; exact .createRecv hm
    · next left hm =>
      split at ht
      · next hs => cases ht; exact .semWait hm hs
      · cases ht
    · next hm => cases ht; exact .returns hm
    · cases ht
  | prop a =>
    simp only [bootStep, BootState.stepProp] at h
    split at h
    · cases h
    · cases h
    · next hp => cases h; exact .propSetup hp
    · next hp =>
      split at h
      · cases h
      · next rest hq => cases h; exact .propInit hp hq
      · cases h
    · next hp =>
      split at h
      · next hd => cases h; exact .propRun hp hd
      · cases h
  | recv a =>
    simp only [bootStep, BootState.stepRecv] at h
    split at h
    · cases h
    · cases h
    · next hr =>
      split at h
      · next hb => cases h; exact .recvSetup hr hb
      · cases h
    · next hr =>
      split at h
      · next hd => cases h; exact .recvRun hr hd
      · cases h
  | hs r l =>
    simp only [bootStep, BootState.stepHs] at h
    split at h
    · next hne =>
      split at h
      · split at h
        · cases h
        · cases h
        · next t ht => cases h; exact .hs hne ht
      · cases h
    · cases h

end cases

/-! ## 不変量 -/

/-- `Start` を呼んだ thread がどこまで進んだか。 -/
def MainPc.rank : MainPc → Nat
  | .createProp .horizontal => 0
  | .waitProp .horizontal => 1
  | .createRecv .horizontal => 2
  | .createProp .vertical => 3
  | .waitProp .vertical => 4
  | .createRecv .vertical => 5
  | .semWait _ => 6
  | .returned => 7

/-- その方向の propagator を作る直前の位置。 -/
def Direction.base : Direction → Nat
  | .horizontal => 0
  | .vertical => 3

/-- まだ待つ `sem_wait(&sync_sem)` の回数。 -/
def MainPc.toWait : MainPc → Nat
  | .semWait left => left
  | .returned => 0
  | _ => 4

/-- `EPRInit` を読んだか。 -/
def PropStage.greeted : PropStage → Bool
  | .handshake | .run => true
  | _ => false

def PropStage.isRun : PropStage → Bool
  | .run => true
  | _ => false

@[simp] theorem PropStage.isRun_run : PropStage.run.isRun = true := rfl

def RecvStage.isRun : RecvStage → Bool
  | .run => true
  | _ => false

@[simp] theorem RecvStage.isRun_run : RecvStage.run.isRun = true := rfl

/-- logical node 一つについての不変量。 -/
structure SlotInv (main : MainPc) (d : Direction) (prop : PropStage) (recv : RecvStage) (sem : Nat)
    (q : List (PropagatorMsg V)) : Prop where
  propNew : prop = .notCreated ↔ main.rank ≤ d.base
  recvNew : recv = .notCreated ↔ main.rank ≤ d.base + 2
  /-- bind した propagator は `internal_sync_sem` を一度だけ上げている。 -/
  sem : sem + (decide (d.base + 1 < main.rank)).toNat = prop.bound.toNat
  greeted : prop.greeted = true → recv.bound = true
  initQ : q = if recv.bound && !prop.greeted then [.epRInit] else []

/-- RUN に入った thread の数。 -/
def running (prop : P × Direction → PropStage) (recv : P × Direction → RecvStage) (p : P) : Nat :=
  (prop (p, .horizontal)).isRun.toNat + (recv (p, .horizontal)).isRun.toNat +
    (prop (p, .vertical)).isRun.toNat + (recv (p, .vertical)).isRun.toNat

section inv

variable [DecidableEq P]

structure BootInv (s : BootState T V) : Prop where
  slot : ∀ a, SlotInv (s.main a.1) a.2 (s.prop a) (s.recv a) (s.internalSem a) (s.initQ a)
  /-- RUN に入った thread は `sync_sem` を一度ずつ上げている。 -/
  sync : ∀ p, s.syncSem p + 4 = running s.prop s.recv p + (s.main p).toWait
  hs : ∀ r (h : T.upProps r ≠ []), HsInv (T.hsConfig r h) (s.hs r)
  /-- 上流の無い receiver は handshake をしない。 -/
  idle : ∀ r, T.upProps r = [] → s.hs r = HsState.start
  propRun : ∀ a, s.prop a = .run → s.propDone a = true
  recvRun : ∀ a, s.recv a = .run → s.recvDone a = true

end inv

/-! ## logical node 一つの一歩 -/

namespace SlotInv

variable {main main' : MainPc} {d d' : Direction} {prop : PropStage} {recv : RecvStage} {sem : Nat}
  {q : List (PropagatorMsg V)}

/-- この logical node に関わらない所を進む。 -/
theorem congr_main (h : SlotInv main d prop recv sem q)
    (h1 : main'.rank ≤ d.base ↔ main.rank ≤ d.base)
    (h2 : main'.rank ≤ d.base + 2 ↔ main.rank ≤ d.base + 2)
    (h3 : d.base + 1 < main'.rank ↔ d.base + 1 < main.rank) : SlotInv main' d prop recv sem q where
  propNew := h.propNew.trans h1.symm
  recvNew := h.recvNew.trans h2.symm
  sem := by rw [← h.sem, decide_eq_decide.mpr h3]
  greeted := h.greeted
  initQ := h.initQ

/-- propagator はまだ無い。 -/
theorem prop_new (h : SlotInv (.createProp d) d prop recv sem q) : prop = .notCreated :=
  h.propNew.mpr (by cases d <;> decide)

/-- receiver はまだ無い。 -/
theorem recv_new (h : SlotInv (.createRecv d) d prop recv sem q) : recv = .notCreated :=
  h.recvNew.mpr (by cases d <;> decide)

theorem createProp (h : SlotInv (.createProp d) d prop recv sem q) :
    SlotInv (.waitProp d) d .setup recv sem q := by
  have hprop := h.prop_new
  have hrecv : recv = .notCreated := h.recvNew.mpr (by cases d <;> decide)
  have hsem := h.sem
  have hq := h.initQ
  subst hprop hrecv
  refine ⟨?_, ?_, ?_, by rintro ⟨⟩, ?_⟩
  · cases d <;> simp [MainPc.rank, Direction.base]
  · cases d <;> simp [MainPc.rank, Direction.base]
  · cases d <;> simpa [MainPc.rank, Direction.base, PropStage.bound] using hsem
  · simpa [RecvStage.bound] using hq

theorem waitProp (h : SlotInv (.waitProp d) d prop recv sem q) (hs : 0 < sem) :
    SlotInv (.createRecv d) d prop recv (sem - 1) q := by
  have hsem := h.sem
  refine ⟨h.propNew.trans ?_, h.recvNew.trans ?_, ?_, h.greeted, h.initQ⟩
  · cases d <;> simp [MainPc.rank, Direction.base]
  · cases d <;> simp [MainPc.rank, Direction.base]
  · cases d <;> simp [MainPc.rank, Direction.base] at hsem ⊢ <;> omega

/-- receiver を作る時には、paired propagator は bind を済ませている。 -/
theorem createRecv (h : SlotInv (.createRecv d) d prop recv sem q) :
    SlotInv (.afterRecv d) d prop .setup sem q := by
  have hrecv := h.recv_new
  have hsem := h.sem
  have hq := h.initQ
  have hgreet := h.greeted
  subst hrecv
  refine ⟨h.propNew.trans ?_, ?_, ?_, hgreet, hq⟩
  · cases d <;> simp [MainPc.afterRecv, MainPc.rank, Direction.base]
  · cases d <;> simp [MainPc.afterRecv, MainPc.rank, Direction.base]
  · rw [← hsem]
    cases d <;> simp [MainPc.afterRecv, MainPc.rank, Direction.base]

/-- 作られた receiver の paired propagator は bind を済ませている。 -/
theorem bound_of_recv (h : SlotInv main d prop recv sem q) (hr : recv ≠ .notCreated) :
    prop.bound = true := by
  have hlt : d.base + 2 < main.rank := not_le.mp fun hle => hr (h.recvNew.mpr hle)
  have hsem := h.sem
  rw [decide_eq_true (by omega)] at hsem
  cases hb : prop.bound with
  | true => rfl
  | false => simp [hb] at hsem

theorem propSetup (h : SlotInv main d .setup recv sem q) :
    SlotInv main d .waitInit recv (sem + 1) q where
  propNew := by simpa using h.propNew
  recvNew := h.recvNew
  sem := by
    have hsem := h.sem
    simp only [PropStage.bound, Bool.toNat_false, Bool.toNat_true] at hsem ⊢
    omega
  greeted := by rintro ⟨⟩
  initQ := h.initQ

theorem propInit {rest : List (PropagatorMsg V)}
    (h : SlotInv main d .waitInit recv sem (.epRInit :: rest)) :
    SlotInv main d .handshake recv sem rest := by
  have hq := h.initQ
  split at hq
  · next hb =>
    refine ⟨by simpa using h.propNew, h.recvNew, h.sem, fun _ => (Bool.and_eq_true_iff.mp hb).1, ?_⟩
    rw [(List.cons.inj hq).2]
    simp [PropStage.greeted]
  · cases hq

theorem propRun (h : SlotInv main d .handshake recv sem q) : SlotInv main d .run recv sem q :=
  ⟨by simpa using h.propNew, h.recvNew, h.sem, h.greeted, h.initQ⟩

theorem recvSetup (h : SlotInv main d prop .setup sem q) :
    SlotInv main d prop .handshake sem (q ++ [.epRInit]) := by
  have hg : prop.greeted = false := by
    cases hg : prop.greeted with
    | false => rfl
    | true => exact absurd (h.greeted hg) (by decide)
  refine ⟨h.propNew, by simpa using h.recvNew, h.sem, fun _ => rfl, ?_⟩
  rw [h.initQ]
  simp [RecvStage.bound, hg]

theorem recvRun (h : SlotInv main d prop .handshake sem q) : SlotInv main d prop .run sem q :=
  ⟨h.propNew, by simpa using h.recvNew, h.sem, h.greeted, h.initQ⟩

end SlotInv

/-! ## 不変量は保たれる -/

section step

variable [DecidableEq P] {s s' : BootState T V} {l : BootLabel T V}

/-- `Start` を呼んだ thread の一歩は、同じ process の二つの logical node に関わる。 -/
theorem BootInv.slot_main (hi : BootInv s) {p : P} {pc : MainPc}
    {prop : P × Direction → PropStage} {recv : P × Direction → RecvStage} {sem : P × Direction → Nat}
    (hoff : ∀ a, a.1 ≠ p → prop a = s.prop a ∧ recv a = s.recv a ∧ sem a = s.internalSem a)
    (hon : ∀ d, SlotInv pc d (prop (p, d)) (recv (p, d)) (sem (p, d)) (s.initQ (p, d)))
    (a : P × Direction) :
    SlotInv (Function.update s.main p pc a.1) a.2 (prop a) (recv a) (sem a) (s.initQ a) := by
  obtain ⟨q, d⟩ := a
  by_cases hq : q = p
  · subst hq
    rw [Function.update_self]
    exact hon d
  · obtain ⟨h1, h2, h3⟩ := hoff (q, d) hq
    rw [Function.update_of_ne hq, h1, h2, h3]
    exact hi.slot (q, d)

theorem update_pair_of_ne {β : Type} {f : P × Direction → β} {p : P} {d : Direction} {b : β}
    {a : P × Direction} (h : a.1 ≠ p) : Function.update f (p, d) b a = f a :=
  Function.update_of_ne (fun heq => h (congrArg Prod.fst heq)) ..

theorem update_pair_of_dir {β : Type} {f : P × Direction → β} {p : P} {d d' : Direction} {b : β}
    (h : d' ≠ d) : Function.update f (p, d) b (p, d') = f (p, d') :=
  Function.update_of_ne (fun heq => h (congrArg Prod.snd heq)) ..

/-- 書き込んだ値と違う値が読めたなら、それは元の値である。 -/
theorem of_update_eq {α β : Type} [DecidableEq α] {f : α → β} {b a : α} {x y : β} (hxy : x ≠ y)
    (h : Function.update f b x a = y) : f a = y := by
  by_cases heq : a = b
  · subst heq
    rw [Function.update_self] at h
    exact absurd h hxy
  · rwa [Function.update_of_ne heq] at h

theorem BootInv.slot_step (hi : BootInv s) (h : BootStep s l s') (a : P × Direction) :
    SlotInv (s'.main a.1) a.2 (s'.prop a) (s'.recv a) (s'.internalSem a) (s'.initQ a) := by
  cases h with
  | @createProp p d hm =>
    refine hi.slot_main (fun a ha => ⟨update_pair_of_ne ha, rfl, rfl⟩) (fun d' => ?_) a
    have hs := hi.slot (p, d')
    rw [hm] at hs
    by_cases hd : d' = d
    · subst hd
      rw [Function.update_self]
      exact hs.createProp
    · rw [update_pair_of_dir hd]
      refine hs.congr_main ?_ ?_ ?_ <;>
        cases d <;> cases d' <;> simp [MainPc.rank, Direction.base] at hd ⊢
  | @waitProp p d hm hpos =>
    refine hi.slot_main (fun a ha => ⟨rfl, rfl, update_pair_of_ne ha⟩) (fun d' => ?_) a
    have hs := hi.slot (p, d')
    rw [hm] at hs
    by_cases hd : d' = d
    · subst hd
      rw [Function.update_self]
      exact hs.waitProp hpos
    · rw [update_pair_of_dir hd]
      refine hs.congr_main ?_ ?_ ?_ <;>
        cases d <;> cases d' <;> simp [MainPc.rank, Direction.base] at hd ⊢
  | @createRecv p d hm =>
    refine hi.slot_main (fun a ha => ⟨rfl, update_pair_of_ne ha, rfl⟩) (fun d' => ?_) a
    have hs := hi.slot (p, d')
    rw [hm] at hs
    by_cases hd : d' = d
    · subst hd
      rw [Function.update_self]
      exact hs.createRecv
    · rw [update_pair_of_dir hd]
      refine hs.congr_main ?_ ?_ ?_ <;>
        cases d <;> cases d' <;> simp [MainPc.afterRecv, MainPc.rank, Direction.base] at hd ⊢
  | @semWait p left hm =>
    refine hi.slot_main (fun a _ => ⟨rfl, rfl, rfl⟩) (fun d => ?_) a
    have hs := hi.slot (p, d)
    rw [hm] at hs
    exact hs.congr_main Iff.rfl Iff.rfl Iff.rfl
  | @returns p hm =>
    refine hi.slot_main (fun a _ => ⟨rfl, rfl, rfl⟩) (fun d => ?_) a
    have hs := hi.slot (p, d)
    rw [hm] at hs
    refine hs.congr_main ?_ ?_ ?_ <;> cases d <;> simp [MainPc.rank, Direction.base]
  | @propSetup b hp =>
    have hs := hi.slot a
    by_cases ha : a = b
    · subst ha
      rw [hp] at hs
      simpa using hs.propSetup
    · simpa [Function.update_of_ne ha] using hs
  | @propInit b rest hp hq =>
    have hs := hi.slot a
    by_cases ha : a = b
    · subst ha
      rw [hp, hq] at hs
      simpa using hs.propInit
    · simpa [Function.update_of_ne ha] using hs
  | @propRun b hp =>
    have hs := hi.slot a
    by_cases ha : a = b
    · subst ha
      rw [hp] at hs
      simpa using hs.propRun
    · simpa [Function.update_of_ne ha] using hs
  | @recvSetup b hr =>
    have hs := hi.slot a
    by_cases ha : a = b
    · subst ha
      rw [hr] at hs
      simpa using hs.recvSetup
    · simpa [Function.update_of_ne ha] using hs
  | @recvRun b hr =>
    have hs := hi.slot a
    by_cases ha : a = b
    · subst ha
      rw [hr] at hs
      simpa using hs.recvRun
    · simpa [Function.update_of_ne ha] using hs
  | hs => exact hi.slot a

theorem toWait_update {main : P → MainPc} {q : P} {pc : MainPc} (h : pc.toWait = (main q).toWait)
    (p : P) : (Function.update main q pc p).toWait = (main p).toWait := by
  by_cases hq : p = q
  · subst hq
    rw [Function.update_self, h]
  · rw [Function.update_of_ne hq]

/-- RUN に入らない一歩では、RUN の thread の数は変わらない。 -/
theorem running_update_prop {prop : P × Direction → PropStage} {recv : P × Direction → RecvStage}
    {a : P × Direction} {x : PropStage} (hx : x.isRun = (prop a).isRun) (p : P) :
    running (Function.update prop a x) recv p = running prop recv p := by
  have hrun : ∀ b, (Function.update prop a x b).isRun = (prop b).isRun := by
    intro b
    by_cases hb : b = a
    · subst hb
      rw [Function.update_self, hx]
    · rw [Function.update_of_ne hb]
  simp only [running, hrun]

theorem running_update_recv {prop : P × Direction → PropStage} {recv : P × Direction → RecvStage}
    {a : P × Direction} {x : RecvStage} (hx : x.isRun = (recv a).isRun) (p : P) :
    running prop (Function.update recv a x) p = running prop recv p := by
  have hrun : ∀ b, (Function.update recv a x b).isRun = (recv b).isRun := by
    intro b
    by_cases hb : b = a
    · subst hb
      rw [Function.update_self, hx]
    · rw [Function.update_of_ne hb]
  simp only [running, hrun]

/-- thread が RUN に入ると、数と `sync_sem` がともに一つ増える。 -/
theorem running_prop_run {prop : P × Direction → PropStage} (recv : P × Direction → RecvStage)
    {a : P × Direction} (ha : (prop a).isRun = false) :
    running (Function.update prop a .run) recv a.1 = running prop recv a.1 + 1 := by
  obtain ⟨p, d⟩ := a
  have hother : ∀ d', d' ≠ d → Function.update prop (p, d) .run (p, d') = prop (p, d') :=
    fun _ h => update_pair_of_dir h
  cases d with
  | horizontal =>
    simp only [running, Function.update_self, hother .vertical (by decide), ha, PropStage.isRun_run,
      Bool.toNat_true, Bool.toNat_false]
    omega
  | vertical =>
    simp only [running, Function.update_self, hother .horizontal (by decide), ha, PropStage.isRun_run,
      Bool.toNat_true, Bool.toNat_false]
    omega

theorem running_recv_run (prop : P × Direction → PropStage) {recv : P × Direction → RecvStage}
    {a : P × Direction} (ha : (recv a).isRun = false) :
    running prop (Function.update recv a .run) a.1 = running prop recv a.1 + 1 := by
  obtain ⟨p, d⟩ := a
  have hother : ∀ d', d' ≠ d → Function.update recv (p, d) .run (p, d') = recv (p, d') :=
    fun _ h => update_pair_of_dir h
  cases d with
  | horizontal =>
    simp only [running, Function.update_self, hother .vertical (by decide), ha, RecvStage.isRun_run,
      Bool.toNat_true, Bool.toNat_false]
    omega
  | vertical =>
    simp only [running, Function.update_self, hother .horizontal (by decide), ha, RecvStage.isRun_run,
      Bool.toNat_true, Bool.toNat_false]

omit [DecidableEq P] in
theorem running_of_ne {prop prop' : P × Direction → PropStage} {recv recv' : P × Direction → RecvStage}
    {p : P} (hp : ∀ d, prop' (p, d) = prop (p, d)) (hr : ∀ d, recv' (p, d) = recv (p, d)) :
    running prop' recv' p = running prop recv p := by
  simp only [running, hp, hr]

theorem BootInv.sync_step (hi : BootInv s) (h : BootStep s l s') (p : P) :
    s'.syncSem p + 4 = running s'.prop s'.recv p + (s'.main p).toWait := by
  have hs := hi.sync p
  cases h with
  | @createProp q d hm =>
    have hslot := hi.slot (q, d)
    rw [hm] at hslot
    have hx : PropStage.setup.isRun = (s.prop (q, d)).isRun := by rw [hslot.prop_new]; rfl
    have hw : (MainPc.waitProp d).toWait = (s.main q).toWait := by rw [hm]; rfl
    simpa only [running_update_prop hx, toWait_update hw] using hs
  | @waitProp q d hm =>
    have hw : (MainPc.createRecv d).toWait = (s.main q).toWait := by rw [hm]; rfl
    simpa only [toWait_update hw] using hs
  | @createRecv q d hm =>
    have hslot := hi.slot (q, d)
    rw [hm] at hslot
    have hx : RecvStage.setup.isRun = (s.recv (q, d)).isRun := by rw [hslot.recv_new]; rfl
    have hw : (MainPc.afterRecv d).toWait = (s.main q).toWait := by rw [hm]; cases d <;> rfl
    simpa only [running_update_recv hx, toWait_update hw] using hs
  | @semWait q left hm hpos =>
    by_cases hq : p = q
    · subst hq
      rw [hm] at hs
      simp only [Function.update_self, MainPc.toWait] at hs ⊢
      omega
    · simpa only [Function.update_of_ne hq] using hs
  | @returns q hm =>
    have hw : MainPc.returned.toWait = (s.main q).toWait := by rw [hm]; rfl
    simpa only [toWait_update hw] using hs
  | @propSetup a hp =>
    have hx : PropStage.waitInit.isRun = (s.prop a).isRun := by rw [hp]; rfl
    simpa only [running_update_prop hx] using hs
  | @propInit a rest hp =>
    have hx : PropStage.handshake.isRun = (s.prop a).isRun := by rw [hp]; rfl
    simpa only [running_update_prop hx] using hs
  | @propRun a hp =>
    by_cases hq : p = a.1
    · subst hq
      have hnot : (s.prop a).isRun = false := by rw [hp]; rfl
      have hrun := running_prop_run s.recv hnot
      simp only [Function.update_self, hrun]
      omega
    · have hrun : running (Function.update s.prop a .run) s.recv p = running s.prop s.recv p :=
        running_of_ne (fun d => Function.update_of_ne (fun h => hq (congrArg Prod.fst h)) ..)
          fun _ => rfl
      simpa only [Function.update_of_ne hq, hrun] using hs
  | @recvSetup a hr =>
    have hx : RecvStage.handshake.isRun = (s.recv a).isRun := by rw [hr]; rfl
    simpa only [running_update_recv hx] using hs
  | @recvRun a hr =>
    by_cases hq : p = a.1
    · subst hq
      have hnot : (s.recv a).isRun = false := by rw [hr]; rfl
      have hrun := running_recv_run s.prop hnot
      simp only [Function.update_self, hrun]
      omega
    · have hrun : running s.prop (Function.update s.recv a .run) p = running s.prop s.recv p :=
        running_of_ne (fun _ => rfl)
          fun d => Function.update_of_ne (fun h => hq (congrArg Prod.fst h)) ..
      simpa only [Function.update_of_ne hq, hrun] using hs
  | hs => exact hs

/-- main loop に入った propagator は、handshake に戻らない。 -/
theorem hsStep_prop_run {ι : Type} [DecidableEq ι] {c : HsConfig ι} {t t' : HsState ι V}
    {k : HsLabel ι V} (h : hsStep c t k = some (.ok t')) {i : ι} (hpc : t.propPc i = .run) :
    t'.propPc i = .run := by
  have hupd : ∀ {j : ι} {pc : HsPropPc}, (j = i → pc = .run) →
      Function.update t.propPc j pc i = .run := by
    intro j pc hj
    by_cases hji : i = j
    · subst hji
      rw [Function.update_self]
      exact hj rfl
    · rw [Function.update_of_ne hji]
      exact hpc
  cases hsStep_ok h with
  | @sendInit j hj => exact hupd fun hji => by subst hji; rw [hpc] at hj; cases hj
  | @sendAckAck j hj => exact hupd fun hji => by subst hji; rw [hpc] at hj; cases hj
  | @recvSub j msg rest pc _ hj =>
    refine hupd fun hji => ?_
    subst hji
    rw [hpc, HsPropPc.onSub] at hj
    split at hj
    · cases hj
    · cases hj; rfl
  | _ => exact hpc

omit [DecidableEq P] in
/-- `propDone` は handshake の側だけで決まる。 -/
theorem BootState.propDone_iff {a : P × Direction} :
    s.propDone a = true ↔ ∀ r (h : T.down a = some r), (s.hs r).propPc ⟨a, h⟩ = .run := by
  unfold BootState.propDone
  split
  · next hd => simp [hd]
  · next r hd =>
    rw [decide_eq_true_iff]
    constructor
    · intro h r' hr'
      obtain rfl := Option.some.inj (hd.symm.trans hr')
      exact h
    · intro h
      exact h r hd

theorem BootState.recvDone_iff {a : P × Direction} :
    s.recvDone a = true ↔ (T.upProps a ≠ [] → (s.hs a).recvPc = .run) := by
  simp [BootState.recvDone, or_iff_not_imp_left]

theorem BootInv.propDone_hs {r : P × Direction} {k : HsLabel (T.Up r) V} {t : HsState (T.Up r) V}
    {hne : T.upProps r ≠ []} (h : hsStep (T.hsConfig r hne) (s.hs r) k = some (.ok t))
    {a : P × Direction} (hd : s.propDone a = true) :
    BootState.propDone { s with hs := Function.update s.hs r t } a = true := by
  rw [BootState.propDone_iff] at hd ⊢
  intro r' hr'
  have hpc := hd r' hr'
  by_cases heq : r' = r
  · subst heq
    simp only [Function.update_self]
    exact hsStep_prop_run h hpc
  · simp only [Function.update_of_ne heq]
    exact hpc

theorem BootInv.recvDone_hs {r : P × Direction} {k : HsLabel (T.Up r) V} {t : HsState (T.Up r) V}
    {hne : T.upProps r ≠ []} (h : hsStep (T.hsConfig r hne) (s.hs r) k = some (.ok t))
    {a : P × Direction} (hd : s.recvDone a = true) :
    BootState.recvDone { s with hs := Function.update s.hs r t } a = true := by
  rw [BootState.recvDone_iff] at hd ⊢
  intro hup
  have hpc := hd hup
  by_cases heq : a = r
  · subst heq
    simp only [Function.update_self]
    exact (published_after_run hpc (Lts.Reachable.init.step h)).1
  · simp only [Function.update_of_ne heq]
    exact hpc

theorem BootInv.step (hi : BootInv s) (h : BootStep s l s') : BootInv s' where
  slot := hi.slot_step h
  sync := hi.sync_step h
  hs := by
    intro r hne
    cases h with
    | @hs r' k t hne' hk =>
      by_cases heq : r = r'
      · subst heq
        simp only [Function.update_self]
        exact (hi.hs r hne).step (hsStep_ok hk)
      · simp only [Function.update_of_ne heq]
        exact hi.hs r hne
    | _ => exact hi.hs r hne
  idle := by
    intro r hnil
    cases h with
    | @hs r' k t hne' hk =>
      by_cases heq : r = r'
      · subst heq; exact absurd hnil hne'
      · simp only [Function.update_of_ne heq]
        exact hi.idle r hnil
    | _ => exact hi.idle r hnil
  propRun := by
    intro a hp
    cases h with
    | @hs r' k t hne' hk => exact BootInv.propDone_hs hk (hi.propRun a hp)
    | @createProp p d | @propSetup b | @propInit b =>
      exact hi.propRun a (of_update_eq (by rintro ⟨⟩) hp)
    | @propRun b hb hd =>
      by_cases heq : a = b
      · subst heq; exact hd
      · simp only [Function.update_of_ne heq] at hp
        exact hi.propRun a hp
    | _ => exact hi.propRun a hp
  recvRun := by
    intro a hr
    cases h with
    | @hs r' k t hne' hk => exact BootInv.recvDone_hs hk (hi.recvRun a hr)
    | @createRecv p d | @recvSetup b =>
      exact hi.recvRun a (of_update_eq (by rintro ⟨⟩) hr)
    | @recvRun b hb hd =>
      by_cases heq : a = b
      · subst heq; exact hd
      · simp only [Function.update_of_ne heq] at hr
        exact hi.recvRun a hr
    | _ => exact hi.recvRun a hr

theorem BootInv.start : BootInv (BootState.start : BootState T V) where
  slot := by
    rintro ⟨p, d⟩
    refine ⟨?_, ?_, ?_, by rintro ⟨⟩, rfl⟩
    · cases d <;> simp [BootState.start, MainPc.rank, Direction.base]
    · cases d <;> simp [BootState.start, MainPc.rank, Direction.base]
    · cases d <;> simp [BootState.start, MainPc.rank, Direction.base, PropStage.bound]
  sync := by
    intro p
    simp [BootState.start, running, MainPc.toWait, PropStage.isRun, RecvStage.isRun]
  hs := fun _ _ => HsInv.start
  idle := fun _ _ => rfl
  propRun := by rintro a ⟨⟩
  recvRun := by rintro a ⟨⟩

theorem BootReachable.inv (h : BootReachable T s) : BootInv s :=
  Lts.Reachable.invariant BootInv.start (fun _ _ _ _ hs hi => hi.step (bootStep_ok hs)) h

/-! ## 安全性 -/

theorem upProps_ne_nil {a r : P × Direction} (h : T.down a = some r) : T.upProps r ≠ [] := by
  intro hnil
  have hmem := T.mem_upProps r ⟨a, h⟩
  rw [hnil] at hmem
  cases hmem

/-- `EPRInit` を待つ propagator に届くのは `EPRInit` だけである。 -/
theorem BootInv.init_head (hi : BootInv s) {a : P × Direction} {m : PropagatorMsg V}
    {rest : List (PropagatorMsg V)} (hq : s.initQ a = m :: rest) : m = .epRInit := by
  have h := (hi.slot a).initQ
  rw [hq] at h
  split at h
  · exact (List.cons.inj h).1
  · cases h

theorem BootInv.no_fault (hi : BootInv s) (l : BootLabel T V) (e : BootFault) :
    bootStep T s l ≠ some (.error e) := by
  intro h
  cases l with
  | main p =>
    obtain ⟨t, -, heq⟩ := Option.map_eq_some_iff.mp h
    cases heq
  | prop a =>
    simp only [bootStep, BootState.stepProp] at h
    split at h
    · cases h
    · cases h
    · cases h
    · split at h
      · cases h
      · cases h
      · next m rest hne hq => exact hne (hi.init_head hq)
    · split at h <;> cases h
  | recv a =>
    simp only [bootStep, BootState.stepRecv] at h
    split at h
    · cases h
    · cases h
    · next hr =>
      rw [if_pos ((hi.slot a).bound_of_recv (by rw [hr]; rintro ⟨⟩))] at h
      cases h
    · split at h <;> cases h
  | hs r k =>
    simp only [bootStep, BootState.stepHs] at h
    split at h
    · next hne =>
      split at h
      · split at h
        · cases h
        · next e' hk => exact (hi.hs r hne).no_fault k e' hk
        · cases h
      · cases h
    · cases h

/-- `Start` が戻ったなら、四つの thread は全て RUN である。 -/
theorem BootInv.all_run (hi : BootInv s) {p : P} (hm : s.main p = .returned) (d : Direction) :
    s.prop (p, d) = .run ∧ s.recv (p, d) = .run := by
  have hs := hi.sync p
  rw [hm] at hs
  simp only [running, MainPc.toWait] at hs
  have hle : ∀ b : Bool, b.toNat ≤ 1 := fun b => by cases b <;> decide
  have h1 := hle (s.prop (p, .horizontal)).isRun
  have h2 := hle (s.recv (p, .horizontal)).isRun
  have h3 := hle (s.prop (p, .vertical)).isRun
  have h4 := hle (s.recv (p, .vertical)).isRun
  have hprop : ∀ x : PropStage, x.isRun.toNat = 1 → x = .run := by
    intro x hx
    cases x <;> simp [PropStage.isRun] at hx ⊢
  have hrecv : ∀ x : RecvStage, x.isRun.toNat = 1 → x = .run := by
    intro x hx
    cases x <;> simp [RecvStage.isRun] at hx ⊢
  cases d with
  | horizontal => exact ⟨hprop _ (by omega), hrecv _ (by omega)⟩
  | vertical => exact ⟨hprop _ (by omega), hrecv _ (by omega)⟩

/-- RUN の receiver は、上流の propagator をちょうど全員知っている。 -/
theorem BootInv.peers_run (hi : BootInv s) {r : P × Direction} (hr : s.recv r = .run) (id : NodeId) :
    id ∈ (s.hs r).peers ↔ ∃ u, T.down u = some r ∧ T.id u = id := by
  by_cases hup : T.upProps r = []
  · rw [hi.idle r hup]
    constructor
    · rintro ⟨⟩
    · rintro ⟨u, hu, -⟩
      exact absurd hup (upProps_ne_nil hu)
  · have hrun := BootState.recvDone_iff.mp (hi.recvRun r hr) hup
    have hinv := hi.hs r hup
    rw [hinv.peers id]
    constructor
    · rintro ⟨u, hid, -⟩
      exact ⟨u.1, u.2, hid⟩
    · rintro ⟨u, hu, hid⟩
      refine ⟨⟨u, hu⟩, hid, fun hnil => ?_⟩
      have htwo := hinv.all_acked (Or.inr hrun) ⟨u, hu⟩
      rw [hnil] at htwo
      cases htwo

/--
**起動は安全である。** 着けるどの状態でも、

* どの `CHECK` も落ちず、bind していない endpoint への `connect` も無い
* `Start` が戻った process では、四つの thread が全て RUN である
* RUN の propagator の下流の receiver は、既に main loop に入る所まで進んでいる
* RUN の receiver は、上流の propagator をちょうど全員知っている
-/
theorem startup_safe (h : BootReachable T s) :
    (∀ l e, bootStep T s l ≠ some (.error e)) ∧
    (∀ p, s.main p = .returned → ∀ d, s.prop (p, d) = .run ∧ s.recv (p, d) = .run) ∧
    (∀ a r, T.down a = some r → s.prop a = .run → (s.hs r).recvPc = .run) ∧
    (∀ r, s.recv r = .run → ∀ id, id ∈ (s.hs r).peers ↔ ∃ u, T.down u = some r ∧ T.id u = id) := by
  have hi := BootReachable.inv h
  refine ⟨hi.no_fault, fun p => hi.all_run, fun a r hd hp => ?_, fun r => hi.peers_run⟩
  have hpc := BootState.propDone_iff.mp (hi.propRun a hp) r hd
  exact (hi.hs r (upProps_ne_nil hd)).recv_run hpc

/-! ## 二つの process の輪 -/

/-- 二つの process の horizontal が輪になり、vertical は孤立している。 -/
def bootRing : Topology (Bool × Direction) where
  nodes := [(false, .horizontal), (true, .horizontal), (false, .vertical), (true, .vertical)]
  nodes_nodup := by decide
  mem_nodes := by rintro ⟨p, d⟩; cases p <;> cases d <;> decide
  id := fun a => (if a.1 then 1 else 0) + if a.2 = .vertical then 2 else 0
  id_nonneg := by rintro ⟨p, d⟩; cases p <;> cases d <;> decide
  id_injective := by
    rintro ⟨p, d⟩ ⟨p', d'⟩ h
    revert h
    cases p <;> cases d <;> cases p' <;> cases d' <;> decide
  down := fun a => if a.2 = .horizontal then some (!a.1, .horizontal) else none

/-- 上流の propagator。 -/
def ringUp (p : Bool) : bootRing.Up (p, .horizontal) :=
  ⟨(!p, .horizontal), by cases p <;> rfl⟩

/-- 四つの thread を作り、`EPRInit` をやりとりするまで。 -/
def createThreads (a : Bool × Direction) : List (BootLabel bootRing (BitVec 32)) :=
  [.main a.1, .prop a, .main a.1, .main a.1, .recv a, .prop a]

/-- 一つの輪の handshake。 -/
def greet (p : Bool) : List (BootLabel bootRing (BitVec 32)) :=
  [.hs (p, .horizontal) (.subscribe (ringUp p)), .hs (p, .horizontal) (.send (ringUp p)),
    .hs (p, .horizontal) (.recvPush (ringUp p)), .hs (p, .horizontal) .publish,
    .hs (p, .horizontal) (.recvSub (ringUp p)), .hs (p, .horizontal) (.send (ringUp p)),
    .hs (p, .horizontal) (.recvPush (ringUp p)), .hs (p, .horizontal) .publish,
    .hs (p, .horizontal) (.recvSub (ringUp p))]

def bootLabels : List (BootLabel bootRing (BitVec 32)) :=
  bootRing.nodes.flatMap createThreads ++ [false, true].flatMap greet ++
    bootRing.nodes.flatMap (fun a => [.prop a, .recv a]) ++
    [false, true].flatMap fun p => List.replicate 5 (.main p)

/-- 輪の二つの process が起動し終わった状態で、`startup_safe` を使う。 -/
theorem startup_safe_bootRing : ∃ s : BootState bootRing (BitVec 32), BootReachable bootRing s ∧
    (∀ p, s.main p = .returned) ∧ (∀ p d, s.prop (p, d) = .run ∧ s.recv (p, d) = .run) ∧
    ∀ id, id ∈ (s.hs (false, .horizontal)).peers ↔ ∃ u, bootRing.down u = some (false, .horizontal) ∧
      bootRing.id u = id := by
  obtain ⟨s, hr, hret⟩ : ∃ s : BootState bootRing (BitVec 32), BootReachable bootRing s ∧
      ∀ p, s.main p = .returned :=
    Lts.Reachable.exists_of_run bootLabels (by decide +kernel)
  obtain ⟨-, hall, -, hpeers⟩ := startup_safe hr
  exact ⟨s, hr, hret, fun p => hall p (hret p), hpeers _ (hall false (hret false) .horizontal).2⟩

end step

end QuiltDB
