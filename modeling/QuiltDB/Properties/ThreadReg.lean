import QuiltDB.Comm.ThreadReg

/-!
# 登録は全部か無か

`RegisterThr` と `DeregisterThr` の列で、失敗した呼び出しが何も残さないための条件を調べる。

* `PropHandle.thrView_registerThr` など — 例外が起きなければ `Comm/Lifecycle.lean` のモデルと一致する
* `registration_all_or_nothing_iff` — どの失敗も何も残さず、`Inc` が繋がった socket でだけ送るのは、
  socket を持たない thread の `RegisterThr` が、最初の socket を作る所でしか失敗しない時に限る
-/

namespace QuiltDB

/-! ## 例外の無いモデルとの対応 -/

section view

variable {V : Type} {p : PropHandle V} {thr : Nat}

/-- 番号 `thr` の thread から見た propagator。 -/
def PropHandle.thrView (p : PropHandle V) (thr : Nat) : ThrHandle where
  state := p.state
  updatePushSock := if thr ∈ p.updatePushSock then .connected else .null

/-- 番号 `thr` の thread から見た `QuiltDB`。 -/
def Db.thrView (db : Db V) (thr : Nat) : ThrReg where
  hpropagator := (db.prop .horizontal).thrView thr
  vpropagator := (db.prop .vertical).thrView thr

theorem PropHandle.thrView_sock_of_mem (h : thr ∈ p.updatePushSock) :
    (p.thrView thr).updatePushSock = .connected := if_pos h

theorem PropHandle.thrView_sock_of_not_mem (h : thr ∉ p.updatePushSock) :
    (p.thrView thr).updatePushSock = .null := if_neg h

theorem PropHandle.thrView_registerThr (p : PropHandle V) (thr : Nat) :
    (p.thrView thr).registerThr .quiet =
      (p.registerThr thr).elim (-1, p.thrView thr) fun p' => (0, p'.thrView thr) := by
  unfold ThrHandle.registerThr PropHandle.registerThr
  by_cases hrun : p.state = .run
  · rw [if_neg (show ¬(p.thrView thr).state ≠ .run from not_not.mpr hrun),
      if_neg (not_not.mpr hrun)]
    by_cases hmem : thr ∈ p.updatePushSock
    · rw [thrView_sock_of_mem hmem, if_pos (by decide), if_pos hmem]
      rfl
    · rw [thrView_sock_of_not_mem hmem, if_neg (by decide), if_neg hmem]
      show ((0 : Int), ThrHandle.mk p.state .connected) = (0, PropHandle.thrView _ thr)
      rw [PropHandle.thrView, if_pos List.mem_cons_self]
  · rw [if_pos (show (p.thrView thr).state ≠ .run from hrun), if_pos hrun]
    rfl

theorem PropHandle.thrView_deregisterThr (hnd : p.updatePushSock.Nodup) (thr : Nat) :
    (p.thrView thr).deregisterThr =
      (p.deregisterThr thr).elim (-1, p.thrView thr) fun p' => (0, p'.thrView thr) := by
  unfold ThrHandle.deregisterThr PropHandle.deregisterThr
  by_cases hinit : p.state = .init
  · rw [if_pos (show (p.thrView thr).state = .init from hinit), if_pos hinit]
    rfl
  · rw [if_neg (show ¬(p.thrView thr).state = .init from hinit), if_neg hinit]
    by_cases hmem : thr ∈ p.updatePushSock
    · rw [thrView_sock_of_mem hmem, if_neg (by decide), if_neg (not_not.mpr hmem)]
      show ((0 : Int), ThrHandle.mk p.state .null) = (0, PropHandle.thrView _ thr)
      rw [PropHandle.thrView, if_neg fun h => (hnd.mem_erase_iff.mp h).1 rfl]
    · rw [thrView_sock_of_not_mem hmem, if_pos rfl, if_pos hmem]
      rfl

/-- `Inc` が送るかどうかも、例外の無いモデルと一致する。 -/
theorem PropHandle.thrView_incSock (p : PropHandle V) (thr : Nat) (t : TableId) (key : Int32)
    (delta : V) : (p.thrView thr).incSock.isSome = (p.inc thr t key delta).isSome := by
  unfold ThrHandle.incSock PropHandle.inc
  by_cases hrun : p.state = .run
  · rw [if_neg (show ¬(p.thrView thr).state ≠ .run from not_not.mpr hrun),
      if_neg (not_not.mpr hrun)]
    by_cases hmem : thr ∈ p.updatePushSock
    · rw [thrView_sock_of_mem hmem, if_neg (by decide), if_neg (not_not.mpr hmem)]
      rfl
    · rw [thrView_sock_of_not_mem hmem, if_pos rfl, if_pos hmem]
      rfl
  · rw [if_pos (show (p.thrView thr).state ≠ .run from hrun), if_pos hrun]
    rfl

/-- 例外が起きなければ、`QuiltDB::RegisterThr` は `Comm/Lifecycle.lean` のとおりである。 -/
theorem Db.thrView_registerThr [Zero V] (db : Db V) (thr : Nat) :
    (db.thrView thr).registerThr .quiet .quiet =
      ((db.registerThr thr).2, (db.registerThr thr).1.thrView thr) := by
  unfold ThrReg.registerThr Db.registerThr
  rw [show (db.thrView thr).hpropagator = (db.prop .horizontal).thrView thr from rfl,
    PropHandle.thrView_registerThr]
  cases (db.prop .horizontal).registerThr thr with
  | none => rfl
  | some h =>
    show (if ((db.thrView thr).vpropagator.registerThr .quiet).1 < 0 then _ else _) = _
    rw [show (db.thrView thr).vpropagator = (db.prop .vertical).thrView thr from rfl,
      PropHandle.thrView_registerThr]
    dsimp only
    rw [Function.update_of_ne (show Direction.vertical ≠ .horizontal by decide)]
    cases (db.prop .vertical).registerThr thr with
    | none => rfl
    | some v => rfl

end view

/-! ## 失敗の残すもの -/

namespace ThrReg

/-- `-1` を返す呼び出しが、二つの登録を変えない。 -/
def Atomic (r : ThrReg) (c : RegCall) : Prop := (r.call c).1 = -1 → (r.call c).2 = r

instance (r : ThrReg) (c : RegCall) : Decidable (r.Atomic c) :=
  inferInstanceAs (Decidable ((r.call c).1 = -1 → (r.call c).2 = r))

/-- `Inc` が送るのは、繋がった socket を持っている時に限る。 -/
structure SendsConnected (r : ThrReg) : Prop where
  horizontal : ∀ s, r.hpropagator.incSock = some s → s = .connected
  vertical : ∀ s, r.vpropagator.incSock = some s → s = .connected

/-- `r` から順に呼ぶ間、どの失敗も何も残さず、`Inc` は繋がった socket でだけ送る。 -/
def AllOrNothing (r : ThrReg) : List RegCall → Prop
  | [] => r.SendsConnected
  | c :: calls => r.SendsConnected ∧ r.Atomic c ∧ (r.call c).2.AllOrNothing calls

/--
呼び出し `c` の失敗の起き方が害にならない。

horizontal の socket を持たない thread の `RegisterThr` は、その socket を作る所で失敗するか、
残りのどこでも失敗しない。
-/
def cleanAt (r : ThrReg) : RegCall → Bool
  | .registerThr h v =>
    r.hpropagator.updatePushSock != .null || h.create ||
      (!h.connect && !v.create && !v.connect)
  | .deregisterThr => true

/-- `r` から順に呼ぶ間、どの呼び出しの失敗の起き方も害にならない。 -/
def Clean (r : ThrReg) : List RegCall → Prop
  | [] => True
  | c :: calls => r.cleanAt c = true ∧ (r.call c).2.Clean calls

/-- 二つとも登録を終えた thread。 -/
def registered : ThrReg where
  hpropagator := { state := .run, updatePushSock := .connected }
  vpropagator := { state := .run, updatePushSock := .connected }

/-- 二つの登録が揃っている。 -/
def Even (r : ThrReg) : Prop := r = fresh ∨ r = registered

theorem Even.sendsConnected {r : ThrReg} (h : r.Even) : r.SendsConnected := by
  rcases h with rfl | rfl
  · exact ⟨by rintro _ ⟨⟩, by rintro _ ⟨⟩⟩
  · refine ⟨?_, ?_⟩ <;> rintro s ⟨⟩ <;> rfl

/-- 揃った状態からの呼び出しが何も残さないのは、失敗の起き方が害にならない時に限る。 -/
theorem Even.atomic_iff {r : ThrReg} (h : r.Even) (c : RegCall) :
    r.Atomic c ↔ r.cleanAt c = true := by
  rcases h with rfl | rfl
  · cases c with
    | registerThr h v =>
      obtain ⟨hcreate, hconnect⟩ := h
      obtain ⟨vcreate, vconnect⟩ := v
      revert hcreate hconnect vcreate vconnect
      decide
    | deregisterThr => decide
  · -- 登録を終えた thread の `RegisterThr` は、何も試みずに `-1` を返す
    cases c with
    | registerThr h v => exact iff_of_true (fun _ => rfl) rfl
    | deregisterThr => decide

/-- 害にならない呼び出しは、二つの登録を揃ったままにする。 -/
theorem Even.call {r : ThrReg} (h : r.Even) {c : RegCall} (hc : r.cleanAt c = true) :
    (r.call c).2.Even := by
  rcases h with rfl | rfl
  · cases c with
    | registerThr h v =>
      obtain ⟨hcreate, hconnect⟩ := h
      obtain ⟨vcreate, vconnect⟩ := v
      cases hcreate with
      | true => exact .inl rfl
      | false =>
        have hnone : hconnect = false ∧ vcreate = false ∧ vconnect = false := by
          revert hc
          revert hconnect vcreate vconnect
          decide
        obtain ⟨rfl, rfl, rfl⟩ := hnone
        exact .inr rfl
    | deregisterThr => exact .inl rfl
  · cases c with
    | registerThr h v => exact .inr rfl
    | deregisterThr => exact .inl rfl

theorem Even.allOrNothing_iff {r : ThrReg} (h : r.Even) (calls : List RegCall) :
    r.AllOrNothing calls ↔ r.Clean calls := by
  induction calls generalizing r with
  | nil => exact iff_of_true h.sendsConnected trivial
  | cons c calls ih =>
    constructor
    · rintro ⟨-, hatomic, hrest⟩
      have hc := (h.atomic_iff c).mp hatomic
      exact ⟨hc, (ih (h.call hc)).mp hrest⟩
    · rintro ⟨hc, hrest⟩
      exact ⟨h.sendsConnected, (h.atomic_iff c).mpr hc, (ih (h.call hc)).mpr hrest⟩

/--
**二つの propagator が RUN の間の、`RegisterThr` と `DeregisterThr` のどの列についても、失敗した
呼び出しが何も残さず `Inc` が繋がった socket でだけ送るのは、horizontal の socket を持たない間の
`RegisterThr` が、その socket を作る所でしか失敗しない時で、その時に限る。**
-/
theorem registration_all_or_nothing_iff (calls : List RegCall) :
    fresh.AllOrNothing calls ↔ fresh.Clean calls :=
  Even.allOrNothing_iff (.inl rfl) calls

/-- `connect` が失敗すると、`-1` を返した後も繋がっていない socket が残り、`Inc` はそこへ送る。 -/
theorem registration_leaves_unconnected :
    ¬fresh.AllOrNothing [.registerThr { create := false, connect := true } .quiet] := by
  rintro ⟨-, hatomic, -⟩
  exact absurd hatomic (by decide)

end ThrReg

end QuiltDB
