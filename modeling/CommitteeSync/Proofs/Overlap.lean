/-
  CommitteeSync.Proofs.Overlap — head writes that run beside a pass.

  The gate keeps passes apart, and head writes do not ask it. So a task's work overlaps with
  another's only if one of the two is a head write (`System.Overlap`), and only then can a
  commit of the other come between the record the task started from and its own commit
  (`System.Overtaken`). Under any discipline every task is lawful that was not overtaken
  (`System.lawfulApart_act`).
-/

import CommitteeSync.Proofs.Discipline
import CommitteeSync.Proofs.SingleFlight

namespace CommitteeSync

open Turn

variable {D : Discipline}

/-! ## Open work -/

/-- Of the tasks that start from the record, one that is neither guarded nor direct has no write open. -/
theorem Work.guarded_or_direct {w : Work} (hk : w.kind.fromRecord) {e : Epoch × EpochWrite} (hw : w.write? = some e) :
    w.isGuarded ∨ w.isDirect := by
  cases w with
  | catchUp token c =>
    cases c with
    | reading => cases hw
    | following f => exact Or.inl rfl
  | head guard token u =>
    cases guard with
    | parts => cases hk
    | service =>
      cases u with
      | reading e => cases hw
      | direct e write => exact Or.inr rfl
      | filling e pass => exact Or.inl rfl
  | startup s =>
    cases s with
    | reading => cases hw
    | subscribing => cases hw
    | following f => exact Or.inl rfl
    | listening feed l =>
      cases l with
      | idle => cases hw
      | handling u =>
        cases u with
        | reading e => cases hw
        | direct e write => exact Or.inr rfl
        | filling e pass => exact Or.inl rfl
  | range token r => cases hk
  | writeEpoch token e write => cases hk
  | pass token p => cases hk
  | listen token feed l => cases hk
  | _ => cases hw

/-- Without open work a task has not set out to commit anything. -/
theorem Work.lawful_of_closed {w : Work} (hk : w.kind.fromRecord) (hg : w.isGuarded = false) (hd : w.isDirect = false)
    (st : Standing) : w.Lawful D st := by
  cases w with
  | catchUp token c =>
    cases c with
    | reading => trivial
    | following f => cases hg
  | head guard token u =>
    cases guard with
    | parts => cases hk
    | service =>
      cases u with
      | reading e => trivial
      | direct e write => cases hd
      | filling e pass => cases hg
  | startup s =>
    cases s with
    | reading => trivial
    | subscribing => trivial
    | following f => cases hg
    | listening feed l =>
      cases l with
      | idle => trivial
      | handling u =>
        cases u with
        | reading e => trivial
        | direct e write => cases hd
        | filling e pass => cases hg
  | _ => trivial

namespace System

/-- The task runs a guarded pass or writes the epoch of a head event. -/
def isOpen (s : System) (id : Nat) : Bool := s.guarded id || s.direct id

theorem isOpen_of_work {s : System} {id : Nat} {w : Work} (hw : s.work? id = some w) :
    s.isOpen id = (w.isGuarded || w.isDirect) := by
  simp [isOpen, guarded, direct, hw]

theorem lt_of_isOpen {s : System} {id : Nat} (h : s.isOpen id) : id < s.tasks.length := by
  cases hw : s.work? id with
  | none => simp [isOpen, guarded, direct, hw] at h
  | some w => exact (List.getElem?_eq_some_iff.1 (work?_eq_some.1 hw)).1

/-- Two tasks have work open, and one of them at least does not ask the gate. -/
def Overlap (s : System) (id other : Nat) : Prop :=
  id ≠ other ∧ s.isOpen id ∧ s.isOpen other ∧ (s.direct id ∨ s.direct other)

instance (s : System) (id other : Nat) : Decidable (Overlap s id other) := inferInstanceAs (Decidable (_ ∧ _))

variable (env : Setup) {s₀ : System} {acts : List Action} {a : Action} {id : Nat}

/-- While `id` had its present work open, a task that it overlaps with committed an epoch. -/
def Overtaken (s₀ : System) (acts : List Action) (id : Nat) : Prop :=
  ∃ before since other, acts = before ++ .turn other .granted :: since ∧ Overlap (run env s₀ before) id other ∧
    (∃ epoch tx written, (run env s₀ before).write? other = some (epoch, .committing tx written)) ∧
    ∀ part, part <+: since → (run env s₀ (before ++ .turn other .granted :: part)).isOpen id

theorem isOpen_of_write (hs : s₀.Idle) (h : Only Kind.fromRecord acts) {e : Epoch × EpochWrite}
    (hw : (run env s₀ acts).write? id = some e) : (run env s₀ acts).isOpen id := by
  obtain ⟨epoch, v⟩ := e
  obtain ⟨w, hw, hv⟩ := write?_eq_some.1 hw
  have hk := kinds_run env (by decide) hs h hw
  rw [isOpen_of_work hw, Bool.or_eq_true]
  exact Work.guarded_or_direct hk hv

theorem Overtaken.snoc (h : Overtaken env s₀ acts id) (ho : (run env s₀ (acts ++ [a])).isOpen id) :
    Overtaken env s₀ (acts ++ [a]) id := by
  obtain ⟨before, since, other, rfl, hover, hcommit, hall⟩ := h
  refine ⟨before, since ++ [a], other, by simp, hover, hcommit, fun part hp => ?_⟩
  rcases List.prefix_concat_iff.1 hp with rfl | hp
  · simpa using ho
  · exact hall part hp

theorem overtaken_now {other : Nat} {epoch : Epoch} {tx : Transaction} {written : Nat}
    (h : Overlap (run env s₀ acts) id other) (hw : (run env s₀ acts).write? other = some (epoch, .committing tx written))
    (ho : (run env s₀ (acts ++ [.turn other .granted])).isOpen id) :
    Overtaken env s₀ (acts ++ [.turn other .granted]) id := by
  refine ⟨acts, [], other, rfl, h, ⟨epoch, tx, written, hw⟩, fun part hp => ?_⟩
  rw [List.prefix_nil.1 hp]
  exact ho

/-- Open work of two tasks overlaps, since only one of them can be behind the gate. -/
theorem overlap_of_open (hs : s₀.Idle) {other : Nat} (hne : id ≠ other) (ho : (run env s₀ acts).isOpen id)
    (ho' : (run env s₀ acts).isOpen other) : Overlap (run env s₀ acts) id other := by
  refine ⟨hne, ho, ho', ?_⟩
  simp only [isOpen, Bool.or_eq_true] at ho ho'
  rcases ho with hg | hd
  · rcases ho' with hg' | hd'
    · exact absurd ((singleFlight_run env hs acts).one id other hg hg') hne
    · exact Or.inr hd'
  · exact Or.inl hd

/-- Every task is lawful, but for those that were overtaken. -/
def LawfulApart (D : Discipline) (s₀ : System) (acts : List Action) : Prop :=
  ∀ id w, (run env s₀ acts).work? id = some w →
    w.Lawful D ((run env s₀ acts).shared.standing env) ∨ Overtaken env s₀ acts id

theorem lawfulApart_act (hs : s₀.Idle) (h : Only Kind.fromRecord (acts ++ [a]))
    (hst : D.Holds ((run env s₀ acts).shared.standing env))
    (hb : ∀ id, (run env s₀ acts).work? id = some (.startup .reading) → D.Begins env ((run env s₀ acts).shared.standing env))
    (hl : LawfulApart env D s₀ acts) :
    LawfulApart env D s₀ (acts ++ [a]) := by
  intro id w' hw'
  have hk' := kinds_run env (by decide) hs h hw'
  cases ho : (run env s₀ (acts ++ [a])).isOpen id with
  | false =>
    rw [isOpen_of_work hw', Bool.or_eq_false_iff] at ho
    exact Or.inl (Work.lawful_of_closed hk' ho.1 ho.2 _)
  | true =>
    by_cases hov : Overtaken env s₀ acts id
    · exact Or.inr (hov.snoc env ho)
    · have hid : ∀ w, (run env s₀ acts).work? id = some w → w.Lawful D ((run env s₀ acts).shared.standing env) := by
        intro w hw
        exact (hl id w hw).resolve_right hov
      have hw := hw'
      rw [run_snoc] at hw
      rcases lawful_act env hs h.of_snoc hst (hb id) hid hw with hlaw | ⟨ha, hkept⟩
      · rw [run_snoc]
        exact Or.inl hlaw
      · rcases standing_act env hs (Only.not_stage h.of_snoc) a with hsame | ⟨id₀, epoch, tx, written, hturn, hv, -⟩
        · rw [run_snoc, hsame]
          exact Or.inl (hid w' hkept)
        · -- Another task commits while this one has its work open.
          have hne : id ≠ id₀ := fun he => ha .granted (he ▸ hturn)
          have ho₁ : (run env s₀ acts).isOpen id := by
            rw [isOpen_of_work hkept, ← isOpen_of_work hw']
            exact ho
          have hlap := overlap_of_open env hs hne ho₁ (isOpen_of_write env hs h.of_snoc hv)
          rw [hturn] at ho ⊢
          exact Or.inr (overtaken_now env hlap hv ho)

theorem lawfulApart_nil (hs : s₀.Idle) : LawfulApart env D s₀ [] := by
  intro id w hw
  rw [run_nil, hs.work?] at hw
  cases hw

/-- What a task commits, its discipline allows, or the task was overtaken. -/
theorem LawfulApart.commit (hs : s₀.Idle) (h : Only Kind.fromRecord acts) (hl : LawfulApart env D s₀ acts) (a : Action) :
    (act env (run env s₀ acts) a).shared.standing env = (run env s₀ acts).shared.standing env ∨
    ∃ id epoch, a = .turn id .granted ∧
      (act env (run env s₀ acts) a).shared.standing env = ((run env s₀ acts).shared.standing env).commit epoch ∧
      (D.May ((run env s₀ acts).shared.standing env) epoch ∨ Overtaken env s₀ acts id) := by
  rcases standing_act env hs (Only.not_stage h) a with hsame | ⟨id, epoch, tx, written, ha, hv, hcommit⟩
  · exact Or.inl hsame
  · obtain ⟨w, hw, hv⟩ := write?_eq_some.1 hv
    have hk := kinds_run env (by decide) hs h hw
    exact Or.inr ⟨id, epoch, ha, hcommit, (hl id w hw).imp (fun hlaw => hlaw.may hk hv) fun ho => ho⟩

end System

end CommitteeSync
