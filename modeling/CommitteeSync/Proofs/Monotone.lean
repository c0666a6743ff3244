/-
  CommitteeSync.Proofs.Monotone — when the record goes back.

  Passes commit behind the gate and head writes beside it. A head write and a pass that start
  from the same record both set out to commit the epoch after it, and whichever commits last
  sets the record, so it may go back (`record_lowered_beside_pass`).

  Proved: nothing else lowers it. In every interleaving of work that starts from the record,
  an action leaves a record that can be read, and one that is not below the record before,
  unless it is the commit of a task that was overtaken: while its work was open, another
  task, one of the two being a head write, committed an epoch (`record_monotone`).
-/

import CommitteeSync.Proofs.CommitLog

namespace CommitteeSync

/-! ## The discipline -/

/-- The record can be read and is not past `epoch`. -/
def NotPast (st : Standing) (epoch : Epoch) : Prop := ∃ r, st.record = .ok r ∧ r.latestEpoch ≤ epoch

theorem notPast_commit (st : Standing) {e epoch : Epoch} (h : e ≤ epoch) : NotPast (st.commit e) epoch :=
  ⟨⟨e⟩, Standing.commit_record st e, h⟩

/-- Any epoch may be committed that is not below the record. -/
def ahead : Discipline where
  Holds _ := True
  May := NotPast
  commit _ _ _ _ := trivial
  next st e _ _ hl := by
    apply notPast_commit
    rw [UInt64.le_iff_toNat_le, toNat_succ hl]
    omega
  resume _ r _ hr := ⟨r, hr, le_resumePoint r⟩

/-! ## Along a run -/

namespace System

variable (env : Setup) {s₀ : System} {acts : List Action}

theorem ahead_run (hover : env.startOverride = none) (hs : s₀.Idle) (h : Only Kind.fromRecord acts) :
    LawfulApart env ahead s₀ acts := by
  induction acts using List.reverseRecOn with
  | nil => exact lawfulApart_nil env hs
  | append_singleton acts a ih =>
    have hst : ahead.Holds ((run env s₀ acts).shared.standing env) := trivial
    exact lawfulApart_act env hs h hst (fun _ _ => Discipline.begins_of_none env hover hst) (ih h.of_snoc)

/-- No action lowers the record but the commit of a task that was overtaken. -/
theorem record_monotone (hover : env.startOverride = none) (hs : s₀.Idle) (h : Only Kind.fromRecord acts) (a : Action)
    {r : Record} (hr : recorded env (run env s₀ acts) = .ok r) :
    ∃ r', recorded env (run env s₀ (acts ++ [a])) = .ok r' ∧
      (r.latestEpoch ≤ r'.latestEpoch ∨ ∃ id, a = .turn id .granted ∧ Overtaken env s₀ acts id) := by
  rw [run_snoc]
  rcases (ahead_run env hover hs h).commit env hs h a with hsame | ⟨id, epoch, ha, hcommit, hmay⟩
  · exact ⟨r, (congrArg Standing.record hsame).trans hr, Or.inl (UInt64.le_refl _)⟩
  · refine ⟨⟨epoch⟩, (congrArg Standing.record hcommit).trans (Standing.commit_record _ epoch), ?_⟩
    rcases hmay with ⟨r', hr', hle⟩ | hover'
    · have heq : r' = r := Except.ok.inj (hr'.symm.trans hr)
      rw [← heq]
      exact Or.inl hle
    · exact Or.inr ⟨id, ha, hover'⟩

/-! ## Beside a pass -/

/-- The slots of the head events, in the order in which the events come. -/
def headSlots (acts : List Action) : List Slot :=
  acts.filterMap fun
    | .request (.head _ _ event) => some event.slot
    | .change (.send event) => some event.slot
    | _ => none

/-- Head events come one at a time and in slot order, and the clock does not go back. -/
structure Orderly (s₀ : System) (acts : List Action) : Prop where
  heads : ∀ part ∈ acts.inits, ∀ id < (run env s₀ part).tasks.length, ∀ other < (run env s₀ part).tasks.length,
    (run env s₀ part).direct id → (run env s₀ part).direct other → id = other
  slots : (headSlots acts).Pairwise (· ≤ ·)
  clock : (run env s₀ acts).shared.readings.Pairwise (· ≤ ·)

/-- A head event reads the record while a catch-up is about to commit epoch 6. The catch-up
    goes on to epoch 8, and then the head write gets as far as its own commit of epoch 6. -/
def headBesidePass : List Action :=
  .request (.catchUp (.root 0)) :: List.replicate 5 (.turn 0 .granted) ++
  .request (.head .service (.root 0) ⟨24, true⟩) :: List.replicate 3 (.turn 1 .granted) ++
  List.replicate 9 (.turn 0 .granted) ++ List.replicate 2 (.turn 1 .granted)

/-- Orderly as it is, the record goes back from epoch 8 to 6 when the head write commits. -/
theorem record_lowered_beside_pass :
    let s₀ := opened [("progress", Record.encode ⟨5⟩)] (fun _ => []) [8]
    s₀.Idle ∧ Only Kind.fromRecord headBesidePass ∧ Orderly .plain s₀ (headBesidePass ++ [.turn 1 .granted]) ∧
    recorded .plain (run .plain s₀ headBesidePass) = .ok ⟨8⟩ ∧
    recorded .plain (run .plain s₀ (headBesidePass ++ [.turn 1 .granted])) = .ok ⟨6⟩ := by
  refine ⟨⟨rfl, rfl⟩, by decide, ⟨?_, ?_, ?_⟩, ?_, ?_⟩
  · decide +kernel
  · decide +kernel
  · decide +kernel
  · decide +kernel
  · decide +kernel

/-- The head write there was overtaken, which is why the record may go back. -/
theorem overtaken_beside_pass :
    ∃ id, Overtaken .plain (opened [("progress", Record.encode ⟨5⟩)] (fun _ => []) [8]) headBesidePass id := by
  have hr : recorded .plain (run .plain (opened [("progress", Record.encode ⟨5⟩)] (fun _ => []) [8]) headBesidePass) =
      .ok ⟨8⟩ := by decide +kernel
  obtain ⟨r', hr', hle | ⟨id, -, hid⟩⟩ := record_monotone .plain rfl (opened_idle _ (fun _ => []) [8])
    (by decide : Only _ headBesidePass) (.turn 1 .granted) hr
  · have hback : recorded .plain (run .plain (opened [("progress", Record.encode ⟨5⟩)] (fun _ => []) [8])
        (headBesidePass ++ [.turn 1 .granted])) = .ok ⟨6⟩ := by decide +kernel
    have heq : r' = ⟨6⟩ := Except.ok.inj (hr'.symm.trans hback)
    rw [heq] at hle
    exact absurd hle (by decide)
  · exact ⟨id, hid⟩

end System

end CommitteeSync
