/-
  CommitteeSync.Proofs.Triggers — what a trigger aims for, and what it has reached in the end.

  A trigger is a catch-up or the event of a new epoch. An event aims for its own epoch, a
  catch-up for the last reading of the clock, which only moves forward (`Task.goal?`).

  Proved of every turn of a trigger's task: it goes on serving the trigger and ends with an
  answer to it (`Work.resume_serves`), the goal does not go back (`Work.resume_goal`), what
  the task has set out to commit is within its goal (`Work.write_le_goal`), and when it ends
  well its target has been committed (`Work.resume_covers`).
-/

import CommitteeSync.Proofs.Completion

namespace CommitteeSync

open Turn

variable (env : Setup) {token : Token} {sh : Shared} {reply : Reply}

/-! ## Triggers and their answers -/

def Request.isTrigger : Request → Bool
  | .catchUp _ => true
  | .head .service _ event => event.transition
  | _ => false

/-- The epoch is covered: by what was stored already, or by what was written. -/
def HeadOutcome.isCovered : HeadOutcome → Bool
  | .alreadyProcessed _ | .processed _ _ | .backfilled _ _ _ => true
  | _ => false

/-- How far the trigger went or would have gone, and whether it ended well. A catch-up that
    was denied or could not read the record has no target. -/
def Outcome.target? : Request → Outcome → Option (Epoch × Bool)
  | .catchUp _, .catchUp (.ok (some report)) => some (report.target, report.isCompleted)
  | .head _ _ event, .head o => some (env.layout.epochOf event.slot, o.isCovered)
  | _, _ => none

def Outcome.Answers : Request → Outcome → Prop
  | .catchUp _, .catchUp _ => True
  | .head _ _ _, .head _ => True
  | _, _ => False

/-- The event that is handled is the one of `epoch`. -/
def HeadUpdate.On (epoch : Epoch) : HeadUpdate → Prop
  | .reading e => e = epoch
  | .direct e _ => e = epoch
  | .filling e pass => e = epoch ∧ pass.report.target = epoch

/-- The work is that of the trigger. -/
def Work.Serves : Request → Work → Prop
  | r, .asked r' => r' = r
  | .catchUp _, .catchUp _ _ => True
  | .head guard _ event, .head guard' _ u => guard' = guard ∧ u.On (env.layout.epochOf event.slot)
  | _, _ => False

def Task.Serves (r : Request) : Task → Prop
  | .active w => w.Serves env r
  | .ended o => o.Answers r

/-- How far the trigger aims at present. -/
def Task.goal? : Request → Task → Option Epoch
  | .head _ _ event, _ => some (env.layout.epochOf event.slot)
  | .catchUp _, .active (.catchUp _ (.following f)) => some f.pass.report.target
  | .catchUp _, .ended (.catchUp (.ok (some report))) => some report.target
  | _, _ => none

/-- In the end the goal is the target. -/
theorem Outcome.target?_of_goal {r : Request} {o : Outcome} (h : o.Answers r) {t : Epoch}
    (hg : (Task.ended o).goal? env r = some t) : ∃ well, o.target? env r = some (t, well) := by
  unfold Answers at h
  split at h
  · rename_i result
    match result with
    | .error cause => cases hg
    | .ok none => cases hg
    | .ok (some report) =>
      cases hg
      exact ⟨report.isCompleted, rfl⟩
  · rename_i outcome
    cases hg
    exact ⟨outcome.isCovered, rfl⟩
  · exact h.elim

theorem Request.kind_of_trigger {r : Request} (h : r.isTrigger) : r.kind = .catchUp ∨ r.kind = .head .service := by
  unfold isTrigger at h
  split at h
  · exact Or.inl rfl
  · exact Or.inr rfl
  · cases h

theorem Request.fromRecord_of_trigger {r : Request} (h : r.isTrigger) : r.kind.fromRecord := by
  rcases kind_of_trigger h with hk | hk <;> rw [hk] <;> rfl

theorem Work.Serves.kind_eq {r : Request} {w : Work} (h : w.Serves env r) : w.kind = r.kind := by
  unfold Serves at h
  split at h
  · rw [h]
    rfl
  · rfl
  · rw [Work.kind, h.1, Request.kind]
  · exact h.elim

/-! ## The handling of an event -/

namespace HeadUpdate

theorem fill_on (guard : Guard) (resume epoch : Epoch) (sh : Shared) :
    Yields (fill guard token resume epoch sh) (fun _ u => u.On epoch) (fun _ _ => True) := by
  unfold fill
  split
  · trivial
  · refine (yields_andThen ..).2 ((Pass.start_completion token resume epoch _).mono (fun _ p hp => ?_) fun _ _ _ => trivial)
    exact ⟨rfl, by rw [hp]; rfl⟩

theorem dispatch_on (guard : Guard) (epoch : Epoch) (sh : Shared) (r : Except Cause Record) :
    Yields (dispatch guard token epoch sh r) (fun _ u => u.On epoch) (fun _ _ => True) := by
  cases r with
  | error cause => trivial
  | ok record =>
    simp only [dispatch]
    split
    · trivial
    · split
      · exact fill_on guard _ epoch sh
      · exact (yields_andThen ..).2 (yields_of_forall _ (fun _ _ => rfl) fun _ r => by cases r <;> trivial)

theorem resume_on (guard : Guard) {u : HeadUpdate} {epoch : Epoch} (h : u.On epoch) :
    Yields (u.resume env guard token sh reply) (fun _ u' => u'.On epoch) (fun _ _ => True) := by
  cases u with
  | reading e =>
    rw [← show e = epoch from h]
    exact dispatch_on guard e sh _
  | direct e write => exact (yields_andThen ..).2 (yields_of_forall _ (fun _ _ => h) fun _ r => by cases r <;> trivial)
  | filling e pass =>
    refine (yields_andThen ..).2 ((Pass.resume_completion env token sh pass reply).mono (fun _ p hp => ?_) fun _ _ _ => trivial)
    exact ⟨h.1, hp.2.trans h.2⟩

end HeadUpdate

/-! ## What is reached -/

variable {found : Option Bytes} {r₀ : Record}

theorem EpochWrite.start_ends (token : Token) (epoch : Epoch) (sh : Shared) :
    Yields (start token epoch sh) (fun _ _ => True) (fun _ r => ∃ error, r = .error error) := by
  unfold start
  split
  · exact ⟨_, rfl⟩
  · trivial

namespace HeadUpdate

theorem finishFilling_covered {guard : Guard} {epoch : Epoch} {sh : Shared} {report : Report}
    (h : report.isCompleted → epoch ∈ sh.commitLog) :
    Yields (finishFilling guard epoch sh report) (fun _ _ => False) (fun sh' o => o.isCovered → epoch ∈ sh'.commitLog) := by
  intro hcov
  rw [Shared.commitLog_of_ledger (Shared.ledger_exit sh guard)]
  refine h ?_
  unfold Report.isCompleted
  split at hcov
  · rename_i he; rw [he]
  · cases hcov
  · cases hcov

theorem dispatch_covers (guard : Guard) {epoch : Epoch} {r : Except Cause Record}
    (hr : ∀ record, r = .ok record → Reaches (r₀.resumePoint none) sh.commitLog (record.resumePoint none))
    (hf : r₀.resumePoint none ≤ epoch) :
    Yields (dispatch guard token epoch sh r) (fun _ _ => True) (fun sh' o => o.isCovered → epoch ∈ sh'.commitLog) := by
  cases r with
  | error cause => intro hcov; cases hcov
  | ok record =>
    simp only [dispatch]
    split
    · rename_i hlt
      intro _
      rw [Shared.commitLog_of_ledger (Shared.ledger_log sh _ rfl)]
      exact (hr record rfl).2 epoch hf hlt
    · split
      · rename_i hlt
        unfold fill
        split
        · intro hcov; cases hcov
        · rename_i sh' _
          refine (yields_andThen ..).2 ((Pass.start_completion token (record.resumePoint none) epoch _).mono
            (fun _ _ _ => trivial) fun _ report hp => ?_)
          refine (finishFilling_covered fun hc => ?_).mono (fun _ _ h => h.elim) fun _ _ h => h
          exact absurd (hp.2.2 hc) (UInt64.not_lt.2 (UInt64.le_of_lt hlt))
      · refine (yields_andThen ..).2 ((EpochWrite.start_ends token epoch sh).mono_ends fun _ r hr => ?_)
        obtain ⟨error, rfl⟩ := hr
        intro hcov
        cases hcov

/-- An event that was handled well is covered. -/
theorem resume_covers (guard : Guard) (h₀ : Record.decode found = .ok r₀) {u : HeadUpdate} {epoch : Epoch}
    (hg : Gapless found (r₀.resumePoint none) (sh.standing env))
    (hon : u.On epoch) (hf : r₀.resumePoint none ≤ epoch) :
    Yields (u.resume env guard token sh reply) (fun _ _ => True) (fun sh' o => o.isCovered → epoch ∈ sh'.commitLog) := by
  cases u with
  | reading e =>
    rw [show e = epoch from hon]
    exact dispatch_covers guard (fun record hr => hg.resume h₀ (Shared.readRecord_ok env hr)) hf
  | direct e write =>
    rw [show e = epoch from hon]
    refine (yields_andThen ..).2 ((EpochWrite.resume_logs env token epoch sh write reply).mono_ends fun sh' r hr => ?_)
    cases r with
    | error error => intro hcov; cases hcov
    | ok n =>
      intro _
      rw [Shared.commitLog_of_ledger (Shared.ledger_log sh' _ rfl)]
      exact hr n rfl
  | filling e pass =>
    obtain ⟨rfl, ht⟩ := hon
    refine (yields_andThen ..).2 ((Pass.resume_completion env token sh pass reply).mono (fun _ _ _ => trivial) fun sh' report hp => ?_)
    refine (finishFilling_covered fun hc => ?_).mono (fun _ _ h => h.elim) fun _ _ h => h
    have hm := hp.2.2 hc
    rwa [hp.2.1, ht] at hm

end HeadUpdate

namespace CatchUp

/-- What a catch-up says that it completed is committed up to its target. -/
theorem follow_covers {r : Except Cause Record}
    (hr : ∀ record, r = .ok record → Reaches (r₀.resumePoint none) sh.commitLog (record.resumePoint none)) :
    Yields (follow token sh r) (fun _ _ => True) (fun sh' o => ∀ report, o = .ok (some report) → report.isCompleted →
      r₀.resumePoint none ≤ report.target → report.target ∈ sh'.commitLog) := by
  cases r with
  | error cause => intro report he; cases he
  | ok record =>
    have he := Shared.ledger_enter sh .service (.passDenied .manual) rfl
    simp only [follow]
    split
    · intro report he; cases he
    · rename_i sh' h
      rw [h] at he
      have hlog := Shared.commitLog_of_ledger he
      have hkept := yields_of_fst (P := fun after => sh'.commitLog <+: after.commitLog)
        (Follow.start_effects (k := .catchUp) token (record.resumePoint none) sh').commitLog
      refine (yields_andThen ..).2 (((Follow.start_completion token _ sh').and hkept).mono (fun _ _ _ => trivial) ?_)
      intro after report hr₁ report' he hc hf
      obtain ⟨⟨hresume, hreached⟩, hsub⟩ := hr₁
      cases he
      rw [Shared.commitLog_of_ledger (Shared.ledger_exit after .service)]
      rw [hlog] at hsub
      exact hreached.target_mem hc hsub.subset (hr record rfl) (by rw [hresume]; exact UInt64.le_refl _) hf

theorem resume_covers (h₀ : Record.decode found = .ok r₀) {c : CatchUp} (hg : Gapless found (r₀.resumePoint none) (sh.standing env))
    (hl : c.Lawful (gapless found r₀ h₀) (sh.standing env)) :
    Yields (c.resume env token sh reply) (fun _ _ => True) (fun sh' o => ∀ report, o = .ok (some report) → report.isCompleted →
      r₀.resumePoint none ≤ report.target → report.target ∈ sh'.commitLog) := by
  cases c with
  | reading => exact follow_covers fun record hr => hg.resume h₀ (Shared.readRecord_ok env hr)
  | following f =>
    have hkept := yields_of_fst (P := fun after => sh.commitLog <+: after.commitLog)
      (Follow.resume_effects (k := .catchUp) env token sh f reply).commitLog
    refine (yields_andThen ..).2 (((Follow.resume_completion env token sh f reply).and hkept).mono (fun _ _ _ => trivial) ?_)
    intro after report hr report' he hc hf
    obtain ⟨hends, hsub⟩ := hr
    cases he
    have hmay : Reaches (r₀.resumePoint none) sh.commitLog f.pass.epoch := hl.pass.may
    rw [Shared.commitLog_of_ledger (Shared.ledger_exit after .service)]
    refine hends.reached.target_mem hc hsub.subset hmay ?_ hf
    rw [hends.resume]
    exact UInt64.le_trans hl.resume hl.pass.from_resume

end CatchUp

/-! ## The task of a trigger -/

namespace Work

variable {r : Request} {w : Work}

theorem start_serves (ht : r.isTrigger) (sh : Shared) :
    Yields (start env sh r) (fun _ w' => w'.Serves env r) (fun _ _ => False) := by
  cases r with
  | catchUp token => trivial
  | head guard token event =>
    cases guard with
    | parts => cases ht
    | service =>
      have htransition : event.transition := ht
      refine (yields_andThen ..).2 ?_
      rw [HeadUpdate.start, if_pos htransition]
      exact ⟨rfl, rfl⟩
  | _ => cases ht

/-- A task serves its trigger to the end, and then answers it. -/
theorem resume_serves (ht : r.isTrigger) (h : w.Serves env r) :
    Yields (w.resume env sh reply) (fun _ w' => w'.Serves env r) (fun _ o => o.Answers r) := by
  unfold Serves at h
  split at h
  · rw [h]
    exact (start_serves env ht sh).mono (fun _ _ h => h) fun _ _ h => h.elim
  · exact (yields_andThen ..).2 (yields_of_forall _ (fun _ _ => trivial) fun _ _ => trivial)
  · exact (yields_andThen ..).2 ((HeadUpdate.resume_on env _ h.2).mono (fun _ _ hu => ⟨h.1, hu⟩) fun _ _ _ => trivial)
  · exact h.elim

/-- The goal does not go back. -/
theorem resume_goal (h : w.Serves env r) {t : Epoch} (hg : (Task.active w).goal? env r = some t) :
    Yields (w.resume env sh reply) (fun _ w' => ∃ t', (Task.active w').goal? env r = some t' ∧ t ≤ t')
      (fun _ o => ∃ t', (Task.ended o).goal? env r = some t' ∧ t ≤ t') := by
  unfold Task.goal? at hg
  split at hg
  · exact yields_of_forall _ (fun _ _ => ⟨t, hg, UInt64.le_refl t⟩) fun _ _ => ⟨t, hg, UInt64.le_refl t⟩
  · rename_i heq
    cases heq
    cases hg
    refine (yields_andThen ..).2 ((yields_andThen ..).2 ((Follow.resume_completion env _ sh _ reply).mono ?_ ?_))
    · exact fun _ f hf => ⟨f.pass.report.target, rfl, hf.2⟩
    · exact fun _ report hr => ⟨report.target, rfl, hr.target⟩
  · rename_i heq; cases heq
  · cases hg

/-- What the task has set out to commit is within its goal. -/
theorem write_le_goal {D : Discipline} {st : Standing} (h : w.Serves env r) (hl : w.Lawful D st) {epoch : Epoch} {v : EpochWrite}
    (hw : w.write? = some (epoch, v)) : ∃ t, (Task.active w).goal? env r = some t ∧ epoch ≤ t := by
  unfold Serves at h
  split at h
  · cases hw
  · rename_i c
    cases c with
    | reading => cases hw
    | following f =>
      cases hw
      exact ⟨f.pass.report.target, rfl, hl.pass.to_target⟩
  · rename_i u
    refine ⟨_, rfl, ?_⟩
    cases u with
    | reading e => cases hw
    | direct e write =>
      cases hw
      exact UInt64.le_of_eq h.2
    | filling e pass =>
      cases hw
      rw [← h.2.2]
      exact hl.to_target
  · exact h.elim

/-- A trigger that ends well has its target committed, unless that was before the first epoch. -/
theorem resume_covers (h₀ : Record.decode found = .ok r₀) (ht : r.isTrigger) (h : w.Serves env r)
    (hg : Gapless found (r₀.resumePoint none) (sh.standing env)) (hl : w.Lawful (gapless found r₀ h₀) (sh.standing env)) :
    Yields (w.resume env sh reply) (fun _ _ => True)
      (fun sh' o => ∀ t, o.target? env r = some (t, true) → r₀.resumePoint none ≤ t → t ∈ sh'.commitLog) := by
  unfold Serves at h
  split at h
  · rw [h]
    exact (start_serves env ht sh).mono (fun _ _ _ => trivial) fun _ _ h => h.elim
  · refine (yields_andThen ..).2 ((CatchUp.resume_covers env h₀ hg hl).mono_ends fun sh' o ho t htarget hf => ?_)
    match o with
    | .error cause => cases htarget
    | .ok none => cases htarget
    | .ok (some report) =>
      obtain ⟨rfl, hc⟩ := Prod.ext_iff.1 (Option.some_inj.1 htarget)
      exact ho report rfl hc hf
  · rename_i event guard' _ u
    by_cases hf : r₀.resumePoint none ≤ env.layout.epochOf event.slot
    · refine (yields_andThen ..).2 ((HeadUpdate.resume_covers env guard' h₀ hg h.2 hf).mono_ends fun sh' o ho t htarget _ => ?_)
      obtain ⟨rfl, hcov⟩ := Prod.ext_iff.1 (Option.some_inj.1 htarget)
      exact ho hcov
    · refine (yields_andThen ..).2 (yields_of_forall _ (fun _ _ => trivial) fun sh' o t htarget hf' => ?_)
      obtain ⟨rfl, -⟩ := Prod.ext_iff.1 (Option.some_inj.1 htarget)
      exact absurd hf' hf
  · exact h.elim

end Work

end CommitteeSync
