/-
  CommitteeSync.Proofs.TwoPaths — the two ways in which a head update writes its epoch.

  The epoch at the resume point is written directly, without the guard. An epoch further ahead
  is reached by a guarded pass, and a pass over this epoch alone would write the same. Here the
  two go side by side from one state, driven by the same beats: what changes around them, with
  the token at any time, and what is replied to their calls.

  Proved, where the guard is free and the record asks for this epoch (`HeadUpdate.paths_agree`):
  (1) They wait for the same step of the same write, and they have made the same calls and
      left the same in the store. The guard is held by the pass just as long as it waits.
  (2) They come to an end in the same turn, whatever the beats are. What was written by the
      one was written by the other; a failure that is none of the token's is the same of both.
  (3) An interruption the pass tells as such and the direct write as a failure. This is the
      one difference, and it shows as soon as the token is cancelled
      (`HeadUpdate.interruption_told_apart`).
-/

import CommitteeSync.Proofs.MovingHead

namespace CommitteeSync

open Turn Shared

variable (env : Setup)

/-! ## Failures -/

/-- How the work on `epoch` fails: by an interruption, or at a stage of its own. -/
inductive EpochError.At (epoch : Epoch) : EpochError → Prop
  | interrupted : At epoch (.cancelled epoch)
  | genuine (stage : Stage) (cause : Cause) : stage ≠ .cancelled → At epoch ⟨epoch, stage, cause⟩

namespace EpochWrite

/-- A write fails at its epoch. -/
theorem resume_error (token : Token) (epoch : Epoch) (sh : Shared) (w : EpochWrite) (reply : Reply) :
    Yields (w.resume env token epoch sh reply) (fun _ _ => True) (fun _ r => ∀ error, r = .error error → error.At epoch) := by
  have hfail : ∀ sh {error : EpochError}, error.At epoch →
      Yields (fail sh error) (fun _ _ => True) (fun _ r => ∀ error, r = .error error → error.At epoch) := by
    rintro sh error h _ ⟨⟩
    exact h
  cases w with
  | beginning =>
    simp only [resume]
    split
    · exact hfail _ .interrupted
    · cases reply with
      | granted => trivial
      | failed cause => exact hfail _ (.genuine _ _ (by decide))
  | staging s =>
    simp only [resume]
    split
    · exact hfail _ .interrupted
    · refine (yields_andThen ..).2 (yields_of_forall _ (fun _ _ => trivial) ?_)
      rintro sh ⟨tx, cause | written⟩
      · exact hfail _ (.genuine _ _ (by decide))
      · trivial
  | recording tx written =>
    simp only [resume]
    split
    · exact hfail _ .interrupted
    · cases reply with
      | granted => trivial
      | failed cause => exact hfail _ (.genuine _ _ (by decide))
  | committing tx written =>
    cases reply with
    | granted =>
      rintro _ ⟨⟩
    | failed cause => exact hfail _ (.genuine _ _ (by decide))

end EpochWrite

/-! ## The guard -/

theorem Shared.overlooks_gate (guard : Guard) : Overlooks (Shared.gate · guard) := by
  cases guard <;> exact ⟨fun _ _ => rfl, fun _ => rfl, fun _ => rfl, fun _ _ => rfl, fun _ _ _ _ => rfl⟩

theorem Shared.gate_change (guard : Guard) (c : Change) (sh : Shared) : (c.apply env sh).gate guard = sh.gate guard := by
  have hsend := Shared.send_view (Shared.gate · guard) (by cases guard <;> exact fun _ _ _ => rfl) sh
  have hdrop := Shared.dropSender_view (Shared.gate · guard) (by cases guard <;> exact fun _ _ _ => rfl) sh
  cases c with
  | send event => exact hsend _ event
  | endStream => exact hdrop
  | _ => cases guard <;> rfl

theorem Beat.gate_meets (guard : Guard) (b : Beat) (sh : Shared) : (b.meets env sh).gate guard = sh.gate guard := by
  unfold meets
  induction b.changes generalizing sh with
  | nil => rfl
  | cons c changes ih => exact (ih _).trans (Shared.gate_change env guard c sh)

theorem Shared.gate_exit (sh : Shared) (guard : Guard) : (sh.exit guard).gate guard = .free := by
  cases guard <;> rfl

theorem Shared.scene_setGate (sh : Shared) (guard : Guard) (gate : Gate) : (sh.setGate guard gate).scene = sh.scene := by
  cases guard <;> rfl

namespace HeadUpdate

/-! ## Side by side -/

/-- What the direct write of `epoch` tells, and what is told of the pass over `epoch` alone. -/
inductive Corresponds (epoch : Epoch) : HeadOutcome → HeadOutcome → Prop
  | written (committees : Nat) : Corresponds epoch (.processed epoch committees) (.backfilled epoch epoch 1)
  | failed (stage : Stage) (cause : Cause) : stage ≠ .cancelled →
      Corresponds epoch (.failed ⟨epoch, stage, cause⟩) (.failed ⟨epoch, stage, cause⟩)
  /-- The direct write takes an interruption for a failure. -/
  | interrupted : Corresponds epoch (.failed (.cancelled epoch)) (.cancelled epoch)

/-- The direct write of `epoch` and the pass over it are equally far. -/
inductive InStep (guard : Guard) (epoch : Epoch) :
    Shared × Turn HeadUpdate HeadOutcome → Shared × Turn HeadUpdate HeadOutcome → Prop
  | waiting {sh sh' : Shared} (w : EpochWrite) : sh'.scene = sh.scene → (sh'.gate guard).held →
      InStep guard epoch (sh, .waits (.direct epoch w)) (sh', .waits (.filling epoch ⟨Report.empty epoch epoch, epoch, w⟩))
  | ended {sh sh' : Shared} {o o' : HeadOutcome} : sh'.scene = sh.scene → sh'.gate guard = .free → Corresponds epoch o o' →
      InStep guard epoch (sh, .ends o) (sh', .ends o')

variable {guard : Guard} {token : Token} {epoch : Epoch} {sh sh' : Shared}

theorem InStep.scene {t t' : Shared × Turn HeadUpdate HeadOutcome} (h : InStep guard epoch t t') : t'.1.scene = t.1.scene := by
  cases h with
  | waiting w hscene => exact hscene
  | ended hscene => exact hscene

theorem InStep.ends {t t' : Shared × Turn HeadUpdate HeadOutcome} {o : HeadOutcome} (h : InStep guard epoch t t')
    (ho : t.2 = .ends o) : ∃ o', Corresponds epoch o o' ∧ t'.2 = .ends o' := by
  cases h with
  | waiting => cases ho
  | ended _ _ hsame =>
    cases ho
    exact ⟨_, hsame, rfl⟩

/-- The pass ends with the write of its only epoch. -/
theorem finish_inStep (h : sh'.scene = sh.scene) (r : EpochWrite.Result) (hr : ∀ error, r = .error error → error.At epoch) :
    InStep guard epoch (finishDirect epoch sh r)
      (andThen (Pass.settle token (Report.empty epoch epoch) epoch sh' r) (.filling epoch) (finishFilling guard epoch)) := by
  cases r with
  | ok n =>
    simp only [Pass.settle, Report.empty, if_true, andThen, finishFilling, finishDirect]
    refine .ended ?_ (gate_exit _ guard) (.written n)
    rw [Shared.exit, scene_setGate, scene_quiet sh' rfl, scene_quiet sh rfl, h]
  | error error =>
    have hscene : ∀ a b : Event, a.committed? = none → b.committed? = none →
        ((sh'.log a).exit guard).scene = (sh.log b).scene := by
      intro a b ha hb
      rw [Shared.exit, scene_setGate, scene_quiet sh' ha, scene_quiet sh hb, h]
    cases hr error rfl with
    | interrupted => exact .ended (hscene _ _ rfl rfl) (gate_exit _ guard) .interrupted
    | genuine stage cause hne =>
      have hout : Pass.outcomeOf ⟨epoch, stage, cause⟩ = .aborted ⟨epoch, stage, cause⟩ := by
        cases stage <;> first | rfl | exact absurd rfl hne
      simp only [Pass.settle, andThen, finishFilling, finishDirect, hout]
      exact .ended (hscene _ _ rfl rfl) (gate_exit _ guard) (.failed stage cause hne)

/-- One beat takes both on by the same step. -/
theorem InStep.beat {t t' : Shared × Turn HeadUpdate HeadOutcome} (h : InStep guard epoch t t') (b : Beat) :
    InStep guard epoch (beat env (resume env guard token) t b) (beat env (resume env guard token) t' b) := by
  cases h with
  | ended hscene hfree hsame =>
    refine .ended (scene_meets env hscene b) ?_ hsame
    rw [Beat.gate_meets, hfree]
  | @waiting sh sh' w hscene hheld =>
    have halike := w.resume_alike env sees_scene (scene_meets env hscene b) token epoch b.reply
    have herror := w.resume_error env token epoch (b.meets env sh) b.reply
    have hgate := w.resume_overlooked env (overlooks_gate guard) token epoch (b.meets env sh') b.reply
    rw [Beat.gate_meets] at hgate
    show InStep guard epoch (andThen (w.resume env token epoch (b.meets env sh) b.reply) (.direct epoch) (finishDirect epoch))
      (andThen (andThen (w.resume env token epoch (b.meets env sh') b.reply) _ _) (.filling epoch) (finishFilling guard epoch))
    rcases hr : w.resume env token epoch (b.meets env sh) b.reply with ⟨a, turn⟩
    rcases hr' : w.resume env token epoch (b.meets env sh') b.reply with ⟨a', turn'⟩
    rw [hr, hr'] at halike
    obtain ⟨hview, hturn⟩ := halike
    cases hturn
    rw [hr] at herror
    rw [hr'] at hgate
    cases turn with
    | waits w' => exact .waiting w' hview (by rw [show a'.gate guard = _ from hgate]; exact hheld)
    | ends r => exact finish_inStep hview r herror

/-- Both begin with the same look at the token. -/
theorem start_inStep {record : Record} (hr : record.resumePoint none = epoch) (hfree : (sh.gate guard).held = false) :
    InStep guard epoch (dispatch guard token epoch sh (.ok record)) (fill guard token epoch epoch sh) := by
  have hnlt : ¬ epoch < epoch := UInt64.lt_irrefl epoch
  have henter := enter_admitted hfree (.headDeferred epoch epoch)
  -- What the pass counts and logs before its epoch does not show.
  have hscene : (((sh.setGate guard ⟨true⟩).log (.headFillsGap epoch epoch)).count .catchupRun |>.log
      (.passStarted epoch epoch)).scene = sh.scene := by
    rw [scene_quiet _ rfl, scene_run, scene_quiet _ rfl, scene_setGate]
  have hcancelled := sees_scene.isCancelled hscene token
  simp only [dispatch, hr, if_neg hnlt, fill, henter, Pass.start, gt_iff_lt, Pass.enter, EpochWrite.start, hcancelled]
  cases hc : sh.isCancelled token with
  | true =>
    refine .ended ?_ (gate_exit _ guard) .interrupted
    rw [Shared.exit, scene_setGate, scene_quiet _ rfl, hscene]
    exact (scene_quiet sh rfl).symm
  | false =>
    refine .waiting .beginning (sees_scene.make hscene _) ?_
    cases guard <;> rfl

/-! ## To the end -/

/-- What the two ways to write `epoch` have in common, from the turn on that follows the record. -/
structure Agree (guard : Guard) (token : Token) (epoch : Epoch) (direct filling : Shared × Turn HeadUpdate HeadOutcome) :
    Prop where
  inStep : ∀ beats, InStep guard epoch (drive env (resume env guard token) direct beats)
    (drive env (resume env guard token) filling beats)
  store : ∀ beats, (drive env (resume env guard token) filling beats).1.store =
    (drive env (resume env guard token) direct beats).1.store
  ends : ∀ beats : Nat → Beat, ∃ n o o', Corresponds epoch o o' ∧
    (drive env (resume env guard token) direct ((List.range n).map beats)).2 = .ends o ∧
    (drive env (resume env guard token) filling ((List.range n).map beats)).2 = .ends o'

/-- The direct write of an epoch does what a guarded pass over this epoch does, and tells the
    same but for interruptions. -/
theorem paths_agree (guard : Guard) (token : Token) {epoch : Epoch} {sh : Shared} {record : Record}
    (hr : record.resumePoint none = epoch) (hfree : (sh.gate guard).held = false) :
    Agree env guard token epoch (dispatch guard token epoch sh (.ok record)) (fill guard token epoch epoch sh) := by
  have hstep : ∀ beats, InStep guard epoch (drive env (resume env guard token) (dispatch guard token epoch sh (.ok record)) beats)
      (drive env (resume env guard token) (fill guard token epoch epoch sh) beats) := by
    intro beats
    induction beats using List.reverseRecOn with
    | nil => exact start_inStep hr hfree
    | append_singleton beats b ih =>
      rw [drive_snoc, drive_snoc]
      exact ih.beat env b
  refine ⟨hstep, fun beats => congrArg Scene.store (hstep beats).scene, fun beats => ?_⟩
  have hstart := (dispatch_falls guard token epoch sh (.ok record)).mono (fun _ _ hu => hu.1) fun _ _ _ => trivial
  obtain ⟨n, o, ho⟩ := drive_ends env passBelow_wf left InRange (fun sh u reply h => u.resume_falls env guard token sh reply h)
    hstart beats
  obtain ⟨o', hsame, ho'⟩ := (hstep ((List.range n).map beats)).ends ho
  exact ⟨n, o, o', hsame, ho, ho'⟩

/-- Nothing is committed, and the chain serves one committee for each epoch. -/
def servesOne : Shared := (System.opened [] (fun slot => [⟨slot, 0, [7]⟩]) []).shared

/-- Epoch 6 after epoch 5, with a committee that is put in vain. -/
theorem paths_agree_put_refused :
    let beats : List Beat := [⟨[], .granted⟩, ⟨[], .granted⟩, ⟨[], .failed (.reported ["full"])⟩]
    let direct := drive .plain (resume .plain .service (.root 0)) (dispatch .service (.root 0) 6 servesOne (.ok ⟨5⟩)) beats
    let filling := drive .plain (resume .plain .service (.root 0)) (fill .service (.root 0) 6 6 servesOne) beats
    InStep .service 6 direct filling ∧ direct.2 = .ends (.failed ⟨6, .fetch, .putCommittee 24 0 (.reported ["full"])⟩) := by
  have hnext : Record.resumePoint ⟨5⟩ none = 6 := rfl
  have hfree : (servesOne.gate .service).held = false := rfl
  exact ⟨(paths_agree .plain .service (.root 0) hnext hfree).inStep _, rfl⟩

/-- The token is cancelled while both wait for their transaction. -/
theorem interruption_told_apart :
    let beats : List Beat := [⟨[.cancel (.root 0)], .granted⟩]
    (drive .plain (resume .plain .service (.root 0)) (dispatch .service (.root 0) 6 servesOne (.ok ⟨5⟩)) beats).2 =
      .ends (.failed (.cancelled 6)) ∧
    (drive .plain (resume .plain .service (.root 0)) (fill .service (.root 0) 6 6 servesOne) beats).2 =
      .ends (.cancelled 6) :=
  ⟨rfl, rfl⟩

end HeadUpdate

end CommitteeSync
