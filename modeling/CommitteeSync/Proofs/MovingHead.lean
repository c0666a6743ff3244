/-
  CommitteeSync.Proofs.MovingHead — following a moving head comes to one pass.

  Following the head starts a pass, looks at the clock when it is complete, and starts
  another one if the head has moved on. Beside it, driven by the same beats, goes a single
  pass from the same resume point up to the target of the last of these passes.

  Proved for all readings of the clock and all beats (`Follow.follows_as_one_pass`):
  (1) The two have made the same calls, have left the same in the store, and wait for the
      same step of the same epoch or have come to the same report.
  (2) The target is the largest reading of the clock. Only a completed report comes with a
      reading that started no pass.
  (3) No epoch below the resume point is touched; those from there on are committed in
      order and each once, across all the passes.
  (4) However the clock moves, it comes to an end.

  Between two passes the single one has a rest before it (`onward`), which is what following
  the head goes on to do if the clock allows (`lookAgain_tracks`). While the head has not
  reached the resume point the passes are empty and the single pass has not begun.
-/

import CommitteeSync.Proofs.PassAlone
import CommitteeSync.Proofs.Targets

namespace CommitteeSync

open Turn

variable (env : Setup)

/-! ## What shows of a pass -/

/-- The store, the calls and the ends of transactions, what is counted but for the passes
    themselves, the epochs committed, the chain and the tokens. -/
structure Scene where
  store : Store
  deals : List Mark
  telemetry : Telemetry
  log : List Epoch
  chain : Slot → List Assignment
  tokens : Tokens

namespace Shared

variable {sh sh' : Shared}

def scene (sh : Shared) : Scene :=
  ⟨sh.store, sh.trace.toList.filter Mark.isDeal, { sh.telemetry with catchupRuns := 0 }, sh.commitLog, sh.chain, sh.tokens⟩

theorem scene_mark (sh : Shared) (m : Mark) :
    (sh.mark m).scene = { sh.scene with deals := sh.scene.deals ++ [m].filter Mark.isDeal } := by
  simp [scene, mark, commitLog]

theorem scene_log (sh : Shared) (e : Event) : (sh.log e).scene = { sh.scene with log := sh.scene.log ++ e.committed?.toList } := by
  rw [scene, commitLog_log]
  rfl

/-- An event that tells of no commit does not show. -/
theorem scene_quiet (sh : Shared) {e : Event} (h : e.committed? = none) : (sh.log e).scene = sh.scene := by
  rw [scene_log, h, Option.toList_none, List.append_nil]

theorem scene_count (sh : Shared) (s : Telemetry.Step) :
    (sh.count s).scene = { sh.scene with telemetry := { sh.scene.telemetry.apply s with catchupRuns := 0 } } := by
  cases s <;> rfl

theorem scene_run (sh : Shared) : (sh.count .catchupRun).scene = sh.scene := rfl

theorem scene_readClock (sh : Shared) : sh.readClock.1.scene = sh.scene := by
  unfold readClock
  split
  · rw [scene_mark]
    simp [Mark.isDeal]
  · rw [scene_mark]
    simp [Mark.isDeal]
  · rw [scene_mark]
    simp [Mark.isDeal, scene, commitLog]

theorem sees_scene : Sees scene where
  chain h := congrArg Scene.chain h
  tokens h := congrArg Scene.tokens h
  make h call := by rw [make, make, scene_mark, scene_mark, h]
  log h event := by rw [scene_log, scene_log, h]
  count h step := by rw [scene_count, scene_count, h]
  beginTx h := congrArg (fun s : Scene => { s with store := s.store.begin }) h
  commitTx h tx := congrArg (fun s : Scene => { s with store := s.store.commit tx }) h
  cancelTx h tx := by
    have hcancel : ∀ sh : Shared, (sh.cancelTx tx).scene =
        { sh.scene with store := sh.scene.store.cancel, deals := sh.scene.deals ++ [.cancelTx tx.staged] } := by
      intro sh
      rw [cancelTx, scene_mark]
      rfl
    rw [hcancel, hcancel, h]

theorem scene_change (h : sh'.scene = sh.scene) (c : Change) : (c.apply env sh').scene = (c.apply env sh).scene := by
  have hsend := Shared.send_view scene fun _ _ _ => rfl
  have hdrop := Shared.dropSender_view scene fun _ _ _ => rfl
  cases c with
  | serve chain => exact congrArg (fun s : Scene => { s with chain }) h
  | cancel token => exact congrArg (fun s : Scene => { s with tokens := s.tokens.cancel token }) h
  | send event => exact (hsend sh' _ event).trans (h.trans (hsend sh _ event).symm)
  | endStream => exact (hdrop sh').trans (h.trans (hdrop sh).symm)
  | _ => exact h

theorem scene_meets (h : sh'.scene = sh.scene) (b : Beat) : (b.meets env sh').scene = (b.meets env sh).scene := by
  unfold Beat.meets
  induction b.changes generalizing sh sh' with
  | nil => exact h
  | cons c changes ih => exact ih (scene_change env h c)

theorem Covers.of_scene {sh₀ : Shared} {resume target : Epoch} {done : List Epoch}
    (h : sh₀.Covers env sh resume target done) (hscene : sh'.scene = sh.scene) : sh₀.Covers env sh' resume target done := by
  have hlog : sh'.commitLog = sh.commitLog := congrArg Scene.log hscene
  have hcalls : sh'.calls = sh.calls := by
    have hdeals : sh'.account.deals = sh.account.deals := congrArg Scene.deals hscene
    rw [← calls_account sh', ← calls_account sh, Account.calls, Account.calls, hdeals]
  obtain ⟨calls, hnew, hrest⟩ := h.calls
  exact ⟨hlog.trans h.log, h.within, calls, hcalls.trans hnew, hrest⟩

end Shared

open Shared

/-! ## The one pass -/

namespace Follow

/-- The target so far. -/
def goal : Turn Follow Report → Epoch
  | .waits f => f.pass.report.target
  | .ends r => r.target

/-- The pass up to `target` that all the passes so far are a part of. -/
def merge (target : Epoch) (f : Follow) : Pass := ⟨f.total.extend target f.pass.report, f.pass.epoch, f.pass.write⟩

/-- Nothing went wrong so far, and the present pass is not an empty one. -/
structure Sound (f : Follow) : Prop where
  outcome : f.pass.report.outcome = .completed
  resume : f.total.resume ≤ f.pass.report.target
  epoch : f.pass.epoch ≤ f.pass.report.target

/-- `t'` is where one pass up to `T` is when following the head has got to `t`, unless that is
    past `T` already or has stopped short of it. -/
def Tracks (T : Epoch) (t' : Shared × Turn Pass Report) (t : Shared × Turn Follow Report) : Prop :=
  Yields t (fun sh f => f.pass.report.target ≤ T → f.Sound ∧ t'.1.scene = sh.scene ∧ t'.2 = .waits (f.merge T))
    (fun sh r => r.target = T → t'.1.scene = sh.scene ∧ t'.2 = .ends r)

/-- What is left of one pass up to `T` when `total` is done. -/
def onward (token : Token) (T : Epoch) (total : Report) (sh : Shared) : Shared × Turn Pass Report :=
  if total.target < total.resume then Pass.start token total.resume T sh
  else if total.target = T then (sh.log (.passCompleted total.resume T total.processed), .ends total)
  else Pass.enter token { total with target := T } (total.target + 1) sh

variable {token : Token} {total : Report} {sh sh' : Shared} {T head epoch : Epoch}

/-- A pass at its beginning adds no more than its target. -/
theorem extend_empty (h : total.outcome = .completed) (resume target : Epoch) :
    total.extend T (Report.empty resume target) = { total with target := T } := by
  simp only [Report.extend, Report.empty, Option.none_or, UInt64.add_zero, h]

/-- One more epoch of the present pass is one more of all of them. -/
theorem extend_commit (total report : Report) (T epoch : Epoch) :
    total.extend T { report with lastCommitted := some epoch, processed := report.processed + 1 } =
      { total.extend T report with lastCommitted := some epoch, processed := (total.extend T report).processed + 1 } := by
  simp only [Report.extend, Option.some_or, UInt64.add_assoc]

/-! ## Looking again -/

theorem lookAgain_incomplete (h : total.isCompleted = false) : lookAgain token total sh = (sh, .ends total) := by
  rw [lookAgain, h]
  rfl

theorem lookAgain_reached (hc : total.isCompleted) (h : sh.readClock.2 ≤ total.target) :
    lookAgain token total sh = (sh.readClock.1, .ends total) := by
  rw [lookAgain, if_pos hc, dif_neg (UInt64.not_lt.2 h)]

/-- Another pass, and what comes after it. -/
def another (token : Token) (total : Report) (head : Epoch) (t : Shared × Turn Pass Report) : Shared × Turn Follow Report :=
  andThen t (Follow.mk total) fun after report => lookAgain token (total.extend head report) after

theorem lookAgain_ahead (hc : total.isCompleted) (h : total.target < sh.readClock.2) :
    lookAgain token total sh = another token total sh.readClock.2
      (Pass.start token (max total.resume (nextEpoch total.target)) sh.readClock.2 sh.readClock.1) := by
  rw [lookAgain, if_pos hc, dif_pos h, another]
  rcases Pass.start token (max total.resume (nextEpoch total.target)) sh.readClock.2 sh.readClock.1 with ⟨after, p | r⟩ <;> rfl

theorem start_eq (token : Token) (resume : Epoch) (sh : Shared) :
    start token resume sh = another token (Report.empty resume sh.readClock.2) sh.readClock.2
      (Pass.start token resume sh.readClock.2 sh.readClock.1) := by
  rw [start, another]
  rcases Pass.start token resume sh.readClock.2 sh.readClock.1 with ⟨after, p | r⟩ <;> rfl

/-- An epoch of the present pass is entered where the one pass enters it. -/
theorem enter_tracks {t' : Shared × Turn Pass Report} (report : Report) (hout : report.outcome = .completed)
    (hresume : total.resume ≤ report.target) (hepoch : epoch ≤ report.target)
    (ht' : report.target ≤ T → ∃ sh', sh'.scene = sh.scene ∧ t' = Pass.enter token (total.extend T report) epoch sh') :
    Tracks T t' (another token total report.target (Pass.enter token report epoch sh)) := by
  unfold Pass.enter
  cases hc : sh.isCancelled token with
  | true =>
    simp only [if_true]
    show Tracks T _ (lookAgain token (total.extend report.target { report with outcome := .cancelled }) _)
    rw [lookAgain_incomplete rfl]
    rintro (rfl : report.target = T)
    obtain ⟨sh', h, rfl⟩ := ht' (UInt64.le_refl _)
    rw [Pass.enter, sees_scene.isCancelled h, if_pos hc]
    exact ⟨sees_scene.log h _, rfl⟩
  | false =>
    intro hle
    obtain ⟨sh', h, rfl⟩ := ht' hle
    rw [Pass.enter, sees_scene.isCancelled h, hc, if_neg Bool.false_ne_true]
    exact ⟨⟨hout, hresume, hepoch⟩, sees_scene.make h _, rfl⟩

/-- The passes so far completed, and all of them were empty if none reached the first resume point. -/
structure Told (total : Report) : Prop where
  outcome : total.outcome = .completed
  empty : total.target < total.resume → total = Report.empty total.resume total.target

theorem Told.isCompleted (h : Told total) : total.isCompleted := by
  rw [Report.isCompleted, h.outcome]

/-- The next pass after passes that reached the first resume point goes on where they ended. -/
theorem max_of_reached {resume target : Epoch} (hle : resume ≤ target) (hne : target ≠ lastWord) :
    max resume (nextEpoch target) = target + 1 := by
  rw [nextEpoch_of_ne hne]
  apply UInt64.toNat_inj.1
  rw [UInt64.le_iff_toNat_le] at hle
  rw [toNat_max, toNat_succ hne]
  omega

theorem max_of_before {resume target : Epoch} (hlt : target < resume) : max resume (nextEpoch target) = resume := by
  apply UInt64.toNat_inj.1
  rw [UInt64.lt_iff_toNat_lt] at hlt
  rw [toNat_max, toNat_nextEpoch]
  omega

theorem onward_before (h : total.target < total.resume) (sh : Shared) :
    onward token T total sh = Pass.start token total.resume T sh := if_pos h

theorem onward_reached (h : total.resume ≤ total.target) (sh : Shared) :
    onward token T total sh =
      if total.target = T then (sh.log (.passCompleted total.resume T total.processed), .ends total)
      else Pass.enter token { total with target := T } (total.target + 1) sh := if_neg (UInt64.not_lt.2 h)

/-- While the head has not reached the first resume point the one pass has not begun; then it begins. -/
theorem first_tracks {resume target : Epoch} (h : sh'.scene = sh.scene)
    (hlook : ∀ sh : Shared, sh'.scene = sh.scene → head < resume →
      Tracks T (Pass.start token resume T sh') (lookAgain token (Report.empty resume head) sh)) :
    Tracks T (Pass.start token resume T sh')
      (another token (Report.empty resume target) head (Pass.start token resume head sh)) := by
  by_cases hlt : head < resume
  · rw [Pass.start_empty token hlt]
    exact hlook _ (h.trans (scene_quiet _ rfl).symm) hlt
  · have hle := UInt64.not_lt.1 hlt
    have hbegin : ∀ T sh, resume ≤ T → Pass.start token resume T sh =
        Pass.enter token (Report.empty resume T) resume ((sh.count .catchupRun).log (.passStarted resume T)) := by
      intro T sh hT
      rw [Pass.start, if_neg (UInt64.not_lt.2 hT)]
    rw [hbegin head sh hle]
    refine enter_tracks (Report.empty resume head) rfl hle hle fun hT => ⟨_, ?_, hbegin T sh' (UInt64.le_trans hle hT)⟩
    rw [scene_quiet _ rfl, scene_quiet _ rfl, scene_run, scene_run, h]

theorem lookAgain_tracks (ht : Told total) (h : sh'.scene = sh.scene) :
    Tracks T (onward token T total sh') (lookAgain token total sh) := by
  induction hn : lastWord.toNat - total.target.toNat using Nat.strong_induction_on generalizing total sh with
  | _ n ih =>
    subst hn
    have hclock : sh'.scene = sh.readClock.1.scene := h.trans (scene_readClock sh).symm
    by_cases hahead : total.target < sh.readClock.2
    · rw [lookAgain_ahead ht.isCompleted hahead]
      by_cases hbefore : total.target < total.resume
      · rw [max_of_before hbefore, onward_before hbefore]
        have htotal := ht.empty hbefore
        generalize total.resume = resume at *
        generalize total.target = target at *
        subst htotal
        refine first_tracks hclock fun sh₁ h₁ hhead => ?_
        have hfalls : lastWord.toNat - sh.readClock.2.toNat < lastWord.toNat - target.toNat := by
          have hlast := toNat_le_lastWord sh.readClock.2
          rw [UInt64.lt_iff_toNat_lt] at hahead
          rw [toNat_lastWord]
          omega
        have hlook : Tracks T (onward token T (Report.empty resume sh.readClock.2) sh') _ :=
          ih _ hfalls ⟨rfl, fun _ => rfl⟩ h₁ rfl
        rwa [onward_before hhead] at hlook
      · have hreached := UInt64.not_lt.1 hbefore
        have hnext := UInt64.lt_iff_toNat_lt.1 hahead
        have hne := ne_lastWord_of_lt hahead
        have hle : total.target + 1 ≤ sh.readClock.2 := by
          rw [UInt64.le_iff_toNat_le, toNat_succ hne]
          omega
        rw [max_of_reached hreached hne, Pass.start, if_neg (UInt64.not_lt.2 hle)]
        have hwithin : total.resume ≤ sh.readClock.2 := UInt64.le_trans hreached (UInt64.le_of_lt hahead)
        refine enter_tracks (Report.empty (total.target + 1) sh.readClock.2) rfl hwithin hle fun hT => ⟨sh', ?_, ?_⟩
        · rw [scene_quiet _ rfl, scene_run, hclock]
        · have hnot : total.target ≠ T := by
            rintro rfl
            exact absurd hahead (UInt64.not_lt.2 hT)
          rw [onward_reached hreached, if_neg hnot, extend_empty ht.outcome]
    · rw [lookAgain_reached ht.isCompleted (UInt64.not_lt.1 hahead)]
      rintro rfl
      rw [onward]
      split
      · rename_i hbefore
        rw [Pass.start_empty token hbefore]
        exact ⟨(scene_quiet _ rfl).trans hclock, congrArg Turn.ends (ht.empty hbefore).symm⟩
      · rw [if_pos rfl]
        exact ⟨(scene_quiet _ rfl).trans hclock, rfl⟩

/-! ## Turn by turn -/

theorem start_tracks (h : sh'.scene = sh.scene) (resume : Epoch) :
    Tracks T (Pass.start token resume T sh') (start token resume sh) := by
  rw [start_eq]
  refine first_tracks (h.trans (scene_readClock sh).symm) fun sh₁ h₁ hhead => ?_
  have hlook : Tracks T (onward token T (Report.empty resume sh.readClock.2) sh') _ :=
    lookAgain_tracks ⟨rfl, fun _ => rfl⟩ h₁
  rwa [onward_before hhead] at hlook

theorem settle_tracks {report : Report} (hout : report.outcome = .completed) (hresume : total.resume ≤ report.target)
    (hepoch : epoch ≤ report.target) (hT : report.target ≤ T) (h : sh'.scene = sh.scene) (r : EpochWrite.Result) :
    Tracks T (Pass.settle token (total.extend T report) epoch sh' r)
      (another token total report.target (Pass.settle token report epoch sh r)) := by
  cases r with
  | error error =>
    have hstops : ∀ target, (total.extend target { report with outcome := Pass.outcomeOf error }).isCompleted = false := by
      intro target
      simp only [Report.isCompleted, Report.extend]
      split
      · rename_i hc
        exact absurd hc (Pass.outcomeOf_ne error)
      · rfl
    show Tracks T _ (lookAgain token (total.extend _ { report with outcome := Pass.outcomeOf error }) _)
    rw [lookAgain_incomplete (hstops _)]
    rintro rfl
    exact ⟨sees_scene.log h _, rfl⟩
  | ok n =>
    simp only [Pass.settle]
    let report' : Report := { report with lastCommitted := some epoch, processed := report.processed + 1 }
    by_cases hlast : epoch = report.target
    · -- The present pass is complete, and the one pass is where it would go on from there.
      subst hlast
      have honward : onward token T (total.extend report.target report') sh' =
          Pass.settle token (total.extend T report) report.target sh' (.ok n) := by
        rw [onward_reached (show (total.extend report.target report').resume ≤ _ from hresume), Pass.settle, ← extend_commit]
        show (if report.target = T then _ else _) = if report.target = T then _ else _
        split
        · rename_i hdone
          subst hdone
          rfl
        · rfl
      have hlook : Tracks T (onward token T (total.extend report.target report') sh')
          (lookAgain token (total.extend report.target report')
            (sh.log (.passCompleted report.resume report.target report'.processed))) :=
        lookAgain_tracks ⟨hout, fun hlt => absurd hlt (UInt64.not_lt.2 hresume)⟩ (h.trans (scene_quiet sh rfl).symm)
      rw [honward] at hlook
      rw [if_pos rfl]
      exact hlook
    · have hlt := UInt64.lt_of_le_of_ne hepoch hlast
      have hnot : epoch ≠ T := by
        rintro rfl
        exact absurd hlt (UInt64.not_lt.2 hT)
      have hnext : epoch + 1 ≤ report.target := by
        rw [UInt64.le_iff_toNat_le, toNat_succ (ne_lastWord_of_lt hlt)]
        rw [UInt64.lt_iff_toNat_lt] at hlt
        omega
      rw [if_neg hlast, if_neg (show ¬ epoch = (total.extend T report).target from hnot)]
      exact enter_tracks report' hout hresume hnext fun _ => ⟨sh', h, by rw [extend_commit]⟩

theorem resume_tracks {f : Follow} (hf : f.Sound) (hT : f.pass.report.target ≤ T) (h : sh'.scene = sh.scene) (reply : Reply) :
    Tracks T ((f.merge T).resume env token sh' reply) (f.resume env token sh reply) := by
  show Tracks T _ (another token f.total f.pass.report.target (f.pass.resume env token sh reply))
  have halike := EpochWrite.resume_alike env sees_scene h token f.pass.epoch f.pass.write reply
  rw [Pass.resume, Pass.resume]
  show Tracks T (andThen (f.pass.write.resume env token f.pass.epoch sh' reply) _ _) _
  generalize f.pass.write.resume env token f.pass.epoch sh reply = t at halike ⊢
  generalize f.pass.write.resume env token f.pass.epoch sh' reply = t' at halike ⊢
  obtain ⟨sh₁, w | r⟩ := t
  · obtain ⟨sh₁', turn⟩ := t'
    cases halike.turn
    exact fun _ => ⟨⟨hf.outcome, hf.resume, hf.epoch⟩, halike.view, rfl⟩
  · obtain ⟨sh₁', turn⟩ := t'
    cases halike.turn
    exact settle_tracks hf.outcome hf.resume hf.epoch hT halike.view r

/-- The target of following the head only moves forward. -/
theorem resume_goal (token : Token) (sh : Shared) (f : Follow) (reply : Reply) :
    Yields (f.resume env token sh reply) (fun _ f' => f.pass.report.target ≤ f'.pass.report.target)
      (fun _ r => f.pass.report.target ≤ r.target) :=
  (resume_completion env token sh f reply).mono (fun _ _ h => h.2) fun _ _ h => h.target

theorem beat_tracks {t' : Shared × Turn Pass Report} {t : Shared × Turn Follow Report} (h : Tracks T t' t) (b : Beat) :
    Tracks T (beat env (Pass.resume env token) t' b) (beat env (Follow.resume env token) t b) := by
  obtain ⟨sh, f | r⟩ := t
  · by_cases hT : f.pass.report.target ≤ T
    · obtain ⟨hf, hscene, hturn⟩ := h hT
      obtain ⟨sh', turn⟩ := t'
      cases hturn
      exact resume_tracks env hf hT (scene_meets env hscene b) b.reply
    · -- Past `T` there is nothing to keep up with any more.
      refine (resume_goal env token (b.meets env sh) f b.reply).mono ?_ ?_
      · intro _ f' hle hT'
        exact absurd (UInt64.le_trans hle hT') hT
      · rintro _ r hle rfl
        exact absurd hle hT
  · intro htarget
    obtain ⟨hscene, hturn⟩ := h htarget
    obtain ⟨sh', turn⟩ := t'
    cases hturn
    exact ⟨scene_meets env hscene b, rfl⟩

theorem drive_tracks (token : Token) (resume T : Epoch) (sh : Shared) (beats : List Beat) :
    Tracks T (drive env (Pass.resume env token) (Pass.start token resume T sh) beats)
      (drive env (Follow.resume env token) (start token resume sh) beats) := by
  induction beats using List.reverseRecOn with
  | nil => exact start_tracks rfl resume
  | append_singleton beats b ih =>
    rw [drive_snoc, drive_snoc]
    exact beat_tracks env ih b

/-! ## One pass -/

/-- A wait of the last pass as a wait of the one pass up to the same target; a report as it is. -/
def asOne : Turn Follow Report → Turn Pass Report
  | .waits f => .waits (f.merge f.pass.report.target)
  | .ends r => .ends r

/-- Whether the passes are over and complete. -/
def completed : Turn Follow Report → Bool
  | .waits _ => false
  | .ends r => r.isCompleted

/-- Following the head from `resume` on, begun at `sh`, has come to `t` where one pass up to
    the last target has come to `t'`. -/
structure OnePass (resume : Epoch) (sh : Shared) (t : Shared × Turn Follow Report) (t' : Shared × Turn Pass Report) : Prop where
  /-- The store, the calls and the ends of transactions, and all else that a pass leaves. -/
  scene : t.1.scene = t'.1.scene
  /-- The same step of the same epoch, or the same report. -/
  turn : t'.2 = asOne t.2
  /-- The passes started, and the one reading that started none. -/
  passes : ∃ ranges last?, Ranged resume (goal t.2) sh t.1 ranges last? ∧ last?.isSome = completed t.2
  /-- The last target is the largest reading. -/
  largest : ∃ read, t.1.readings = sh.readings ++ read ∧ goal t.2 ∈ read ∧ ∀ e ∈ read, e ≤ goal t.2
  covers : ∃ done, sh.Covers env t.1 resume (goal t.2) done ∧ ∀ r, t.2 = .ends r →
    r.lastCommitted = done.getLast? ∧ r.processed = .ofNat done.length ∧ (r.isCompleted ↔ done = upTo resume r.target)

theorem onePass_drive (token : Token) (resume : Epoch) (sh : Shared) (beats : List Beat) :
    let t := drive env (Follow.resume env token) (start token resume sh) beats
    OnePass env resume sh t (drive env (Pass.resume env token) (Pass.start token resume (goal t.2) sh) beats) := by
  dsimp only
  have htargets := drive_targets env token resume sh beats
  have htracks := drive_tracks env token resume (goal (drive env (Follow.resume env token) (start token resume sh) beats).2) sh beats
  obtain ⟨done, hdone, hreport⟩ :=
    pass_covers env token resume (goal (drive env (Follow.resume env token) (start token resume sh) beats).2) sh beats
  generalize drive env (Follow.resume env token) (start token resume sh) beats = t at htargets htracks hdone hreport ⊢
  generalize drive env (Pass.resume env token) (Pass.start token resume (goal t.2) sh) beats = t' at htracks hdone hreport ⊢
  obtain ⟨sh₁, f | r⟩ := t
  · obtain ⟨-, hscene, hturn⟩ := htracks (UInt64.le_refl _)
    obtain ⟨-, ranges, hr⟩ := htargets
    exact ⟨hscene.symm, hturn, ⟨ranges, none, hr, rfl⟩, hr.largest nofun, done, hdone.of_scene env hscene.symm, nofun⟩
  · obtain ⟨hscene, hturn⟩ := htracks rfl
    obtain ⟨ranges, last?, hr, hsome, hlast⟩ := htargets
    refine ⟨hscene.symm, hturn, ⟨ranges, last?, hr, hsome⟩, hr.largest hlast, done, hdone.of_scene env hscene.symm, ?_⟩
    rintro r' he
    cases he
    obtain ⟨sh₁', turn⟩ := t'
    cases hturn
    exact hreport

/-- Following a moving head comes to what one pass comes to up to the largest reading of the
    clock, wherever the readings lie, whatever fails and whenever the token is cancelled; and
    it comes to an end. -/
theorem follows_as_one_pass (token : Token) (resume : Epoch) (sh : Shared) :
    (∀ beats, let t := drive env (Follow.resume env token) (start token resume sh) beats
      OnePass env resume sh t (drive env (Pass.resume env token) (Pass.start token resume (goal t.2) sh) beats)) ∧
    ∀ beats : Nat → Beat, ∃ n r,
      (drive env (Follow.resume env token) (start token resume sh) ((List.range n).map beats)).2 = .ends r := by
  refine ⟨fun beats => onePass_drive env token resume sh beats, fun beats => ?_⟩
  exact drive_ends env followBelow_wf left (fun f => f.pass.epoch ≤ f.pass.report.target)
    (fun sh f reply h => resume_falls env token sh f reply h) (start_within token resume sh) beats

/-- The head is below the resume point at first, moves past it, and falls back. -/
example :
    let t := drive .plain (Follow.resume .plain (.root 0))
      (start (.root 0) 2 (System.opened [] (fun _ => []) [1, 3, 2]).shared) (List.replicate 8 ⟨[], .granted⟩)
    t.1.readings = [1, 3, 2] ∧ t.1.ranges = [(2, 1), (2, 3)] ∧ t.1.commitLog = [2, 3] ∧ completed t.2 := by
  decide +kernel

end Follow

end CommitteeSync
