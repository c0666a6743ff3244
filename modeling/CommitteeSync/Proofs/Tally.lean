/-
  CommitteeSync.Proofs.Tally — the counters tell what happened.

  What happened is read off the run itself: the commits and the runs from the store and the
  log, the rest from the turns of the tasks. A turn hands over head events, may end the
  write of an epoch with a result, may find a record that cannot be read and may be denied a
  pass (`System.handed`, `results`, `misread`, `denials`).

  Proved, for whatever tasks are about but staging requests, in any interleaving, with any
  calls failing and any tokens cancelled (`telemetry_tallies`):
  (1) Each counter shows the number of what it counts, none twice and none left out, up to
      the wrap of a word.
  (2) The gauge shows the largest epoch committed, and once there is a commit the record is
      there and not past the gauge.
-/

import CommitteeSync.Proofs.Denial
import CommitteeSync.Proofs.Discipline
import CommitteeSync.Proofs.Reckoning

namespace CommitteeSync

open Turn Shared

variable (env : Setup)

/-! ## Failures -/

theorem Account.failures_miss (a : Account) (counts : Bool) :
    (a.miss counts).failures = a.failures + UInt64.ofNat counts.toNat := by
  cases counts with
  | true => rfl
  | false => exact (UInt64.add_zero _).symm

/-- From `sh` to `sh'` so many failures were counted. -/
def Shared.Counts (sh sh' : Shared) (failures : Nat) : Prop :=
  sh'.account.failures = sh.account.failures + UInt64.ofNat failures

theorem Shared.Counts.of_eq {sh sh' : Shared} (h : sh'.account.failures = sh.account.failures) : sh.Counts sh' 0 :=
  h.trans (UInt64.add_zero _).symm

theorem Shared.Counts.trans {a b c : Shared} {m n : Nat} (h : a.Counts b m) (h' : b.Counts c n) : a.Counts c (m + n) := by
  rw [Counts, h', h, UInt64.ofNat_add, UInt64.add_assoc]

theorem Shared.Proceeds.failures {env : Setup} {σ ρ : Type} {sh : Shared} {token? : Option Token} {mayAsk : Bool}
    {open? : σ → Option (Epoch × EpochWrite)} {wait : σ → Wait} {t : Shared × Turn σ ρ}
    (h : sh.Proceeds env token? mayAsk open? wait t) : t.1.account.failures = sh.account.failures := by
  obtain ⟨sh', s | r⟩ := t
  · have hf := congrArg Account.failures (Opens.account h)
    exact hf
  · have hf := congrArg Account.failures (Keeps.account h)
    exact hf

namespace EpochWrite

/-- A result that counts as a failure. An interruption does not. -/
def isFailure : Result → Bool
  | .ok _ => false
  | .error error => error.stage ≠ .cancelled

/-- A write that is over in the turn in which it starts was interrupted. -/
theorem start_interrupted (token : Token) (epoch : Epoch) (sh : Shared) :
    Yields (start token epoch sh) (fun _ _ => True) (fun _ r => isFailure r = false) := by
  unfold start
  split
  · exact rfl
  · trivial

theorem fail_counts (sh : Shared) (error : EpochError) :
    sh.Counts (fail sh error).1 (isFailure (.error error)).toNat := by
  rw [Shared.Counts, fail_account, Account.failures_miss]
  rfl

theorem abort_counts (sh : Shared) (tx : Transaction) (error : EpochError) :
    sh.Counts (abort sh tx error).1 (isFailure (.error error)).toNat := by
  rw [Shared.Counts, abort_account, Account.failures_miss]
  rfl

theorem record_counts (epoch : Epoch) (sh : Shared) (r : Staging.Result) :
    Yields (record epoch sh r) (fun sh' _ => sh.Counts sh' 0) (fun sh' r => sh.Counts sh' (isFailure r).toNat) := by
  obtain ⟨tx, cause | written⟩ := r
  · exact abort_counts sh tx _
  · exact .of_eq rfl

/-- A turn of an open write counts a failure just if it comes to one. -/
theorem resume_counts (token : Token) (epoch : Epoch) (sh : Shared) (w : EpochWrite) (reply : Reply) :
    Yields (w.resume env token epoch sh reply) (fun sh' _ => sh.Counts sh' 0)
      (fun sh' r => sh.Counts sh' (isFailure r).toNat) := by
  cases w with
  | beginning =>
    simp only [resume]
    split
    · exact fail_counts sh _
    · cases reply with
      | granted => exact .of_eq rfl
      | failed cause => exact fail_counts sh _
  | staging s =>
    simp only [resume]
    split
    · exact abort_counts sh _ _
    · refine (yields_andThen ..).2 ((Staging.resume_course env epoch sh s reply).mono ?_ ?_)
      · intro sh' s' h
        have hf := congrArg Account.failures h.2
        exact .of_eq hf
      · intro sh' r h
        rw [h.1]
        exact record_counts epoch sh r
  | recording tx written =>
    simp only [resume]
    split
    · exact abort_counts sh tx _
    · cases reply with
      | granted => exact .of_eq rfl
      | failed cause => exact abort_counts sh tx _
  | committing tx written =>
    cases reply with
    | granted => exact .of_eq rfl
    | failed cause => exact fail_counts sh _

end EpochWrite

namespace Work

/-- The result of the task's open write, if the write is over in this turn. -/
def result? (sh : Shared) (reply : Reply) (w : Work) : Option EpochWrite.Result :=
  match w.write?, w.token? sh.runToken with
  | some (epoch, v), some token => (v.resume env token epoch sh reply).2.result?
  | _, _ => none

theorem misses_of_open {sh : Shared} {reply : Reply} {w : Work} (h : w.write?.isSome) : w.misses env sh reply = false := by
  have hu : ∀ u : HeadUpdate, u.write?.isSome → u.misses env sh reply = false := by
    intro u hu
    cases u with
    | reading epoch => cases hu
    | _ => rfl
  have hl : ∀ l : Listener, l.write?.isSome → l.misses env sh reply = false := by
    intro l hl
    cases l with
    | idle => rfl
    | handling u => exact hu u hl
  cases w with
  | head guard token u => exact hu u h
  | listen token feed l => exact hl l h
  | startup s =>
    cases s with
    | listening feed l => exact hl l h
    | _ => rfl
  | _ => rfl

/-- A turn counts a failure for the result of a write and for a record that cannot be read. -/
theorem resume_counts (sh : Shared) (w : Work) (reply : Reply) (hk : w.kind ≠ .stage) :
    sh.Counts (w.resume env sh reply).1
      ((w.result? env sh reply).toList.countP EpochWrite.isFailure + (w.misses env sh reply).toNat) := by
  cases hv : w.write? with
  | none =>
    have hf := (Work.resume_closed env sh reply hk hv).failures
    have hresult : w.result? env sh reply = none := by rw [result?, hv]
    rw [Shared.Counts, hf, account_missing, Account.failures_miss, hresult, Option.toList_none, List.countP_nil,
      Nat.zero_add]
  | some ev =>
    obtain ⟨epoch, v⟩ := ev
    obtain ⟨token, htoken, wrap, next, he, -, hnext⟩ := Work.resume_open env sh reply hv
    have hcounts := v.resume_counts env token epoch sh reply
    have hresult : w.result? env sh reply = (v.resume env token epoch sh reply).2.result? := by
      rw [result?, hv, htoken]
    rw [he, hresult, misses_of_open env (by rw [hv]; rfl)]
    rcases hr : v.resume env token epoch sh reply with ⟨sh', v' | r⟩
    · rw [hr] at hcounts
      exact hcounts
    · rw [hr] at hcounts
      have hr' : sh.Counts sh' (EpochWrite.isFailure r).toNat := hcounts
      have hcount : [r].countP EpochWrite.isFailure = (EpochWrite.isFailure r).toNat := by
        cases hfail : EpochWrite.isFailure r <;> simp [hfail]
      show (next sh' r).1.account.failures = _
      rw [(hnext sh' r).failures, Turn.result?, Option.toList_some, hcount]
      exact hr'

end Work

/-! ## What happened in a run -/

namespace System

variable {s s₀ : System} {acts : List Action}

/-- The head events handed over in an action. -/
def handed (s : System) : Action → List HeadEvent
  | .turn id reply => (s.work? id).elim [] (·.handed env s.shared reply)
  | _ => []

/-- The result of the write of an epoch that is over with an action. One that is over as soon
    as it starts was interrupted and is left out (`EpochWrite.start_interrupted`). -/
def results (s : System) : Action → List EpochWrite.Result
  | .turn id reply => ((s.work? id).bind (·.result? env s.shared reply)).toList
  | _ => []

/-- The task that finds in an action that the record it asked for a head event cannot be read. -/
def misread (s : System) : Action → List Nat
  | .turn id reply => if s.misses env id reply then [id] else []
  | _ => []

/-- The task that is denied a pass in an action. -/
def denials (s : System) : Action → List Nat
  | .turn id reply => if (s.work? id).any (·.denied env s.shared reply) then [id] else []
  | _ => []

theorem change_books (c : Change) (sh : Shared) : (c.apply env sh).books = sh.books := by
  cases c with
  | send event => exact Shared.send_view Shared.books (fun _ _ _ => rfl) sh _ event
  | endStream => exact Shared.dropSender_view Shared.books (fun _ _ _ => rfl) sh
  | _ => rfl

/-- What an action does to the counters. -/
structure CountsUp (s s' : System) (a : Action) : Prop where
  reckons : s.shared.Reckons s'.shared (handed env s a).length (denials env s a).length
  failures : s.shared.Counts s'.shared ((results env s a).countP EpochWrite.isFailure + (misread env s a).length)

theorem length_ite (b : Bool) (id : Nat) : (if b then [id] else []).length = b.toNat := by
  cases b <;> rfl

theorem act_countsUp (h : ∀ id w, s.work? id = some w → w.kind ≠ .stage) (a : Action) : CountsUp env s (act env s a) a := by
  cases a with
  | request r => exact ⟨.refl _, .of_eq rfl⟩
  | launch root =>
    simp only [act]
    split
    · exact ⟨.refl _, .of_eq rfl⟩
    · exact ⟨.of_books rfl, .of_eq rfl⟩
  | change c => exact ⟨.of_books (change_books env c _), .of_eq (congrArg Account.failures (change_account env c _))⟩
  | turn id reply =>
    cases hw : s.work? id with
    | none =>
      rw [turn_of_none env reply hw]
      constructor
      · simp only [handed, denials, hw]
        exact .refl _
      · simp only [results, misread, misses, hw]
        exact .of_eq rfl
    | some w =>
      constructor
      · rw [shared_turn env reply hw]
        simp only [handed, denials, hw, Option.elim_some, Option.any_some, length_ite]
        exact w.resume_reckons env s.shared reply (h id w hw)
      · rw [shared_turn env reply hw]
        simp only [results, misread, misses, hw, Option.bind_some, Option.any_some, length_ite]
        exact w.resume_counts env s.shared reply (h id w hw)

theorem run_countsUp (hs : s₀.Idle) (h : Only (fun k => k ≠ .stage) acts) :
    s₀.shared.Reckons (run env s₀ acts).shared (along env (handed env) s₀ acts).length
        (along env (denials env) s₀ acts).length ∧
      s₀.shared.Counts (run env s₀ acts).shared
        ((along env (results env) s₀ acts).countP EpochWrite.isFailure + (along env (misread env) s₀ acts).length) := by
  induction acts using List.reverseRecOn with
  | nil => exact ⟨.refl _, .of_eq rfl⟩
  | append_singleton acts a ih =>
    have hkinds : ∀ id w, (run env s₀ acts).work? id = some w → w.kind ≠ .stage := by
      intro id w hw
      simpa using kinds_run env (by decide) hs h.of_snoc hw
    have hstep := act_countsUp env hkinds a
    obtain ⟨hreckons, hfailures⟩ := ih h.of_snoc
    simp only [along_snoc, run_snoc, List.length_append, List.countP_append]
    refine ⟨hreckons.trans hstep.reckons, ?_⟩
    rw [Nat.add_add_add_comm]
    exact hfailures.trans hstep.failures

/-- The record follows the commits. -/
theorem record_of_commits (hs : s₀.Idle) (h : Only (fun k => k ≠ .stage) acts)
    (hne : (run env s₀ acts).shared.commitLog ≠ []) :
    ∃ epoch ∈ (run env s₀ acts).shared.commitLog, recorded env (run env s₀ acts) = .ok ⟨epoch⟩ := by
  induction acts using List.reverseRecOn with
  | nil => exact absurd hs.log hne
  | append_singleton acts a ih =>
    rw [run_snoc] at hne ⊢
    rcases standing_act env hs h.of_snoc a with hsame | ⟨id, epoch, tx, written, -, -, hcommit⟩
    · have hlog : (act env (run env s₀ acts) a).shared.commitLog = (run env s₀ acts).shared.commitLog :=
        congrArg Standing.log hsame
      have hrecord : recorded env (act env (run env s₀ acts) a) = recorded env (run env s₀ acts) :=
        congrArg Standing.record hsame
      rw [hlog] at hne ⊢
      rw [hrecord]
      exact ih h.of_snoc hne
    · have hlog : (act env (run env s₀ acts) a).shared.commitLog = (run env s₀ acts).shared.commitLog ++ [epoch] :=
        congrArg Standing.log hcommit
      refine ⟨epoch, ?_, (congrArg Standing.record hcommit).trans (Standing.commit_record _ epoch)⟩
      rw [hlog]
      exact List.mem_append_right _ (List.mem_singleton.2 rfl)

/-! ## The counters -/

/-- The word shows the number; past the largest word it has wrapped. -/
def Shows (word : UInt64) (n : Nat) : Prop := word.toNat = n % UInt64.size

theorem shows_iff {word : UInt64} {n : Nat} : Shows word n ↔ word = UInt64.ofNat n := by
  rw [Shows, ← UInt64.toNat_inj, UInt64.toNat_ofNat']

/-- The counters after a run from `s₀` to `s` agree with what happened in it. -/
structure Tallied (s₀ : System) (acts : List Action) (s : System) : Prop where
  /-- The epochs processed are the commits of the store, and the log tells of each. -/
  processed : Shows s.shared.telemetry.epochsProcessed s.shared.store.commits
  committed : s.shared.commitLog.length = s.shared.store.commits
  /-- The gauge shows the largest epoch committed, and 0 if there is none. -/
  latest : s.shared.telemetry.latestEpoch = s.shared.commitLog.max?.getD 0
  /-- Once there is a commit, the record can be read and is not past the gauge. -/
  record : s.shared.commitLog ≠ [] → ∃ r, recorded env s = .ok r ∧ r.latestEpoch ≤ s.shared.telemetry.latestEpoch
  /-- Writes that failed otherwise than by an interruption, and head events without a record. -/
  failures : Shows s.shared.telemetry.epochFailures
    ((along env (results env) s₀ acts).countP EpochWrite.isFailure + (along env (misread env) s₀ acts).length)
  /-- Runs over a range with an epoch in it; a range that follows another is a run of its own. -/
  runs : Shows s.shared.telemetry.catchupRuns s.shared.runs
  denials : Shows s.shared.telemetry.guardDenials (along env (denials env) s₀ acts).length
  heads : Shows s.shared.telemetry.headEvents (along env (handed env) s₀ acts).length

/-- In every state that a run leads to, the counters and the gauge agree with what happened. -/
theorem telemetry_tallies (hs : s₀.Idle) (hzero : s₀.shared.telemetry = .zero) (hnone : s₀.shared.store.commits = 0)
    (h : Only (fun k => k ≠ .stage) acts) : Tallied env s₀ acts (run env s₀ acts) := by
  have hstart : s₀.shared.Balanced := by
    refine ⟨?_, ?_, ?_, ?_⟩
    · rw [hzero, hnone]; rfl
    · rw [hs.log, hnone]; rfl
    · rw [hs.log, hzero]; rfl
    · rw [hzero, Shared.runs, ranges, hs.noEvent]; rfl
  obtain ⟨hreckons, hfailures⟩ := run_countsUp env hs h
  have hend := hreckons.balanced hstart
  refine ⟨shows_iff.2 hend.processed, hend.committed.symm, hend.latest, fun hne => ?_, ?_, shows_iff.2 hend.runs, ?_, ?_⟩
  · obtain ⟨epoch, hmem, hrecord⟩ := record_of_commits env hs h hne
    refine ⟨⟨epoch⟩, hrecord, ?_⟩
    rw [hend.latest]
    exact le_max?_of_mem hmem
  · have hf : s₀.shared.account.failures = 0 := congrArg Telemetry.epochFailures hzero
    rw [Shared.Counts, hf, UInt64.zero_add] at hfailures
    exact shows_iff.2 hfailures
  · have hd := hreckons.denials
    rw [hzero] at hd
    exact shows_iff.2 (hd.trans (UInt64.zero_add _))
  · have hh := hreckons.heads
    rw [hzero] at hh
    exact shows_iff.2 (hh.trans (UInt64.zero_add _))

/-- A range is asked for while a catch-up up to epoch 7 is under way. The catch-up commits
    epoch 6 and fails to begin epoch 7, and of a head event the record cannot be read. -/
def mixedFortunes : List Action :=
  rangeBesideCatchUp ++ .turn 1 .granted :: List.replicate 4 (.turn 0 .granted) ++
  [.turn 0 (.failed (.reported ["full"])), .request (.head .service (.root 0) ⟨32, true⟩), .turn 2 .granted,
    .turn 2 (.failed (.reported ["busy"]))]

theorem telemetry_tallies_mixed :
    let s₀ := opened [("progress", Record.encode ⟨5⟩)] (fun _ => []) [7]
    let s := run .plain s₀ mixedFortunes
    Tallied .plain s₀ mixedFortunes s ∧ s.shared.commitLog = [6] ∧ s.shared.telemetry = ⟨1, 2, 1, 1, 1, 6⟩ := by
  dsimp only
  refine ⟨?_, by decide +kernel, by decide +kernel⟩
  exact telemetry_tallies .plain (opened_idle _ _ _) rfl rfl (by decide)

end System

end CommitteeSync
