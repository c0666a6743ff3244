/-
  CommitteeSync.Proofs.Denial — what an attempt to start a guarded pass comes to.

  Proved, for whatever tasks are about, in any interleaving, with any calls failing and any
  tokens cancelled (`guard_single_flight`):
  (1) At most one task is behind the gate, and the gate is held just while one is. None gets
      there but by an attempt, and however its pass ends, it has left.
  (2) An attempt beside an open pass is denied: the task goes away with nothing, the denial
      is counted once, the store stays as it is, and nothing was called but for the record.
  (3) An attempt with no pass open begins one.
-/

import CommitteeSync.Proofs.Attempts

namespace CommitteeSync

open Turn Shared

variable (env : Setup)

namespace System

variable {s s₀ : System} {acts : List Action} {a : Action} {id : Nat} {reply : Reply}

/-- A turn of the task asks the service's gate for a pass. -/
def attempts (s : System) (id : Nat) (reply : Reply) : Bool := (s.work? id).any (·.attempts env s.shared reply)

theorem attempts_iff : attempts env s id reply ↔ ∃ w, s.work? id = some w ∧ w.attempts env s.shared reply := by
  rw [attempts, Option.any_eq_true]

theorem guarded_stays (h : s.guarded id) (ha : ∀ reply, a ≠ .turn id reply) : (act env s a).guarded id := by
  obtain ⟨w, hw, hg⟩ := guarded_iff.1 h
  exact guarded_iff.2 ⟨w, work?_kept env hw ha, hg⟩

/-- Where the gate is held, a task is behind it. -/
theorem busy_guarded (hs : s₀.Idle) (hfree : s₀.shared.busy = false) (h : (run env s₀ acts).shared.busy) :
    ∃ id, (run env s₀ acts).guarded id := by
  induction acts using List.reverseRecOn with
  | nil =>
    rw [run_nil, hfree] at h
    cases h
  | append_singleton acts a ih =>
    rw [run_snoc] at h ⊢
    by_cases ha : ∃ id reply, a = .turn id reply
    · obtain ⟨id, reply, rfl⟩ := ha
      have hadm := turn_admission env reply ((singleFlight_run env hs acts).busy id)
      rw [hadm.busy, Bool.or_eq_true, Bool.and_eq_true, Bool.not_eq_true'] at h
      rcases h with ⟨hb, hg⟩ | hg
      · obtain ⟨other, ho⟩ := ih hb
        have hne : id ≠ other := fun he => by rw [he, ho] at hg; cases hg
        exact ⟨other, guarded_stays env ho fun r hr => hne (by cases hr; rfl)⟩
      · exact ⟨id, hg⟩
    · have hne : ∀ id reply, a ≠ .turn id reply := fun id reply he => ha ⟨id, reply, he⟩
      rw [act_busy env hne] at h
      obtain ⟨other, ho⟩ := ih h
      exact ⟨other, guarded_stays env ho (hne other)⟩

/-- In every turn of the task so far the store was left alone, no one was called but for
    metadata, and no denial was counted. -/
def QuietSoFar (s₀ : System) (acts : List Action) (id : Nat) : Prop :=
  ∀ before reply, before ++ [.turn id reply] <+: acts →
    (run env s₀ before).shared.Quiet (run env s₀ (before ++ [.turn id reply])).shared 0

theorem QuietSoFar.snoc (h : QuietSoFar env s₀ acts id)
    (ha : ∀ reply, a = .turn id reply → (run env s₀ acts).shared.Quiet (act env (run env s₀ acts) a).shared 0) :
    QuietSoFar env s₀ (acts ++ [a]) id := by
  intro before reply hp
  rcases List.prefix_concat_iff.1 hp with he | hp
  · obtain ⟨hbefore, hturn⟩ := List.append_inj' he rfl
    rw [hbefore, run_snoc, List.singleton_inj.1 hturn]
    exact ha reply (List.singleton_inj.1 hturn).symm
  · exact h before reply hp

/-- Until a task has had more of a turn than it takes to ask for the record, it has been quiet. -/
theorem quietSoFar_run (h : (run env s₀ acts).tasks.length ≤ id ∨
    ∃ w, (run env s₀ acts).work? id = some w ∧ w.isOpening) : QuietSoFar env s₀ acts id := by
  induction acts using List.reverseRecOn with
  | nil =>
    intro before reply hp
    simp at hp
  | append_singleton acts a ih =>
    rw [run_snoc] at h
    -- A task that is not there yet has no turns.
    by_cases hlt : id < (run env s₀ acts).tasks.length
    · rcases h with hge | ⟨w', hw', ho⟩
      · exact absurd (Nat.le_trans (length_act env _ a) hge) (Nat.not_le.2 hlt)
      · by_cases ha : ∃ reply, a = .turn id reply
        · obtain ⟨reply, rfl⟩ := ha
          obtain ⟨w, hw, hr⟩ := work?_turn_eq_some env hw'
          have hy : Yields (w.resume env (run env s₀ acts).shared reply) _ _ := Work.resume_guarded w
          rw [hr] at hy
          obtain ⟨hop, hq⟩ := hy.1 ho
          exact (ih (Or.inr ⟨w, hw, hop⟩)).snoc env fun _ _ => hq
        · have hne : ∀ reply, a ≠ .turn id reply := fun reply he => ha ⟨reply, he⟩
          have hw : (run env s₀ acts).work? id = some w' := by
            rw [work?_eq_some] at hw' ⊢
            rw [← tasks_kept env hlt hne, hw']
          exact (ih (Or.inr ⟨w', hw, ho⟩)).snoc env fun reply he => absurd he (hne reply)
    · have hw : (run env s₀ acts).work? id = none := by
        rw [System.work?, List.getElem?_eq_none (Nat.not_lt.1 hlt)]
      refine (ih (Or.inl (Nat.not_lt.1 hlt))).snoc env fun reply ha => ?_
      rw [ha, turn_of_none env reply hw]
      exact .refl _

/-- What became of a task, from `s` to `s'`, whose attempt was denied. -/
inductive Refused (s s' : System) (id : Nat) (reply : Reply) : Work → Prop
  | catchUp (token : Token) : s'.outcome? id = some (.catchUp (.ok none)) → Refused s s' id reply (.catchUp token .reading)
  | range (token : Token) (resume target : Epoch) : s'.outcome? id = some (.range none) →
      Refused s s' id reply (.asked (.range token resume target))
  | head (token : Token) (epoch : Epoch) : s'.outcome? id = some (.head (.deferred epoch)) →
      Refused s s' id reply (.head .service token (.reading epoch))
  /-- Startup is over before it has subscribed, and there was no fatal error. -/
  | startup : s'.outcome? id = some .startup → s'.shared.captured = s.shared.captured → s'.shared.tokens = s.shared.tokens →
      Refused s s' id reply (.startup .reading)
  /-- The listener goes on to the next events. -/
  | listener (feed : Nat) (epoch : Epoch) : deferral? env s id reply = some epoch →
      Refused s s' id reply (.startup (.listening feed (.handling (.reading epoch))))

theorem attempt_refused (h : attempts env s id reply) (hb : s.shared.busy) :
    s.shared.Quiet (act env s (.turn id reply)).shared 1 ∧
      ∃ w, s.work? id = some w ∧ Refused env s (act env s (.turn id reply)) id reply w := by
  obtain ⟨w, hw, h⟩ := (attempts_iff env).1 h
  rw [shared_turn env reply hw]
  have ho := outcome?_turn env reply hw
  unfold Work.attempts at h
  split at h
  case h_1 token resume target =>
    simp only [Work.resume, Work.start, RangePass.start, enter_busy hb] at ho ⊢
    exact ⟨.denied _ _, _, hw, .range token resume target ho⟩
  case h_2 token =>
    obtain ⟨record, hr⟩ := exists_of_isOk h
    simp only [Work.resume, CatchUp.resume, hr, CatchUp.follow, enter_busy hb] at ho ⊢
    exact ⟨.denied _ _, _, hw, .catchUp token ho⟩
  case h_3 =>
    obtain ⟨record, hr⟩ := exists_of_isOk h
    have hb' : (s.shared.log (.startupResumes (record.resumePoint env.startOverride) record.latestEpoch env.startOverride)).busy := hb
    have hshared := shared_turn env reply hw
    simp only [Work.resume, Startup.resume, hr, Startup.catchUp, enter_busy hb'] at ho hshared ⊢
    refine ⟨?_, _, hw, .startup ho (by rw [hshared]; rfl) (by rw [hshared]; rfl)⟩
    have hq := Quiet.denied s.shared (.passDenied .startup)
    exact ⟨hq.store, hq.calls, hq.denials⟩
  case h_4 token u =>
    obtain ⟨epoch, record, rfl, hr, hlt⟩ := (HeadUpdate.attempts_iff env).1 h
    simp only [Work.resume, HeadUpdate.resume, hr, HeadUpdate.dispatch_denied hb hlt] at ho ⊢
    exact ⟨.denied _ _, _, hw, .head token epoch ho⟩
  case h_5 feed u =>
    obtain ⟨epoch, record, rfl, hr, hlt⟩ := (HeadUpdate.attempts_iff env).1 h
    have hu : (HeadUpdate.reading epoch).resume env .service s.shared.runToken s.shared reply =
        ((s.shared.count .guardDenial).log (.headDeferred (record.resumePoint none) epoch), .ends (.deferred epoch)) := by
      rw [HeadUpdate.resume, hr, HeadUpdate.dispatch_denied hb hlt]
    have hq : s.shared.Quiet ((HeadUpdate.reading epoch).resume env .service s.shared.runToken s.shared reply).1 1 := by
      rw [hu]
      exact .denied _ _
    refine ⟨(Startup.listening_quiet env feed hq).andThen _ fun _ _ => .of_eq rfl rfl rfl, _, hw, .listener feed epoch ?_⟩
    simp only [deferral?, hw, Option.bind_some, Work.update?, hu, Turn.result?, HeadOutcome.deferred?]
  case h_6 => cases h

/-- The task's attempt after `acts` is denied. -/
structure Denied (s₀ : System) (acts : List Action) (id : Nat) (reply : Reply) : Prop where
  refused : ∃ w, (run env s₀ acts).work? id = some w ∧
    Refused env (run env s₀ acts) (run env s₀ (acts ++ [.turn id reply])) id reply w
  /-- One denial is counted, and no one is called for an epoch. -/
  quiet : (run env s₀ acts).shared.Quiet (run env s₀ (acts ++ [.turn id reply])).shared 1
  /-- Nor was anything done on the way to the attempt. -/
  before : ∀ w, (run env s₀ acts).work? id = some w → w.isOpening → QuietSoFar env s₀ acts id
  /-- The pass that is open stays open. -/
  others : ∀ other, (run env s₀ acts).guarded other → (run env s₀ (acts ++ [.turn id reply])).guarded other

/-- The task's attempt after `acts` is admitted. -/
structure Admitted (s₀ : System) (acts : List Action) (id : Nat) (reply : Reply) : Prop where
  begins : (run env s₀ acts).shared.Begins (run env s₀ (acts ++ [.turn id reply])).shared
  outcome : ∀ o, (run env s₀ (acts ++ [.turn id reply])).outcome? id = some o → o.isDenial = false
  /-- The gate is held after the turn just if the pass is still open. -/
  busy : (run env s₀ (acts ++ [.turn id reply])).shared.busy = (run env s₀ (acts ++ [.turn id reply])).guarded id

theorem denied_of_busy (h : attempts env (run env s₀ acts) id reply) (hb : (run env s₀ acts).shared.busy) :
    Denied env s₀ acts id reply := by
  obtain ⟨hq, hr⟩ := attempt_refused env h hb
  rw [← run_snoc] at hq hr
  refine ⟨hr, hq, fun w hw ho => quietSoFar_run env (Or.inr ⟨w, hw, ho⟩), fun other hg => ?_⟩
  have hne : id ≠ other := by
    rintro rfl
    obtain ⟨w, hw, ha⟩ := (attempts_iff env).1 h
    rw [guarded, hw, Option.any_some, Work.attempts_not_guarded env ha] at hg
    cases hg
  rw [run_snoc]
  exact guarded_stays env hg fun r hr => hne (by cases hr; rfl)

theorem admitted_of_free (hs : s₀.Idle) (h : attempts env (run env s₀ acts) id reply)
    (hb : (run env s₀ acts).shared.busy = false) : Admitted env s₀ acts id reply := by
  have hadm := turn_admission env reply ((singleFlight_run env hs acts).busy id)
  obtain ⟨w, hw, h⟩ := (attempts_iff env).1 h
  have hy := Work.attempt_admitted env h hb
  refine ⟨?_, fun o ho => ?_, ?_⟩
  · rw [run_snoc, shared_turn env reply hw]
    exact (hy.mono_ends fun _ _ h => h.1).fst
  · rw [run_snoc, outcome?_turn env reply hw] at ho
    rcases hr : w.resume env (run env s₀ acts).shared reply with ⟨sh', w' | o'⟩
    · rw [hr] at ho
      cases ho
    · rw [hr] at ho hy
      cases ho
      exact hy.2
  · rw [run_snoc, hadm.busy, hb]
    rfl

theorem guarded_turn (h : (act env s (.turn id reply)).guarded id) : s.guarded id ∨ attempts env s id reply := by
  obtain ⟨w', hw', hg⟩ := guarded_iff.1 h
  obtain ⟨w, hw, hr⟩ := work?_turn_eq_some env hw'
  have hy : Yields (w.resume env s.shared reply) _ _ := Work.resume_guarded w
  rw [hr] at hy
  exact (hy.2 hg).imp (fun hg => guarded_iff.2 ⟨w, hw, hg⟩) fun ha => (attempts_iff env).2 ⟨w, hw, ha⟩

/-- One guarded pass at a time, in every interleaving: the gate is held just while a task is
    behind it, none gets there but by an attempt, and none has left without releasing it; an
    attempt beside an open pass is denied, and any other is admitted. -/
theorem guard_single_flight (hs : s₀.Idle) (hfree : s₀.shared.busy = false) (acts : List Action) :
    let s := run env s₀ acts
    (∀ id id', s.guarded id → s.guarded id' → id = id') ∧
    (s.shared.busy ↔ ∃ id, s.guarded id) ∧
    ∀ id reply, let s' := run env s₀ (acts ++ [.turn id reply])
      (s'.guarded id → s.guarded id ∨ attempts env s id reply) ∧
      (s.guarded id → s'.guarded id = false → s'.shared.busy = false) ∧
      (attempts env s id reply → (∃ other, s.guarded other) → Denied env s₀ acts id reply) ∧
      (attempts env s id reply → (¬ ∃ other, s.guarded other) → Admitted env s₀ acts id reply) := by
  dsimp only
  have hflight := singleFlight_run env hs acts
  have hiff : (run env s₀ acts).shared.busy ↔ ∃ id, (run env s₀ acts).guarded id :=
    ⟨busy_guarded env hs hfree, fun ⟨id, hg⟩ => hflight.busy id hg⟩
  refine ⟨hflight.one, hiff, fun id reply => ⟨fun hg => ?_, fun hg hg' => ?_, fun h ho => ?_, fun h ho => ?_⟩⟩
  · rw [run_snoc] at hg
    exact guarded_turn env hg
  · have hadm := turn_admission env reply (hflight.busy id)
    rw [run_snoc] at hg' ⊢
    rw [hadm.busy, hg, hg']
    simp
  · exact denied_of_busy env h (hiff.2 ho)
  · exact admitted_of_free env hs h (Bool.eq_false_iff.2 fun hb => ho (hiff.1 hb))

/-- A range is asked for while a catch-up up to epoch 1 is under way. -/
def rangeBesideCatchUp : List Action :=
  [.request (.catchUp (.root 0)), .turn 0 .granted, .turn 0 .granted, .request (.range (.root 0) 5 6)]

/-- And another one after the catch-up has ended. -/
def rangeAfterCatchUp : List Action :=
  rangeBesideCatchUp ++ .turn 1 .granted :: List.replicate 8 (.turn 0 .granted) ++ [.request (.range (.root 0) 5 6)]

theorem guard_single_flight_two_ranges :
    let s₀ := opened [] (fun _ => []) [1]
    Denied .plain s₀ rangeBesideCatchUp 1 .granted ∧ Admitted .plain s₀ rangeAfterCatchUp 2 .granted := by
  dsimp only
  have hs := opened_idle [] (fun _ => []) [1]
  obtain ⟨-, -, hturn⟩ := guard_single_flight .plain hs rfl rangeBesideCatchUp
  obtain ⟨-, hiff, hturn'⟩ := guard_single_flight .plain hs rfl rangeAfterCatchUp
  have hfree : ¬ (run .plain (opened [] (fun _ => []) [1]) rangeAfterCatchUp).shared.busy := by decide +kernel
  exact ⟨(hturn 1 .granted).2.2.1 (by decide +kernel) ⟨0, by decide +kernel⟩,
    (hturn' 2 .granted).2.2.2 (by decide +kernel) fun ho => hfree (hiff.2 ho)⟩

end System

end CommitteeSync
