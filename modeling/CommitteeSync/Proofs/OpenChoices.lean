/-
  CommitteeSync.Proofs.OpenChoices — what is left open within a turn.

  The listener, the reporter and the supervisor wait for their token and for something else at
  once, in no order. Which of the two they meet when both are there is up to the surroundings,
  and `Setup.lag` has the choices of a whole run as one function of the state. A turn comes to
  at most one choice, and it leaves a note then. No note is taken back, so no two turns of a
  run choose in the same state.

  Proved:
  (1) A turn depends on no choices but those in states that have at least the notes it began
      with and fewer than it ended with (`Work.resume_confined`).
  (2) However each turn of a run chooses, there is one function that makes all these choices,
      with the same state after every action (`System.run_of_choices`). So what holds of the
      runs under any `Setup` holds however each choice is made.
-/

import CommitteeSync.Proofs.Effects

namespace CommitteeSync

open Turn

variable (env : Setup)

/-- The same synchronizer in surroundings that choose by `lag`. -/
def Setup.choosing (env : Setup) (lag : Shared → Nat) : Setup := { env with lag }

/-! ## Notes -/

/-- How many notes there are of what happened. -/
def Shared.notes (sh : Shared) : Nat := sh.trace.size + sh.events.size + sh.metrics.size

theorem Effect.notes_le {k : Kind} {sh sh' : Shared} (h : Effect k sh sh') : sh.notes ≤ sh'.notes := by
  cases h with
  | gate g gate => cases g <;> exact Nat.le_refl _
  | mark m => simp only [Shared.notes, Shared.mark, Array.size_push]; omega
  | log e => simp only [Shared.notes, Shared.log, Array.size_push]; omega
  | report m => simp only [Shared.notes, Shared.report, Array.size_push]; omega
  | _ => exact Nat.le_refl _

theorem Effects.notes_le {k : Kind} {sh sh' : Shared} (h : Effects k sh sh') : sh.notes ≤ sh'.notes := by
  induction h with
  | refl => exact Nat.le_refl _
  | tail _ he ih => exact Nat.le_trans ih he.notes_le

theorem Shared.notes_lt_log (sh : Shared) (e : Event) : sh.notes < (sh.log e).notes := by
  simp only [notes, log, Array.size_push]
  omega

theorem Shared.notes_lt_make (sh : Shared) (c : Call) : sh.notes < (sh.make c).notes := by
  simp only [notes, make, mark, Array.size_push]
  omega

theorem Shared.notes_lt_report (sh : Shared) (m : Metrics) : sh.notes < (sh.report m).notes := by
  simp only [notes, report, Array.size_push]
  omega

/-! ## Turns that depend on the choices they note -/

namespace Turn

variable {σ ρ σ' ρ' : Type} {sh sh' : Shared}

/-- The turn from `sh` on depends on no choices but those in states with at least the notes of `sh`
    and fewer than there are in the end. -/
def Confined (sh : Shared) (t : (Shared → Nat) → Shared × Turn σ ρ) : Prop :=
  ∀ lag lag', (∀ c : Shared, sh.notes ≤ c.notes → c.notes < (t lag).1.notes → lag c = lag' c) → t lag = t lag'

/-- A turn that comes to no choice. -/
theorem confined_of_eq {t : (Shared → Nat) → Shared × Turn σ ρ} (h : ∀ lag lag', t lag = t lag') : Confined sh t :=
  fun lag lag' _ => h lag lag'

theorem Confined.of_le {t : (Shared → Nat) → Shared × Turn σ ρ} (ht : Confined sh' t) (h : sh.notes ≤ sh'.notes) :
    Confined sh t :=
  fun lag lag' hc => ht lag lag' fun c hlow hhigh => hc c (Nat.le_trans h hlow) hhigh

/-- A turn that goes on with no choice. -/
theorem Confined.andThen {t : (Shared → Nat) → Shared × Turn σ ρ} (ht : Confined sh t) (wrap : σ → σ')
    {next : Shared → ρ → Shared × Turn σ' ρ'} (hn : ∀ sh r, sh.notes ≤ (next sh r).1.notes) :
    Confined sh fun lag => Turn.andThen (t lag) wrap next := by
  intro lag lag' hc
  have hle : (t lag).1.notes ≤ (Turn.andThen (t lag) wrap next).1.notes := by
    rcases t lag with ⟨sh', s | r⟩
    · exact Nat.le_refl _
    · exact hn sh' r
  have hsame := ht lag lag' fun c hlow hhigh => hc c hlow (Nat.lt_of_lt_of_le hhigh hle)
  dsimp only
  rw [hsame]

/-- A turn that comes to its choice in going on. -/
theorem confined_andThen {t : Shared × Turn σ ρ} (h : sh.notes ≤ t.1.notes) (wrap : σ → σ')
    {next : (Shared → Nat) → Shared → ρ → Shared × Turn σ' ρ'}
    (hn : ∀ sh r, Confined sh fun lag => next lag sh r) : Confined sh fun lag => Turn.andThen t wrap (next lag) := by
  obtain ⟨sh', s | r⟩ := t
  · exact confined_of_eq fun _ _ => rfl
  · exact (hn sh' r).of_le h

end Turn

/-! ## The listener -/

namespace Listener

variable {token : Token} {feed : Nat} {sh : Shared}

theorem serve_choosing (lag : Shared → Nat) (sh : Shared) (n : Nat) (queue : List HeadEvent) :
    serve (env.choosing lag) token feed sh n queue = serve env token feed sh n queue := by
  induction queue generalizing sh n with
  | nil => rfl
  | cons event rest ih =>
    simp only [serve, ih]
    rfl

/-- Before its token is cancelled there is nothing to choose. -/
theorem serve_of_running (hc : sh.isCancelled token = false) (n n' : Nat) (queue : List HeadEvent) :
    serve env token feed sh n queue = serve env token feed sh n' queue := by
  induction queue generalizing sh n n' with
  | nil => simp [serve, hc]
  | cons event rest ih =>
    have hstart : ((HeadUpdate.start env event (sh.updateFeed feed fun f => { f with queue := rest })).1.isCancelled
        token) = false := by
      simp only [HeadUpdate.start]
      split <;> exact hc
    simp only [serve, hc, Bool.false_eq_true, false_and, if_false]
    split
    · rfl
    · rename_i h
      rw [h] at hstart
      exact ih hstart _ _

/-- Once it is, the turn leaves a note. -/
theorem serve_notes (hc : sh.isCancelled token) (n : Nat) (queue : List HeadEvent) :
    sh.notes < (serve env token feed sh n queue).1.notes := by
  have hstop : ∀ exit, sh.notes < (stop feed sh exit).1.notes := fun exit => sh.notes_lt_log exit.event
  cases queue with
  | nil =>
    unfold serve
    split
    · exact hstop _
    · rename_i hnone
      rw [if_neg fun ho => hnone ⟨hc, Or.inl ho⟩]
      exact hstop _
  | cons event rest =>
    have hstart : sh.notes <
        (HeadUpdate.start env event (sh.updateFeed feed fun f => { f with queue := rest })).1.notes := by
      simp only [HeadUpdate.start]
      split
      · exact Shared.notes_lt_make _ _
      · exact Shared.notes_lt_log _ _
    unfold serve
    split
    · exact hstop _
    · split
      · rename_i h; rwa [h] at hstart
      · rename_i sh' _ h
        rw [h] at hstart
        exact Nat.lt_of_lt_of_le hstart (serve_effects (k := .aside) env token feed sh' _ rest).notes_le

theorem takeNext_confined (token : Token) (feed : Nat) (sh : Shared) :
    Confined sh fun lag => takeNext (env.choosing lag) token feed sh := by
  intro lag lag' h
  simp only [takeNext, serve_choosing] at h ⊢
  by_cases hc : sh.isCancelled token
  · have hsame : lag sh = lag' sh := h sh (Nat.le_refl _) (serve_notes env hc _ _)
    show serve env token feed sh (lag sh) _ = serve env token feed sh (lag' sh) _
    rw [hsame]
  · exact serve_of_running env (Bool.not_eq_true _ ▸ hc) _ _ _

theorem start_confined (token : Token) (feed : Nat) (sh : Shared) :
    Confined sh fun lag => start (env.choosing lag) token feed sh :=
  (takeNext_confined env token feed (sh.log .listening)).of_le (Nat.le_of_lt (sh.notes_lt_log _))

theorem resume_confined (guard : Guard) (token : Token) (feed : Nat) (sh : Shared) (l : Listener) (reply : Reply) :
    Confined sh fun lag => l.resume (env.choosing lag) guard token feed sh reply := by
  cases l with
  | idle => exact takeNext_confined env token feed sh
  | handling u =>
    exact confined_andThen (HeadUpdate.resume_effects (k := .aside) env guard token sh u reply).notes_le _
      fun sh' _ => takeNext_confined env token feed sh'

end Listener

/-! ## Startup, the reporter and the supervisor -/

theorem Startup.resume_confined (token : Token) (sh : Shared) (s : Startup) (reply : Reply) :
    Confined sh fun lag => s.resume (env.choosing lag) token sh reply := by
  have hfinish := fun sh exit => (finish_effects sh exit).notes_le
  cases s with
  | reading => exact confined_of_eq fun _ _ => rfl
  | following f => exact confined_of_eq fun _ _ => rfl
  | subscribing =>
    simp only [resume]
    split
    · exact confined_of_eq fun _ _ => rfl
    · cases reply with
      | failed cause => exact confined_of_eq fun _ _ => rfl
      | granted =>
        exact ((Listener.start_confined env token _ sh.openFeed.1).andThen _ hfinish).of_le
          (Effects.openFeed (k := .aside) sh).notes_le
  | listening feed l => exact (Listener.resume_confined env .service token feed sh l reply).andThen _ hfinish

namespace Reporter

theorem windDown_choosing (lag : Shared → Nat) (sh : Shared) (r : Reporter) (n : Nat) :
    windDown (env.choosing lag) sh r n = windDown env sh r n := by
  induction n generalizing sh r with
  | zero => rfl
  | succ n ih =>
    simp only [windDown, ih]
    rfl

theorem windDown_notes (sh : Shared) (r : Reporter) (n : Nat) : sh.notes < (windDown env sh r n).1.notes := by
  induction n generalizing sh r with
  | zero => exact sh.notes_lt_report _
  | succ n ih =>
    unfold windDown
    split
    · exact Nat.lt_trans (sh.notes_lt_report _) (ih _ _)
    · exact sh.notes_lt_report _

theorem resume_confined (token : Token) (sh : Shared) (r : Reporter) :
    Confined sh fun lag => r.resume (env.choosing lag) token sh := by
  intro lag lag' h
  simp only [resume, windDown_choosing] at h ⊢
  by_cases hc : sh.isCancelled token
  · rw [if_pos hc] at h
    have hsame : lag sh = lag' sh := h sh (Nat.le_refl _) (windDown_notes env sh r _)
    rw [if_pos hc, if_pos hc]
    show windDown env sh r (lag sh) = windDown env sh r (lag' sh)
    rw [hsame]
  · rw [if_neg hc, if_neg hc]
    rfl

end Reporter

namespace Supervisor

theorem watch_confined (root : Token) (sh : Shared) : Confined sh fun lag => watch (env.choosing lag) root sh := by
  intro lag lag' h
  have hlogged : ∀ event, sh.notes < (stop root (sh.log event)).1.notes := fun event =>
    Nat.lt_of_lt_of_le (sh.notes_lt_log event) (stop_effects root (sh.log event)).notes_le
  by_cases hquits : sh.isCancelled root ∨ sh.interrupt
  · have hsame : lag sh = lag' sh := by
      refine h sh (Nat.le_refl _) ?_
      simp only [watch]
      split
      · exact hlogged _
      · rename_i hnot
        by_cases hi : sh.interrupt
        · rw [if_pos hi]
          exact hlogged _
        · exact absurd ⟨hquits.resolve_right hi, Or.inl (by simp [hi])⟩ hnot
    simp only [watch, Setup.choosing, hsame]
    rfl
  · rw [not_or] at hquits
    simp [watch, hquits.1, hquits.2]

theorem run_confined (root : Token) (sh : Shared) : Confined sh fun lag => run (env.choosing lag) root sh := by
  have hlaunch := (launch_effects root sh).notes_le
  unfold run
  split
  · exact confined_of_eq fun _ _ => rfl
  · rename_i sh' h
    rw [h] at hlaunch
    exact (watch_confined env root (sh'.log .runnerStarted)).of_le
      (Nat.le_trans hlaunch (Nat.le_of_lt (sh'.notes_lt_log _)))

theorem resume_confined (root : Token) (sh : Shared) (s : Supervisor) :
    Confined sh fun lag => s.resume (env.choosing lag) root sh := by
  cases s with
  | running => exact watch_confined env root sh
  | stopping s => exact confined_of_eq fun _ _ => rfl

end Supervisor

/-! ## Any task -/

namespace Work

theorem start_confined (sh : Shared) (r : Request) : Confined sh fun lag => start (env.choosing lag) sh r := by
  cases r with
  | listen token feed => exact (Listener.start_confined env token feed sh).andThen _ fun _ _ => Nat.le_refl _
  | runnerRun root => exact (Supervisor.run_confined env root sh).andThen _ fun _ _ => Nat.le_refl _
  | reporter => exact (Reporter.resume_confined env sh.runToken sh _).andThen _ fun _ _ => Nat.le_refl _
  | _ => exact confined_of_eq fun _ _ => rfl

/-- A turn of a task depends on no choices but those that it leaves notes of. -/
theorem resume_confined (sh : Shared) (w : Work) (reply : Reply) :
    Confined sh fun lag => w.resume (env.choosing lag) sh reply := by
  cases w with
  | asked r => exact start_confined env sh r
  | listen token feed l => exact (Listener.resume_confined env .parts token feed sh l reply).andThen _ fun _ _ => Nat.le_refl _
  | runner root s => exact (Supervisor.resume_confined env root sh s).andThen _ fun _ _ => Nat.le_refl _
  | reporter r => exact (Reporter.resume_confined env sh.runToken sh r).andThen _ fun _ _ => Nat.le_refl _
  | startup s => exact (Startup.resume_confined env sh.runToken sh s reply).andThen _ fun _ _ => Nat.le_refl _
  | _ => exact confined_of_eq fun _ _ => rfl

end Work

/-! ## A whole run -/

namespace System

variable {s : System}

theorem act_notes_le (a : Action) : s.shared.notes ≤ (act env s a).shared.notes := by
  cases a with
  | request r => exact Nat.le_refl _
  | launch root => simp only [act]; split <;> exact Nat.le_refl _
  | turn id reply =>
    cases hw : s.work? id with
    | none => simp only [turn_of_none env reply hw, Nat.le_refl]
    | some w => exact (turn_effects env reply hw).notes_le
  | change c =>
    cases c with
    | send event =>
      have hkept := Shared.send_view Shared.notes (fun _ _ _ => rfl) s.shared env.capacity event
      exact Nat.le_of_eq hkept.symm
    | endStream => exact Nat.le_of_eq (Shared.dropSender_view Shared.notes (fun _ _ _ => rfl) s.shared).symm
    | _ => exact Nat.le_refl _

theorem run_notes_le (s : System) (acts rest : List Action) :
    (run env s acts).shared.notes ≤ (run env s (acts ++ rest)).shared.notes := by
  induction rest using List.reverseRecOn with
  | nil => simp only [List.append_nil, Nat.le_refl]
  | append_singleton rest a ih =>
    rw [← List.append_assoc, run_snoc]
    exact Nat.le_trans ih (act_notes_le env a)

variable {lag lag' : Shared → Nat}

theorem act_congr (a : Action)
    (h : ∀ c : Shared, s.shared.notes ≤ c.notes → c.notes < (act (env.choosing lag) s a).shared.notes → lag c = lag' c) :
    act (env.choosing lag) s a = act (env.choosing lag') s a := by
  cases a with
  | turn id reply =>
    cases hw : s.work? id with
    | none => rw [turn_of_none _ reply hw, turn_of_none _ reply hw]
    | some w =>
      rw [shared_turn _ reply hw] at h
      have hsame : w.resume (env.choosing lag) s.shared reply = w.resume (env.choosing lag') s.shared reply :=
        Work.resume_confined env s.shared w reply lag lag' h
      rw [turn_of_some _ reply hw, turn_of_some _ reply hw, hsame]
  | _ => rfl

/-- A run depends on no choices but those in states with fewer notes than its last. -/
theorem run_congr (acts : List Action)
    (h : ∀ c : Shared, c.notes < (run (env.choosing lag) s acts).shared.notes → lag c = lag' c) :
    run (env.choosing lag) s acts = run (env.choosing lag') s acts := by
  induction acts using List.reverseRecOn with
  | nil => rfl
  | append_singleton acts a ih =>
    have hle := run_notes_le (env.choosing lag) s acts [a]
    rw [run_snoc] at h hle
    have hsame := ih fun c hc => h c (Nat.lt_of_lt_of_le hc hle)
    rw [run_snoc, run_snoc, ← hsame]
    exact act_congr env a fun c _ hhigh => h c hhigh

/-- A run of actions that has with each of them the choice to be made in it, if there is one. -/
def runChoosing (s : System) (steps : List (Action × Nat)) : System :=
  steps.foldl (fun s step => act (env.choosing fun _ => step.2) s step.1) s

theorem runChoosing_snoc (s : System) (steps : List (Action × Nat)) (step : Action × Nat) :
    runChoosing env s (steps ++ [step]) = act (env.choosing fun _ => step.2) (runChoosing env s steps) step.1 := by
  simp [runChoosing]

/-- However the turns of a run choose, one function makes all their choices. -/
theorem run_of_choices (s : System) (steps : List (Action × Nat)) :
    ∃ lag, ∀ part, part <+: steps → run (env.choosing lag) s (part.map Prod.fst) = runChoosing env s part := by
  induction steps using List.reverseRecOn with
  | nil =>
    refine ⟨fun _ => 0, fun part hpart => ?_⟩
    rw [List.prefix_nil.1 hpart]
    rfl
  | append_singleton steps step ih =>
    obtain ⟨lag, hlag⟩ := ih
    -- The choices so far were made in states with fewer notes than there are now.
    let longer : Shared → Nat := fun c => if c.notes < (runChoosing env s steps).shared.notes then lag c else step.2
    have hkept : ∀ part, part <+: steps → run (env.choosing longer) s (part.map Prod.fst) = runChoosing env s part := by
      intro part hpart
      rw [← hlag part hpart]
      refine (run_congr env _ fun c hc => ?_).symm
      obtain ⟨rest, rfl⟩ := hpart
      have hle := run_notes_le (env.choosing lag) s (part.map Prod.fst) (rest.map Prod.fst)
      rw [← List.map_append, hlag _ (List.prefix_refl _)] at hle
      exact (if_pos (Nat.lt_of_lt_of_le hc hle)).symm
    refine ⟨longer, fun part hpart => ?_⟩
    rcases List.prefix_concat_iff.1 hpart with rfl | hpart
    · rw [List.map_append, List.map_singleton, run_snoc, hkept steps (List.prefix_refl _), runChoosing_snoc]
      exact (act_congr env step.1 fun c hlow _ => (if_neg (Nat.not_lt.2 hlow)).symm).symm
    · exact hkept part hpart

end System

end CommitteeSync
