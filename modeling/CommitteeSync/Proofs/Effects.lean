/-
  CommitteeSync.Proofs.Effects — what a turn is made of.

  A turn changes the shared state by single effects, one after another: a note, a count, a
  clock that goes on, a gate, another store, another set of head streams, a token, another
  state of the background run. Some of them take work of one kind: only startup triggers the
  fatal error, and only work aside from the epochs cancels tokens and launches the background
  run (`Work.resume_effects`).

  So whatever every single effect keeps, every turn keeps: what the chain serves, whether the
  run has been launched and the tokens it runs under, that a token is cancelled, and all that
  has been noted and logged before (`Effects.chain`, `Effects.launched`, `Effects.runs`,
  `Effects.cancelled`, `Effects.trace`, `Effects.events`). Along a run only the surroundings
  let the chain serve something else (`System.chain_run`), and no note is lost
  (`System.trace_run`).
-/

import CommitteeSync.Proofs.Interleaving
import Mathlib.Logic.Relation

namespace CommitteeSync

open Turn

/-! ## Tokens and the handler -/

theorem Tokens.isCancelled_cancel {ts : Tokens} {t t' : Token} (h : ts.isCancelled t) : (ts.cancel t').isCancelled t :=
  isCancelled_mono (List.subset_cons_self t' ts.fired) h

namespace Handler

theorem trigger_run (h : Handler) (ts : Tokens) (context : String) (cause : Cause) :
    (h.trigger ts context cause).1.run = h.run := by
  unfold trigger; split <;> rfl

theorem trigger_root (h : Handler) (ts : Tokens) (context : String) (cause : Cause) :
    (h.trigger ts context cause).1.root = h.root := by
  unfold trigger; split <;> rfl

theorem isCancelled_trigger {h : Handler} {ts : Tokens} {context : String} {cause : Cause} {t : Token} (ht : ts.isCancelled t) :
    (h.trigger ts context cause).2.1.isCancelled t := by
  unfold trigger
  split
  · exact ht
  · exact Tokens.isCancelled_cancel (Tokens.isCancelled_cancel ht)

end Handler

/-! ## Single effects -/

/-- The handler and the tokens after a fatal error. -/
def Shared.trigger (sh : Shared) (context : String) (cause : Cause) : Shared :=
  { sh with
    tokens := (sh.background.handler.trigger sh.tokens context cause).2.1
    background := { sh.background with handler := (sh.background.handler.trigger sh.tokens context cause).1 } }

/-- One change of the shared state in a turn of work of the kind `k`. -/
inductive Effect (k : Kind) : Shared → Shared → Prop
  | mark (sh : Shared) (m : Mark) : Effect k sh (sh.mark m)
  | log (sh : Shared) (e : Event) : Effect k sh (sh.log e)
  | report (sh : Shared) (m : Metrics) : Effect k sh (sh.report m)
  | count (sh : Shared) (s : Telemetry.Step) : Effect k sh (sh.count s)
  | clock (sh : Shared) (readings : List Epoch) : Effect k sh { sh with clock := readings }
  | store (sh : Shared) (store : Store) : Effect k sh { sh with store }
  | gate (sh : Shared) (g : Guard) (gate : Gate) : Effect k sh (sh.setGate g gate)
  | feeds (sh : Shared) (feeds : List Feed) (current : Option Nat) : Effect k sh { sh with feeds, current }
  | flags (sh : Shared) (held startupEnded reporterEnded : Bool) :
      Effect k sh { sh with background := { sh.background with held, startupEnded, reporterEnded } }
  | trigger (sh : Shared) (context : String) (cause : Cause) (h : k = .startup) : Effect k sh (sh.trigger context cause)
  | cancel (sh : Shared) (t : Token) (h : k = .aside) : Effect k sh (sh.cancel t)
  | launch (sh : Shared) (root : Token) (h : k = .aside) (hn : sh.background.launched = false) :
      Effect k sh (sh.launch root)

/-- Effects one after another. -/
def Effects (k : Kind) : Shared → Shared → Prop := Relation.ReflTransGen (Effect k)

namespace Effects

variable {k : Kind} {sh sh' sh'' : Shared}

theorem none (sh : Shared) : Effects k sh sh := Relation.ReflTransGen.refl

theorem one (h : Effect k sh sh') : Effects k sh sh' := Relation.ReflTransGen.single h

theorem tail (h : Effects k sh sh') (he : Effect k sh' sh'') : Effects k sh sh'' := Relation.ReflTransGen.tail h he

theorem trans (h : Effects k sh sh') (h' : Effects k sh' sh'') : Effects k sh sh'' := Relation.ReflTransGen.trans h h'

theorem andThen {σ ρ σ' ρ' : Type} {t : Shared × Turn σ ρ} (h : Effects k sh t.1) (wrap : σ → σ')
    {next : Shared → ρ → Shared × Turn σ' ρ'} (hn : ∀ sh r, Effects k sh (next sh r).1) :
    Effects k sh (Turn.andThen t wrap next).1 := by
  obtain ⟨sh', s | r⟩ := t
  · exact h
  · exact h.trans (hn sh' r)

theorem readClock (sh : Shared) : Effects k sh sh.readClock.1 := by
  unfold Shared.readClock
  split
  · exact one (.mark sh _)
  · exact one (.mark sh _)
  · exact (one (.clock sh _)).tail (.mark _ _)

theorem cancelTx (sh : Shared) (tx : Transaction) : Effects k sh (sh.cancelTx tx) :=
  (one (.store sh _)).tail (.mark _ _)

theorem enter (sh : Shared) (g : Guard) (denial : Event) : Effects k sh (sh.enter g denial).1 := by
  unfold Shared.enter
  split
  · exact one (.gate sh g _)
  · exact (one (.count sh _)).tail (.log _ _)

theorem exit (sh : Shared) (g : Guard) : Effects k sh (sh.exit g) := one (.gate sh g _)

theorem cancel (sh : Shared) (t : Token) : Effects .aside sh (sh.cancel t) := one (.cancel sh t rfl)

theorem updateFeed (sh : Shared) (id : Nat) (f : Feed → Feed) : Effects k sh (sh.updateFeed id f) :=
  one (.feeds sh _ sh.current)

theorem openFeed (sh : Shared) : Effects k sh sh.openFeed.1 := by
  have hd : Effects k sh sh.dropSender := by
    unfold Shared.dropSender
    split
    · exact one (.feeds sh _ _)
    · exact none sh
  exact hd.tail (.feeds _ _ _)

theorem fail (sh : Shared) (context : String) (cause : Cause) : Effects .startup sh (sh.fail context cause) := by
  simp only [Shared.fail]
  by_cases h : sh.background.handler.isTriggered
  · rw [if_pos h]
    exact one (.trigger sh context cause rfl)
  · rw [if_neg h]
    exact (one (.log sh _)).tail (.trigger _ context cause rfl)

/-! ## What every effect keeps -/

theorem chain (h : Effects k sh sh') : sh'.chain = sh.chain := by
  induction h with
  | refl => rfl
  | tail _ he ih =>
    rw [← ih]
    cases he with
    | gate g gate => cases g <;> rfl
    | _ => rfl

/-- Without a supervisor the background run is not launched. -/
theorem launched (h : Effects k sh sh') (hk : k ≠ .aside) : sh'.background.launched = sh.background.launched := by
  induction h with
  | refl => rfl
  | tail _ he ih =>
    rw [← ih]
    cases he with
    | gate g gate => cases g <;> rfl
    | launch root ha _ => exact absurd ha hk
    | _ => rfl

/-- A run that was launched stays so. -/
theorem stays_launched (h : Effects k sh sh') (hl : sh.background.launched) : sh'.background.launched := by
  induction h with
  | refl => exact hl
  | tail _ he ih =>
    cases he with
    | gate g gate => cases g <;> exact ih
    | launch root _ _ => rfl
    | _ => exact ih

/-- A run that was launched stays under the same tokens. -/
theorem runs (h : Effects k sh sh') (hl : sh.background.launched) :
    sh'.runToken = sh.runToken ∧ sh'.background.handler.root = sh.background.handler.root := by
  induction h with
  | refl => exact ⟨rfl, rfl⟩
  | tail hs he ih =>
    cases he with
    | gate g gate => cases g <;> exact ih
    | trigger context cause _ => exact ⟨(Handler.trigger_run ..).trans ih.1, (Handler.trigger_root ..).trans ih.2⟩
    | launch root _ hn => rw [stays_launched hs hl] at hn; cases hn
    | _ => exact ih

/-- Of a run that was launched only startup captures an error. -/
theorem captured (h : Effects k sh sh') (hk : k ≠ .startup) (hl : sh.background.launched) : sh'.captured = sh.captured := by
  induction h with
  | refl => rfl
  | tail hs he ih =>
    cases he with
    | gate g gate => cases g <;> exact ih
    | trigger context cause hs => exact absurd hs hk
    | launch root _ hn => rw [stays_launched hs hl] at hn; cases hn
    | _ => exact ih

/-- Only startup captures an error, and a run that is launched now has captured none yet. -/
theorem captured_none (h : Effects k sh sh') (hk : k ≠ .startup) (hc : sh.background.launched → sh.captured = .none)
    (hl : sh'.background.launched) : sh'.captured = .none := by
  induction h with
  | refl => exact hc hl
  | tail _ he ih =>
    cases he with
    | gate g gate => cases g <;> exact ih hl
    | trigger context cause hs => exact absurd hs hk
    | launch root _ _ => rfl
    | _ => exact ih hl

/-- Cancelling is for good. -/
theorem cancelled {t : Token} (h : Effects k sh sh') (ht : sh.isCancelled t) : sh'.isCancelled t := by
  induction h with
  | refl => exact ht
  | tail _ he ih =>
    cases he with
    | gate g gate => cases g <;> exact ih
    | trigger context cause _ => exact Handler.isCancelled_trigger ih
    | cancel t' _ => exact Tokens.isCancelled_cancel ih
    | _ => exact ih

/-- What has been noted stays noted. -/
theorem trace (h : Effects k sh sh') : sh.trace.toList <+: sh'.trace.toList := by
  induction h with
  | refl => exact List.prefix_refl _
  | tail _ he ih =>
    refine ih.trans ?_
    cases he with
    | mark m =>
      simp only [Shared.mark, Array.toList_push]
      exact List.prefix_append _ _
    | gate g gate => cases g <;> exact List.prefix_refl _
    | _ => exact List.prefix_refl _

/-- What has been logged stays logged. -/
theorem events (h : Effects k sh sh') : sh.events.toList <+: sh'.events.toList := by
  induction h with
  | refl => exact List.prefix_refl _
  | tail _ he ih =>
    refine ih.trans ?_
    cases he with
    | log e =>
      simp only [Shared.log, Array.toList_push]
      exact List.prefix_append _ _
    | gate g gate => cases g <;> exact List.prefix_refl _
    | _ => exact List.prefix_refl _

/-- No commit is taken back. -/
theorem commitLog (h : Effects k sh sh') : sh.commitLog <+: sh'.commitLog := h.events.filterMap _

end Effects

/-! ## The turns -/

section Turns

variable {k : Kind} (env : Setup)

theorem Staging.advance_effects (epoch : Epoch) (tx : Transaction) (written : Nat) (sh : Shared) (as : List Assignment) :
    Effects k sh (Staging.advance env epoch tx written sh as).1 := by
  cases as with
  | nil => exact .none sh
  | cons a rest =>
    simp only [Staging.advance]
    split
    · exact .one (.mark sh _)
    · exact .none sh

theorem Staging.resume_effects (epoch : Epoch) (sh : Shared) (s : Staging) (reply : Reply) :
    Effects k sh (s.resume env epoch sh reply).1 := by
  cases s <;> cases reply
  · exact advance_effects env _ _ _ _ _
  · exact .none sh
  · exact advance_effects env _ _ _ _ _
  · exact .none sh

namespace EpochWrite

theorem fail_effects (sh : Shared) (error : EpochError) : Effects k sh (fail sh error).1 := by
  simp only [fail]
  split
  · exact .none sh
  · exact .one (.count sh _)

theorem abort_effects (sh : Shared) (tx : Transaction) (error : EpochError) : Effects k sh (abort sh tx error).1 :=
  (Effects.cancelTx sh tx).trans (fail_effects _ error)

theorem record_effects (epoch : Epoch) (sh : Shared) (r : Staging.Result) : Effects k sh (record epoch sh r).1 := by
  obtain ⟨tx, cause | written⟩ := r
  · exact abort_effects sh tx _
  · exact .one (.mark sh _)

theorem start_effects (token : Token) (epoch : Epoch) (sh : Shared) : Effects k sh (start token epoch sh).1 := by
  unfold start
  split
  · exact fail_effects sh _
  · exact .one (.mark sh _)

theorem resume_effects (token : Token) (epoch : Epoch) (sh : Shared) (w : EpochWrite) (reply : Reply) :
    Effects k sh (w.resume env token epoch sh reply).1 := by
  cases w with
  | beginning =>
    simp only [resume]
    split
    · exact fail_effects sh _
    · cases reply
      · exact (Effects.one (.store sh _)).tail (.mark _ _)
      · exact fail_effects sh _
  | staging s =>
    simp only [resume]
    split
    · exact abort_effects sh _ _
    · exact (Staging.resume_effects env epoch sh s reply).andThen _ (record_effects epoch)
  | recording tx written =>
    simp only [resume]
    split
    · exact abort_effects sh _ _
    · cases reply
      · exact .one (.mark sh _)
      · exact abort_effects sh _ _
  | committing tx written =>
    cases reply
    · exact ((Effects.one (.store sh _)).tail (.count _ _)).tail (.log _ _)
    · exact fail_effects sh _

end EpochWrite

namespace Pass

theorem enter_effects (token : Token) (report : Report) (epoch : Epoch) (sh : Shared) :
    Effects k sh (enter token report epoch sh).1 := by
  unfold enter
  split
  · exact .one (.log sh _)
  · exact .one (.mark sh _)

theorem settle_effects (token : Token) (report : Report) (epoch : Epoch) (sh : Shared) (r : EpochWrite.Result) :
    Effects k sh (settle token report epoch sh r).1 := by
  cases r with
  | error error => exact .one (.log sh _)
  | ok _ =>
    simp only [settle]
    split
    · exact .one (.log sh _)
    · exact enter_effects token _ _ sh

theorem start_effects (token : Token) (resume target : Epoch) (sh : Shared) :
    Effects k sh (start token resume target sh).1 := by
  unfold start
  split
  · exact .one (.log sh _)
  · exact ((Effects.one (.count sh _)).tail (.log _ _)).trans (enter_effects token _ _ _)

theorem resume_effects (token : Token) (sh : Shared) (pass : Pass) (reply : Reply) :
    Effects k sh (pass.resume env token sh reply).1 :=
  (EpochWrite.resume_effects env token pass.epoch sh pass.write reply).andThen _ (settle_effects token pass.report pass.epoch)

end Pass

namespace Follow

theorem lookAgain_effects (token : Token) (total : Report) (sh : Shared) :
    Effects k sh (lookAgain token total sh).1 := by
  fun_induction lookAgain token total sh with
  | case1 total sh _ _ after pass h =>
    have hs := Pass.start_effects (k := k) token (max total.resume (nextEpoch total.target)) sh.readClock.2 sh.readClock.1
    rw [h] at hs
    exact (Effects.readClock sh).trans hs
  | case2 total sh _ _ after report h ih =>
    have hs := Pass.start_effects (k := k) token (max total.resume (nextEpoch total.target)) sh.readClock.2 sh.readClock.1
    rw [h] at hs
    exact ((Effects.readClock sh).trans hs).trans ih
  | case3 total sh => exact .readClock sh
  | case4 total sh => exact .none sh

theorem start_effects (token : Token) (resume : Epoch) (sh : Shared) : Effects k sh (start token resume sh).1 := by
  have hs := (Effects.readClock (k := k) sh).trans (Pass.start_effects token resume sh.readClock.2 sh.readClock.1)
  unfold start
  split
  · rename_i h; rwa [h] at hs
  · rename_i h; rw [h] at hs; exact hs.trans (lookAgain_effects token _ _)

theorem resume_effects (token : Token) (sh : Shared) (f : Follow) (reply : Reply) :
    Effects k sh (f.resume env token sh reply).1 :=
  (Pass.resume_effects env token sh f.pass reply).andThen _ fun sh _ => lookAgain_effects token _ sh

end Follow

namespace HeadUpdate

theorem start_effects (event : HeadEvent) (sh : Shared) : Effects k sh (start env event sh).1 := by
  simp only [start]
  split
  · exact (Effects.one (.count sh _)).tail (.mark _ _)
  · exact (Effects.one (.count sh _)).tail (.log _ _)

theorem finishDirect_effects (epoch : Epoch) (sh : Shared) (r : EpochWrite.Result) :
    Effects k sh (finishDirect epoch sh r).1 := by
  cases r <;> exact .one (.log sh _)

theorem fill_effects (guard : Guard) (token : Token) (resume epoch : Epoch) (sh : Shared) :
    Effects k sh (fill guard token resume epoch sh).1 := by
  have he := Effects.enter (k := k) sh guard (.headDeferred resume epoch)
  unfold fill
  split
  · rename_i h; rwa [h] at he
  · rename_i sh' h
    rw [h] at he
    have hs := (he.tail (.log sh' _)).trans (Pass.start_effects token resume epoch (sh'.log (.headFillsGap resume epoch)))
    exact hs.andThen _ fun sh _ => .exit sh guard

theorem dispatch_effects (guard : Guard) (token : Token) (epoch : Epoch) (sh : Shared) (r : Except Cause Record) :
    Effects k sh (dispatch guard token epoch sh r).1 := by
  cases r with
  | error cause => exact (Effects.one (.log sh _)).tail (.count _ _)
  | ok record =>
    simp only [dispatch]
    split
    · exact .one (.log sh _)
    · split
      · exact fill_effects guard token _ epoch sh
      · exact (EpochWrite.start_effects token epoch sh).andThen _ (finishDirect_effects epoch)

theorem resume_effects (guard : Guard) (token : Token) (sh : Shared) (u : HeadUpdate) (reply : Reply) :
    Effects k sh (u.resume env guard token sh reply).1 := by
  cases u with
  | reading epoch => exact dispatch_effects guard token epoch sh _
  | direct epoch write =>
    exact (EpochWrite.resume_effects env token epoch sh write reply).andThen _ (finishDirect_effects epoch)
  | filling epoch pass => exact (Pass.resume_effects env token sh pass reply).andThen _ fun sh _ => .exit sh guard

end HeadUpdate

namespace Listener

theorem stop_effects (feed : Nat) (sh : Shared) (exit : ListenerExit) : Effects k sh (stop feed sh exit).1 :=
  (Effects.one (.log sh _)).trans (.updateFeed _ feed _)

theorem serve_effects (token : Token) (feed : Nat) (sh : Shared) (lag : Nat) (queue : List HeadEvent) :
    Effects k sh (serve env token feed sh lag queue).1 :=
  serve_fst (fun sh' event _ h => (h.trans (.updateFeed sh' feed _)).trans (HeadUpdate.start_effects env event _))
    (fun sh' exit h => h.trans (stop_effects feed sh' exit)) (.none sh) lag queue

theorem start_effects (token : Token) (feed : Nat) (sh : Shared) : Effects k sh (start env token feed sh).1 :=
  (Effects.one (.log sh _)).trans (serve_effects env token feed _ _ _)

theorem resume_effects (guard : Guard) (token : Token) (feed : Nat) (sh : Shared) (l : Listener) (reply : Reply) :
    Effects k sh (l.resume env guard token feed sh reply).1 := by
  cases l with
  | idle => exact serve_effects env token feed sh _ _
  | handling u =>
    exact (HeadUpdate.resume_effects env guard token sh u reply).andThen _ fun sh _ =>
      serve_effects env token feed sh _ _

end Listener

namespace CatchUp

theorem follow_effects (token : Token) (sh : Shared) (r : Except Cause Record) :
    Effects k sh (follow token sh r).1 := by
  cases r with
  | error cause => exact .none sh
  | ok record =>
    have he := Effects.enter (k := k) sh .service (.passDenied .manual)
    simp only [follow]
    split
    · rename_i h; rwa [h] at he
    · rename_i sh' h
      rw [h] at he
      exact (he.trans (Follow.start_effects token _ sh')).andThen _ fun sh _ => .exit sh .service

theorem resume_effects (token : Token) (sh : Shared) (c : CatchUp) (reply : Reply) :
    Effects k sh (c.resume env token sh reply).1 := by
  cases c with
  | reading => exact follow_effects token sh _
  | following f => exact (Follow.resume_effects env token sh f reply).andThen _ fun sh _ => .exit sh .service

end CatchUp

namespace RangePass

theorem start_effects (token : Token) (resume target : Epoch) (sh : Shared) :
    Effects k sh (start token resume target sh).1 := by
  have he := Effects.enter (k := k) sh .service (.passDenied .range)
  unfold start
  split
  · rename_i h; rwa [h] at he
  · rename_i sh' h
    rw [h] at he
    exact (he.trans (Pass.start_effects token resume target sh')).andThen _ fun sh _ => .exit sh .service

theorem resume_effects (token : Token) (sh : Shared) (r : RangePass) (reply : Reply) :
    Effects k sh (r.resume env token sh reply).1 :=
  (Pass.resume_effects env token sh r.pass reply).andThen _ fun sh _ => .exit sh .service

end RangePass

namespace Startup

theorem finish_effects (sh : Shared) (exit : ListenerExit) : Effects .startup sh (finish sh exit).1 := by
  cases exit
  · exact .none sh
  · exact .fail sh _ _

theorem listen_effects (token : Token) (sh : Shared) : Effects .startup sh (listen env token sh).1 :=
  ((Effects.openFeed sh).trans (Listener.start_effects env token _ _)).andThen _ finish_effects

theorem subscribe_effects (token : Token) (sh : Shared) (report : Report) :
    Effects .startup sh (subscribe token sh report).1 := by
  have hs := (Effects.exit (k := .startup) sh .service).tail (.log _ (.startupCaughtUp report))
  simp only [subscribe]
  split
  · exact hs
  · exact hs.tail (.mark _ _)

theorem catchUp_effects (token : Token) (sh : Shared) (r : Except Cause Record) :
    Effects .startup sh (catchUp env token sh r).1 := by
  cases r with
  | error cause => exact .fail sh _ _
  | ok record =>
    have he := (Effects.one (k := .startup) (.log sh _)).trans (.enter (sh.log (.startupResumes
      (record.resumePoint env.startOverride) record.latestEpoch env.startOverride)) .service (.passDenied .startup))
    simp only [catchUp]
    split
    · rename_i h; rwa [h] at he
    · rename_i sh' h
      rw [h] at he
      exact (he.trans (Follow.start_effects token _ sh')).andThen _ (subscribe_effects token)

theorem resume_effects (token : Token) (sh : Shared) (s : Startup) (reply : Reply) :
    Effects .startup sh (s.resume env token sh reply).1 := by
  cases s with
  | reading => exact catchUp_effects env token sh _
  | following f => exact (Follow.resume_effects env token sh f reply).andThen _ (subscribe_effects token)
  | subscribing =>
    simp only [resume]
    split
    · exact .none sh
    · cases reply
      · exact listen_effects env token sh
      · exact .fail sh _ _
  | listening feed l => exact (Listener.resume_effects env .service token feed sh l reply).andThen _ finish_effects

end Startup

/-! ## The background run and its supervisor -/

theorem Stopping.joinReporter_effects (failure : Option Cause) (sh : Shared) :
    Effects .aside sh (joinReporter failure sh).1 := by
  unfold joinReporter
  split <;> exact .none sh

theorem Stopping.joinStartup_effects (sh : Shared) : Effects .aside sh (joinStartup sh).1 := by
  unfold joinStartup
  split
  · exact (Effects.cancel sh _).trans (joinReporter_effects _ _)
  · exact .none sh

theorem Stopping.start_effects (sh : Shared) : Effects .aside sh (start sh).1 :=
  ((Effects.one (.flags sh false sh.background.startupEnded sh.background.reporterEnded)).trans (.cancel _ _)).trans (joinStartup_effects _)

theorem Stopping.resume_effects (sh : Shared) (s : Stopping) : Effects .aside sh (s.resume sh).1 := by
  cases s
  · exact joinStartup_effects sh
  · exact joinReporter_effects _ sh

namespace Supervisor

theorem launch_effects (root : Token) (sh : Shared) : Effects .aside sh (launch root sh).1 := by
  unfold launch
  split
  · exact .none sh
  · split
    · exact .none sh
    · exact .one (.launch sh root rfl (Bool.eq_false_iff.2 ‹_›))

theorem stop_effects (root : Token) (sh : Shared) : Effects .aside sh (stop root sh).1 := by
  unfold stop
  split
  · exact ((Effects.cancel sh root).trans (Stopping.start_effects _)).andThen _ fun sh _ => .none sh
  · exact .none sh

theorem watch_effects (root : Token) (sh : Shared) : Effects .aside sh (watch env root sh).1 := by
  unfold watch
  split
  · exact (Effects.one (.log sh _)).trans (stop_effects root _)
  · split
    · exact (Effects.one (.log sh _)).trans (stop_effects root _)
    · exact .none sh

theorem run_effects (root : Token) (sh : Shared) : Effects .aside sh (run env root sh).1 := by
  have hl := launch_effects root sh
  unfold run
  split
  · rename_i h; rwa [h] at hl
  · rename_i sh' h; rw [h] at hl; exact (hl.tail (.log sh' _)).trans (watch_effects env root _)

theorem resume_effects (root : Token) (sh : Shared) (s : Supervisor) :
    Effects .aside sh (s.resume env root sh).1 := by
  cases s
  · exact watch_effects env root sh
  · exact (Stopping.resume_effects sh _).andThen _ fun sh _ => .none sh

end Supervisor

theorem Reporter.windDown_effects (lag : Nat) (sh : Shared) (r : Reporter) :
    Effects k sh (windDown env sh r lag).1 := by
  induction lag generalizing sh r with
  | zero => exact .one (.report sh _)
  | succ lag ih =>
    unfold windDown
    split
    · exact (Effects.one (.report sh _)).trans (ih _ _)
    · exact .one (.report sh _)

theorem Reporter.resume_effects (token : Token) (sh : Shared) (r : Reporter) :
    Effects k sh (r.resume env token sh).1 := by
  unfold resume
  split
  · exact Reporter.windDown_effects env _ sh r
  · split
    · exact .one (.report sh _)
    · exact .none sh

end Turns

/-! ## Any task -/

namespace Work

variable (env : Setup)

theorem ending_effects {k : Kind} {ρ : Type} (outcome : ρ → Outcome) (sh : Shared) (r : ρ) :
    Effects k sh (ending outcome sh r).1 := .none sh

theorem endStage_effects {k : Kind} (ending : TxEnd) (sh : Shared) (r : Staging.Result) :
    Effects k sh (endStage ending sh r).1 := .one (.store sh _)

theorem endStartup_effects {k : Kind} (sh : Shared) (u : Unit) : Effects k sh (endStartup sh u).1 :=
  .one (.flags sh _ true _)

theorem endReporter_effects {k : Kind} (sh : Shared) (u : Unit) : Effects k sh (endReporter sh u).1 :=
  .one (.flags sh _ _ true)

theorem lookForFatal_effects {k : Kind} (sh : Shared) : Effects k sh (lookForFatal sh).1 := by
  unfold lookForFatal
  split <;> exact .none sh

theorem start_effects (sh : Shared) (r : Request) : Effects r.kind sh (start env sh r).1 := by
  cases r with
  | catchUp token => exact .one (.mark sh _)
  | range token resume target => exact (RangePass.start_effects token resume target sh).andThen _ (ending_effects _)
  | head guard token event => exact (HeadUpdate.start_effects env event sh).andThen _ (ending_effects _)
  | latestEpoch => exact .one (.mark sh _)
  | readRecord => exact .one (.mark sh _)
  | writeEpoch token epoch => exact (EpochWrite.start_effects token epoch sh).andThen _ (ending_effects _)
  | stage epoch ending => exact (Effects.one (.store sh _)).tail (.mark _ _)
  | pass token resume target => exact (Pass.start_effects token resume target sh).andThen _ (ending_effects _)
  | listen token feed => exact (Listener.start_effects env token feed sh).andThen _ (ending_effects _)
  | waitForFatal => exact lookForFatal_effects sh
  | stop => exact (Stopping.start_effects sh).andThen _ (ending_effects _)
  | runnerStart root =>
    show Effects _ sh (Turn.andThen (Supervisor.start root sh) (.runner root) (ending .stopped)).1
    exact Effects.andThen (t := Supervisor.start root sh) (Supervisor.launch_effects root sh) _ (ending_effects _)
  | runnerStop root => exact (Supervisor.stop_effects root sh).andThen _ (ending_effects _)
  | runnerRun root => exact (Supervisor.run_effects env root sh).andThen _ (ending_effects _)
  | reporter => exact (Reporter.resume_effects env _ sh _).andThen _ endReporter_effects
  | startup => exact .one (.mark sh _)

/-- A turn of a task is a run of effects, and of those that take one kind of work it has just those of its own kind. -/
theorem resume_effects (sh : Shared) (w : Work) (reply : Reply) :
    Effects w.kind sh (w.resume env sh reply).1 := by
  cases w with
  | asked r => exact start_effects env sh r
  | catchUp token c => exact (CatchUp.resume_effects env token sh c reply).andThen _ (ending_effects _)
  | range token r => exact (RangePass.resume_effects env token sh r reply).andThen _ (ending_effects _)
  | head guard token u => exact (HeadUpdate.resume_effects env guard token sh u reply).andThen _ (ending_effects _)
  | latestEpoch => exact .none sh
  | readRecord => exact .none sh
  | writeEpoch token epoch w =>
    exact (EpochWrite.resume_effects env token epoch sh w reply).andThen _ (ending_effects _)
  | stage epoch ending s => exact (Staging.resume_effects env epoch sh s reply).andThen _ (endStage_effects _)
  | pass token pass => exact (Pass.resume_effects env token sh pass reply).andThen _ (ending_effects _)
  | listen token feed l => exact (Listener.resume_effects env .parts token feed sh l reply).andThen _ (ending_effects _)
  | waitForFatal => exact lookForFatal_effects sh
  | stop s => exact (Stopping.resume_effects sh s).andThen _ (ending_effects _)
  | runner root s => exact (Supervisor.resume_effects env root sh s).andThen _ (ending_effects _)
  | reporter r => exact (Reporter.resume_effects env _ sh r).andThen _ endReporter_effects
  | startup s => exact (Startup.resume_effects env sh.runToken sh s reply).andThen _ endStartup_effects

end Work

/-! ## Along a run -/

namespace System

variable (env : Setup) {s s₀ : System} {id : Nat} {w : Work}

theorem turn_effects (reply : Reply) (hw : s.work? id = some w) :
    Effects w.kind s.shared (act env s (.turn id reply)).shared := by
  rw [shared_turn env reply hw]
  exact Work.resume_effects env s.shared w reply

/-- The chain serves the same all along. -/
def Steady (acts : List Action) : Prop := ∀ chain, .change (.serve chain) ∉ acts

theorem act_chain {a : Action} (h : ∀ chain, a ≠ .change (.serve chain)) :
    (act env s a).shared.chain = s.shared.chain := by
  cases a with
  | request r => rfl
  | launch root => simp only [act]; split <;> rfl
  | turn id reply =>
    cases hw : s.work? id with
    | none => rw [turn_of_none env reply hw]
    | some w => exact (turn_effects env reply hw).chain
  | change c =>
    cases c with
    | serve chain => exact absurd rfl (h chain)
    | send event => exact Shared.send_view Shared.chain (fun _ _ _ => rfl) s.shared _ event
    | endStream => exact Shared.dropSender_view Shared.chain (fun _ _ _ => rfl) s.shared
    | _ => rfl

theorem chain_run {acts : List Action} (h : Steady acts) : (run env s₀ acts).shared.chain = s₀.shared.chain := by
  induction acts using List.reverseRecOn with
  | nil => rfl
  | append_singleton acts a ih =>
    rw [run_snoc, act_chain env fun chain ha => h chain (by rw [← ha]; simp)]
    exact ih fun chain hm => h chain (List.mem_append_left _ hm)

theorem act_trace (a : Action) : s.shared.trace.toList <+: (act env s a).shared.trace.toList := by
  cases a with
  | request r => exact List.prefix_refl _
  | launch root => simp only [act]; split <;> exact List.prefix_refl _
  | turn id reply =>
    cases hw : s.work? id with
    | none => simp only [turn_of_none env reply hw, List.prefix_refl]
    | some w => exact (turn_effects env reply hw).trace
  | change c =>
    cases c with
    | send event =>
      have hkept := Shared.send_view Shared.trace (fun _ _ _ => rfl) s.shared env.capacity event
      exact ⟨[], (List.append_nil _).trans (congrArg Array.toList hkept.symm)⟩
    | endStream =>
      have hkept := Shared.dropSender_view Shared.trace (fun _ _ _ => rfl) s.shared
      exact ⟨[], (List.append_nil _).trans (congrArg Array.toList hkept.symm)⟩
    | _ => exact List.prefix_refl _

theorem trace_run (acts rest : List Action) :
    (run env s₀ acts).shared.trace.toList <+: (run env s₀ (acts ++ rest)).shared.trace.toList := by
  induction rest using List.reverseRecOn with
  | nil => simp only [List.append_nil, List.prefix_refl]
  | append_singleton rest a ih =>
    rw [← List.append_assoc, run_snoc]
    exact ih.trans (act_trace env a)

end System

end CommitteeSync
