/-
  CommitteeSync.Proofs.OpenWrite — the one write of an epoch that a task may have open, and
  what a turn does to it and to the ledger.

  Proved, layer by layer from the write of one epoch up to any task of the synchronizer:
  (1) A turn changes the ledger by the commit of its task's open write, if the reply grants
      that commit, and not at all otherwise (`Work.resume_ledger`). Up to following the
      head, it leaves the surroundings alone as well (`Follow.resume_writes`).
  (2) A turn leaves a task the kind of work that it is (`Work.resume_kind`).
-/

import CommitteeSync.Proofs.Turns
import CommitteeSync.Sync.Work

namespace CommitteeSync

open Turn

variable (env : Setup)

/-! ## Which write is open -/

def HeadUpdate.write? : HeadUpdate → Option (Epoch × EpochWrite)
  | .reading _ => none
  | .direct epoch write => some (epoch, write)
  | .filling _ pass => some (pass.epoch, pass.write)

def Listener.write? : Listener → Option (Epoch × EpochWrite)
  | .idle => none
  | .handling u => u.write?

def CatchUp.write? : CatchUp → Option (Epoch × EpochWrite)
  | .reading => none
  | .following f => some (f.pass.epoch, f.pass.write)

def Startup.write? : Startup → Option (Epoch × EpochWrite)
  | .reading | .subscribing => none
  | .following f => some (f.pass.epoch, f.pass.write)
  | .listening _ l => l.write?

/-- The write that a task has open, and its epoch. -/
def Work.write? : Work → Option (Epoch × EpochWrite)
  | .catchUp _ c => c.write?
  | .range _ r => some (r.pass.epoch, r.pass.write)
  | .head _ _ u => u.write?
  | .writeEpoch _ epoch w => some (epoch, w)
  | .pass _ p => some (p.epoch, p.write)
  | .listen _ _ l => l.write?
  | .startup s => s.write?
  | .asked _ | .latestEpoch | .readRecord | .stage _ _ _ | .waitForFatal | .stop _ | .runner _ _ | .reporter _ => none

/-- What a reply commits: the transaction of the open write, if it waits for just that. -/
def commitOf : Option (Epoch × EpochWrite) → Reply → Option (Epoch × Transaction)
  | some (epoch, .committing tx _), .granted => some (epoch, tx)
  | _, _ => none

theorem commitOf_eq_some {w? : Option (Epoch × EpochWrite)} {reply : Reply} {epoch : Epoch} {tx : Transaction} :
    commitOf w? reply = some (epoch, tx) ↔ reply = .granted ∧ ∃ written, w? = some (epoch, .committing tx written) := by
  unfold commitOf
  split
  · simp
  · rename_i h
    exact ⟨fun e => (nomatch e), fun ⟨hr, written, hw⟩ => (h _ _ _ hw hr).elim⟩

/-! ## What a turn commits -/

/-- From `sh` to `sh'` just `c` was committed, and nothing around was touched. -/
structure Shared.Writes (sh sh' : Shared) (c : Option (Epoch × Transaction)) : Prop where
  ledger : sh'.ledger = sh.ledger.after c
  surroundings : sh'.surroundings = sh.surroundings

namespace Shared.Writes

theorem refl (sh : Shared) : sh.Writes sh none := ⟨rfl, rfl⟩

theorem trans {a b c : Shared} {x : Option (Epoch × Transaction)} (h : a.Writes b x) (h' : b.Writes c none) :
    a.Writes c x := ⟨h'.ledger.trans h.ledger, h'.surroundings.trans h.surroundings⟩

theorem andThen {σ ρ σ' ρ' : Type} {sh : Shared} {t : Shared × Turn σ ρ} {c : Option (Epoch × Transaction)}
    (h : sh.Writes t.1 c) (wrap : σ → σ') {next : Shared → ρ → Shared × Turn σ' ρ'}
    (hn : ∀ (sh : Shared) r, sh.Writes (next sh r).1 none) : sh.Writes (Turn.andThen t wrap next).1 c := by
  obtain ⟨sh', s | r⟩ := t
  · exact h
  · exact h.trans (hn sh' r)

theorem log (sh : Shared) (e : Event) (h : e.committed? = none) : sh.Writes (sh.log e) none :=
  ⟨Shared.ledger_log sh e h, rfl⟩

theorem readClock (sh : Shared) : sh.Writes sh.readClock.1 none :=
  ⟨Shared.ledger_readClock sh, Shared.surroundings_readClock sh⟩

end Shared.Writes

theorem Staging.advance_writes (epoch : Epoch) (tx : Transaction) (written : Nat) (sh : Shared) (as : List Assignment) :
    sh.Writes (Staging.advance env epoch tx written sh as).1 none := by
  cases as with
  | nil => exact .refl sh
  | cons a rest => simp only [Staging.advance]; split <;> exact ⟨rfl, rfl⟩

theorem Staging.resume_writes (epoch : Epoch) (sh : Shared) (s : Staging) (reply : Reply) :
    sh.Writes (s.resume env epoch sh reply).1 none := by
  cases s <;> cases reply
  · exact Staging.advance_writes env _ _ _ _ _
  · exact .refl sh
  · exact Staging.advance_writes env _ _ _ _ _
  · exact .refl sh

namespace EpochWrite

theorem fail_writes (sh : Shared) (error : EpochError) : sh.Writes (fail sh error).1 none := by
  simp only [fail]; split <;> exact ⟨rfl, rfl⟩

theorem abort_writes (sh : Shared) (tx : Transaction) (error : EpochError) : sh.Writes (abort sh tx error).1 none :=
  have h := fail_writes (sh.cancelTx tx) error
  ⟨h.ledger, h.surroundings⟩

theorem record_writes (epoch : Epoch) (sh : Shared) (r : Staging.Result) : sh.Writes (record epoch sh r).1 none := by
  obtain ⟨tx, cause | written⟩ := r
  · exact abort_writes sh tx _
  · exact ⟨rfl, rfl⟩

theorem start_writes (token : Token) (epoch : Epoch) (sh : Shared) : sh.Writes (start token epoch sh).1 none := by
  unfold start
  split
  · exact fail_writes sh _
  · exact ⟨rfl, rfl⟩

theorem finish_writes (epoch : Epoch) (sh : Shared) (tx : Transaction) (written : Nat) :
    sh.Writes (finish epoch sh tx written).1 (some (epoch, tx)) := by
  refine ⟨?_, rfl⟩
  simp only [finish, Shared.ledger, Shared.commitLog_log]
  rfl

/-- A turn of the write of `epoch` commits what it waits to commit and nothing else. -/
theorem resume_writes (token : Token) (epoch : Epoch) (sh : Shared) (w : EpochWrite) (reply : Reply) :
    sh.Writes (w.resume env token epoch sh reply).1 (commitOf (some (epoch, w)) reply) := by
  cases w with
  | beginning =>
    simp only [resume]
    split
    · exact fail_writes sh _
    · cases reply
      · exact ⟨rfl, rfl⟩
      · exact fail_writes sh _
  | staging s =>
    simp only [resume]
    split
    · exact abort_writes sh _ _
    · exact (Staging.resume_writes env epoch sh s reply).andThen _ (record_writes epoch)
  | recording tx written =>
    simp only [resume]
    split
    · exact abort_writes sh _ _
    · cases reply
      · exact ⟨rfl, rfl⟩
      · exact abort_writes sh _ _
  | committing tx written =>
    cases reply
    · exact finish_writes epoch sh tx written
    · exact fail_writes sh _

end EpochWrite

namespace Pass

theorem enter_writes (token : Token) (report : Report) (epoch : Epoch) (sh : Shared) :
    sh.Writes (enter token report epoch sh).1 none := by
  unfold enter
  split
  · exact .log sh _ rfl
  · exact ⟨rfl, rfl⟩

theorem settle_writes (token : Token) (report : Report) (epoch : Epoch) (sh : Shared) (r : EpochWrite.Result) :
    sh.Writes (settle token report epoch sh r).1 none := by
  cases r with
  | error error => exact .log sh _ rfl
  | ok _ =>
    simp only [settle]
    split
    · exact .log sh _ rfl
    · exact enter_writes token _ _ sh

theorem start_writes (token : Token) (resume target : Epoch) (sh : Shared) :
    sh.Writes (start token resume target sh).1 none := by
  unfold start
  split
  · exact .log sh _ rfl
  · have h := Shared.Writes.log (sh.count .catchupRun) (.passStarted resume target) rfl
    exact Shared.Writes.trans ⟨h.ledger, h.surroundings⟩ (enter_writes token _ _ _)

theorem resume_writes (token : Token) (sh : Shared) (p : Pass) (reply : Reply) :
    sh.Writes (p.resume env token sh reply).1 (commitOf (some (p.epoch, p.write)) reply) :=
  (EpochWrite.resume_writes env token p.epoch sh p.write reply).andThen _ (settle_writes token p.report p.epoch)

end Pass

namespace Follow

theorem lookAgain_writes (token : Token) (total : Report) (sh : Shared) :
    sh.Writes (lookAgain token total sh).1 none := by
  fun_induction lookAgain token total sh with
  | case1 total sh _ _ after pass h =>
    have hs := Pass.start_writes token (max total.resume (nextEpoch total.target)) sh.readClock.2 sh.readClock.1
    rw [h] at hs
    exact (Shared.Writes.readClock sh).trans hs
  | case2 total sh _ _ after report h ih =>
    have hs := Pass.start_writes token (max total.resume (nextEpoch total.target)) sh.readClock.2 sh.readClock.1
    rw [h] at hs
    exact ((Shared.Writes.readClock sh).trans hs).trans ih
  | case3 total sh => exact .readClock sh
  | case4 total sh => exact .refl sh

theorem start_writes (token : Token) (resume : Epoch) (sh : Shared) : sh.Writes (start token resume sh).1 none := by
  have hs := (Shared.Writes.readClock sh).trans (Pass.start_writes token resume sh.readClock.2 sh.readClock.1)
  unfold start
  split
  · rename_i h; rwa [h] at hs
  · rename_i h; rw [h] at hs; exact hs.trans (lookAgain_writes token _ _)

theorem resume_writes (token : Token) (sh : Shared) (f : Follow) (reply : Reply) :
    sh.Writes (f.resume env token sh reply).1 (commitOf (some (f.pass.epoch, f.pass.write)) reply) :=
  (Pass.resume_writes env token sh f.pass reply).andThen _ fun sh _ => lookAgain_writes token _ sh

end Follow

/-! ## Tasks above a pass: the ledger -/

namespace HeadUpdate

theorem start_ledger (event : HeadEvent) (sh : Shared) : (start env event sh).1.ledger = sh.ledger := by
  simp only [start]
  split
  · rfl
  · exact Shared.ledger_log (sh.count .headEvent) _ rfl

theorem finishDirect_ledger (epoch : Epoch) (sh : Shared) (r : EpochWrite.Result) :
    (finishDirect epoch sh r).1.ledger = sh.ledger := by
  cases r <;> exact Shared.ledger_log sh _ rfl

theorem finishFilling_ledger (guard : Guard) (epoch : Epoch) (sh : Shared) (report : Report) :
    (finishFilling guard epoch sh report).1.ledger = sh.ledger := Shared.ledger_exit sh guard

theorem fill_ledger (guard : Guard) (token : Token) (resume epoch : Epoch) (sh : Shared) :
    (fill guard token resume epoch sh).1.ledger = sh.ledger := by
  have he := Shared.ledger_enter sh guard (.headDeferred resume epoch) rfl
  unfold fill
  split
  · rename_i h; rwa [h] at he
  · rename_i sh' h
    rw [h] at he
    refine (andThen_view Shared.ledger _ _ (finishFilling_ledger guard epoch)).trans ?_
    exact (Pass.start_writes token resume epoch _).ledger.trans ((Shared.ledger_log sh' _ rfl).trans he)

theorem dispatch_ledger (guard : Guard) (token : Token) (epoch : Epoch) (sh : Shared) (r : Except Cause Record) :
    (dispatch guard token epoch sh r).1.ledger = sh.ledger := by
  cases r with
  | error cause => exact Shared.ledger_log sh _ rfl
  | ok record =>
    simp only [dispatch]
    split
    · exact Shared.ledger_log sh _ rfl
    · split
      · exact fill_ledger guard token _ epoch sh
      · exact (andThen_view Shared.ledger _ _ (finishDirect_ledger epoch)).trans
          (EpochWrite.start_writes token epoch sh).ledger

theorem resume_ledger (guard : Guard) (token : Token) (sh : Shared) (u : HeadUpdate) (reply : Reply) :
    (u.resume env guard token sh reply).1.ledger = sh.ledger.after (commitOf u.write? reply) := by
  cases u with
  | reading epoch => exact dispatch_ledger guard token epoch sh _
  | direct epoch write =>
    exact (andThen_view Shared.ledger _ _ (finishDirect_ledger epoch)).trans
      (EpochWrite.resume_writes env token epoch sh write reply).ledger
  | filling epoch pass =>
    exact (andThen_view Shared.ledger _ _ (finishFilling_ledger guard epoch)).trans
      (Pass.resume_writes env token sh pass reply).ledger

end HeadUpdate

namespace Listener

theorem stop_ledger (feed : Nat) (sh : Shared) (exit : ListenerExit) : (stop feed sh exit).1.ledger = sh.ledger := by
  cases exit <;> exact Shared.ledger_log sh _ rfl

theorem serve_ledger (token : Token) (feed : Nat) (sh : Shared) (lag : Nat) (queue : List HeadEvent) :
    (serve env token feed sh lag queue).1.ledger = sh.ledger :=
  serve_fst (P := fun sh' => sh'.ledger = sh.ledger)
    (fun _ event _ h => (HeadUpdate.start_ledger env event _).trans h)
    (fun sh' exit h => (stop_ledger feed sh' exit).trans h) rfl lag queue

theorem start_ledger (token : Token) (feed : Nat) (sh : Shared) : (start env token feed sh).1.ledger = sh.ledger :=
  (serve_ledger env token feed _ _ _).trans (Shared.ledger_log sh _ rfl)

theorem resume_ledger (guard : Guard) (token : Token) (feed : Nat) (sh : Shared) (l : Listener) (reply : Reply) :
    (l.resume env guard token feed sh reply).1.ledger = sh.ledger.after (commitOf l.write? reply) := by
  cases l with
  | idle => exact serve_ledger env token feed sh _ _
  | handling u =>
    exact (andThen_view Shared.ledger _ _ fun sh _ => serve_ledger env token feed sh _ _).trans
      (HeadUpdate.resume_ledger env guard token sh u reply)

end Listener

namespace CatchUp

theorem follow_ledger (token : Token) (sh : Shared) (r : Except Cause Record) :
    (follow token sh r).1.ledger = sh.ledger := by
  cases r with
  | error cause => rfl
  | ok record =>
    have he := Shared.ledger_enter sh .service (.passDenied .manual) rfl
    unfold follow
    dsimp only
    split
    · rename_i h; rwa [h] at he
    · rename_i sh' h
      rw [h] at he
      refine (andThen_view Shared.ledger _ _ fun sh _ => Shared.ledger_exit sh .service).trans ?_
      exact (Follow.start_writes token _ sh').ledger.trans he

theorem resume_ledger (token : Token) (sh : Shared) (c : CatchUp) (reply : Reply) :
    (c.resume env token sh reply).1.ledger = sh.ledger.after (commitOf c.write? reply) := by
  cases c with
  | reading => exact follow_ledger token sh _
  | following f =>
    exact (andThen_view Shared.ledger _ _ fun sh _ => Shared.ledger_exit sh .service).trans
      (Follow.resume_writes env token sh f reply).ledger

end CatchUp

namespace RangePass

theorem start_ledger (token : Token) (resume target : Epoch) (sh : Shared) :
    (start token resume target sh).1.ledger = sh.ledger := by
  have he := Shared.ledger_enter sh .service (.passDenied .range) rfl
  unfold start
  split
  · rename_i h; rwa [h] at he
  · rename_i sh' h
    rw [h] at he
    refine (andThen_view Shared.ledger _ _ fun sh _ => Shared.ledger_exit sh .service).trans ?_
    exact (Pass.start_writes token resume target sh').ledger.trans he

theorem resume_ledger (token : Token) (sh : Shared) (r : RangePass) (reply : Reply) :
    (r.resume env token sh reply).1.ledger = sh.ledger.after (commitOf (some (r.pass.epoch, r.pass.write)) reply) :=
  (andThen_view Shared.ledger _ _ fun sh _ => Shared.ledger_exit sh .service).trans
    (Pass.resume_writes env token sh r.pass reply).ledger

end RangePass

namespace Startup

theorem finish_ledger (sh : Shared) (exit : ListenerExit) : (finish sh exit).1.ledger = sh.ledger := by
  cases exit
  · rfl
  · exact Shared.ledger_fail sh _ _

theorem finish_ends (sh : Shared) (exit : ListenerExit) :
    Yields (finish sh exit) (fun _ _ => False) (fun _ _ => True) := by
  cases exit <;> trivial

theorem listen_ledger (token : Token) (sh : Shared) : (listen env token sh).1.ledger = sh.ledger :=
  (andThen_view Shared.ledger _ _ finish_ledger).trans
    ((Listener.start_ledger env token _ _).trans (Shared.ledger_openFeed sh))

theorem subscribe_ledger (token : Token) (sh : Shared) (report : Report) :
    (subscribe token sh report).1.ledger = sh.ledger := by
  have h := (Shared.ledger_log (sh.exit .service) (.startupCaughtUp report) rfl).trans (Shared.ledger_exit sh .service)
  simp only [subscribe]
  split <;> exact h

theorem catchUp_ledger (token : Token) (sh : Shared) (r : Except Cause Record) :
    (catchUp env token sh r).1.ledger = sh.ledger := by
  cases r with
  | error cause => exact Shared.ledger_fail sh _ _
  | ok record =>
    have he := (Shared.ledger_enter (sh.log (.startupResumes (record.resumePoint env.startOverride) record.latestEpoch
      env.startOverride)) .service (.passDenied .startup) rfl).trans (Shared.ledger_log sh _ rfl)
    simp only [catchUp]
    split
    · rename_i h; rwa [h] at he
    · rename_i sh' h
      rw [h] at he
      exact (andThen_view Shared.ledger _ _ (subscribe_ledger token)).trans
        ((Follow.start_writes token _ sh').ledger.trans he)

theorem resume_ledger (token : Token) (sh : Shared) (s : Startup) (reply : Reply) :
    (s.resume env token sh reply).1.ledger = sh.ledger.after (commitOf s.write? reply) := by
  cases s with
  | reading => exact catchUp_ledger env token sh _
  | following f =>
    exact (andThen_view Shared.ledger _ _ (subscribe_ledger token)).trans
      (Follow.resume_writes env token sh f reply).ledger
  | subscribing =>
    simp only [resume]
    split
    · rfl
    · cases reply
      · exact listen_ledger env token sh
      · exact Shared.ledger_fail sh _ _
  | listening feed l =>
    exact (andThen_view Shared.ledger _ _ finish_ledger).trans
      (Listener.resume_ledger env .service token feed sh l reply)

end Startup

/-! ## The background run and its supervisor -/

/-- An event that the supervisor logs. -/
def Event.isRunner : Event → Bool
  | .runnerStarted | .runnerInterrupted | .runnerCancelled => true
  | _ => false

theorem Event.committed?_of_isRunner {e : Event} (h : e.isRunner) : e.committed? = none := by
  cases e with
  | epochCommitted epoch committees => cases h
  | _ => rfl

/-- A view of the shared state that the supervisor and the reporter leave alone. -/
structure Shared.Aloof {α : Type} (view : Shared → α) : Prop where
  log : ∀ sh e, e.isRunner → view (sh.log e) = view sh
  report : ∀ sh m, view (sh.report m) = view sh
  run : ∀ sh tokens background, view { sh with tokens, background } = view sh

theorem Shared.aloof_ledger : Aloof Shared.ledger :=
  ⟨fun sh e h => ledger_log sh e (Event.committed?_of_isRunner h), fun _ _ => rfl, fun _ _ _ => rfl⟩

section Aloof

variable {α : Type} {view : Shared → α}

theorem Stopping.joinReporter_view (failure : Option Cause) (sh : Shared) : view (joinReporter failure sh).1 = view sh := by
  unfold joinReporter; split <;> rfl

theorem Stopping.joinStartup_view (hv : Shared.Aloof view) (sh : Shared) : view (joinStartup sh).1 = view sh := by
  unfold joinStartup
  split
  · exact (joinReporter_view _ _).trans (hv.run sh _ _)
  · rfl

theorem Stopping.start_view (hv : Shared.Aloof view) (sh : Shared) : view (start sh).1 = view sh :=
  (joinStartup_view hv _).trans (hv.run sh _ _)

theorem Stopping.resume_view (hv : Shared.Aloof view) (sh : Shared) (s : Stopping) : view (s.resume sh).1 = view sh := by
  cases s
  · exact joinStartup_view hv sh
  · exact joinReporter_view _ sh

namespace Supervisor

theorem launch_view (hv : Shared.Aloof view) (root : Token) (sh : Shared) : view (launch root sh).1 = view sh := by
  unfold launch
  split
  · rfl
  · split
    · rfl
    · exact hv.run sh sh.tokens _

theorem stop_view (hv : Shared.Aloof view) (root : Token) (sh : Shared) : view (stop root sh).1 = view sh := by
  unfold stop
  split
  · refine (andThen_view view _ _ fun _ _ => rfl).trans ?_
    exact (Stopping.start_view hv _).trans (hv.run sh _ _)
  · rfl

theorem watch_view (hv : Shared.Aloof view) (root : Token) (sh : Shared) : view (watch env root sh).1 = view sh := by
  unfold watch
  split
  · exact (stop_view hv root _).trans (hv.log sh _ rfl)
  · split
    · exact (stop_view hv root _).trans (hv.log sh _ rfl)
    · rfl

theorem run_view (hv : Shared.Aloof view) (root : Token) (sh : Shared) : view (run env root sh).1 = view sh := by
  have hl := launch_view hv root sh
  unfold run
  split
  · rename_i h; rwa [h] at hl
  · rename_i sh' h; rw [h] at hl; exact (watch_view env hv root _).trans ((hv.log sh' _ rfl).trans hl)

theorem resume_view (hv : Shared.Aloof view) (root : Token) (sh : Shared) (s : Supervisor) :
    view (s.resume env root sh).1 = view sh := by
  cases s
  · exact watch_view env hv root sh
  · exact (andThen_view view _ _ fun _ _ => rfl).trans (Stopping.resume_view hv sh _)

end Supervisor

theorem Reporter.windDown_view (hv : Shared.Aloof view) (lag : Nat) (sh : Shared) (r : Reporter) :
    view (windDown env sh r lag).1 = view sh := by
  induction lag generalizing sh r with
  | zero => exact hv.report sh _
  | succ lag ih =>
    unfold windDown
    split
    · exact (ih _ _).trans (hv.report sh _)
    · exact hv.report sh _

theorem Reporter.resume_view (hv : Shared.Aloof view) (token : Token) (sh : Shared) (r : Reporter) :
    view (r.resume env token sh).1 = view sh := by
  unfold resume
  split
  · exact Reporter.windDown_view env hv _ sh r
  · split
    · exact hv.report sh _
    · rfl

end Aloof

/-! ## Any task -/

/-- What sort of work a task does, as far as it concerns the store. -/
inductive Kind where
  | catchUp
  | range
  | head (guard : Guard)
  | writeEpoch
  /-- Staging in a transaction that is ended as the request says. -/
  | stage
  | pass
  | listen
  | startup
  /-- Work that writes nothing. -/
  | aside
  deriving DecidableEq, Repr

def Request.kind : Request → Kind
  | .catchUp _ => .catchUp
  | .range _ _ _ => .range
  | .head guard _ _ => .head guard
  | .writeEpoch _ _ => .writeEpoch
  | .stage _ _ => .stage
  | .pass _ _ _ => .pass
  | .listen _ _ => .listen
  | .startup => .startup
  | .latestEpoch | .readRecord | .waitForFatal | .stop | .runnerStart _ | .runnerStop _ | .runnerRun _ | .reporter => .aside

namespace Work

def kind : Work → Kind
  | .asked r => r.kind
  | .catchUp _ _ => .catchUp
  | .range _ _ => .range
  | .head guard _ _ => .head guard
  | .writeEpoch _ _ _ => .writeEpoch
  | .stage _ _ _ => .stage
  | .pass _ _ => .pass
  | .listen _ _ _ => .listen
  | .startup _ => .startup
  | .latestEpoch | .readRecord | .waitForFatal | .stop _ | .runner _ _ | .reporter _ => .aside

theorem lookForFatal_ledger (sh : Shared) : (lookForFatal sh).1.ledger = sh.ledger := by
  unfold lookForFatal; split <;> rfl

theorem wrapped_ledger {σ ρ : Type} {t : Shared × Turn σ ρ} {wrap : σ → Work} {next : Shared → ρ → Result} {l : Ledger}
    (h : t.1.ledger = l) (hn : ∀ sh r, (next sh r).1.ledger = sh.ledger) : (andThen t wrap next).1.ledger = l :=
  (andThen_view Shared.ledger t wrap hn).trans h

theorem start_ledger (sh : Shared) (r : Request) (h : r.kind ≠ .stage) :
    (start env sh r).1.ledger = sh.ledger := by
  cases r with
  | catchUp token => rfl
  | range token resume target => exact wrapped_ledger (RangePass.start_ledger token resume target sh) fun _ _ => rfl
  | head guard token event => exact wrapped_ledger (HeadUpdate.start_ledger env event sh) fun _ _ => rfl
  | latestEpoch => rfl
  | readRecord => rfl
  | writeEpoch token epoch => exact wrapped_ledger (EpochWrite.start_writes token epoch sh).ledger fun _ _ => rfl
  | stage epoch ending => exact absurd rfl h
  | pass token resume target => exact wrapped_ledger (Pass.start_writes token resume target sh).ledger fun _ _ => rfl
  | listen token feed => exact wrapped_ledger (Listener.start_ledger env token feed sh) fun _ _ => rfl
  | waitForFatal => exact lookForFatal_ledger sh
  | stop => exact wrapped_ledger (Stopping.start_view Shared.aloof_ledger sh) fun _ _ => rfl
  | runnerStart root => exact wrapped_ledger (Supervisor.launch_view Shared.aloof_ledger root sh) fun _ _ => rfl
  | runnerStop root => exact wrapped_ledger (Supervisor.stop_view Shared.aloof_ledger root sh) fun _ _ => rfl
  | runnerRun root => exact wrapped_ledger (Supervisor.run_view env Shared.aloof_ledger root sh) fun _ _ => rfl
  | reporter => exact wrapped_ledger (Reporter.resume_view env Shared.aloof_ledger _ sh _) fun _ _ => rfl
  | startup => rfl

/-- A turn of a task commits what its open write waits to commit and nothing else. -/
theorem resume_ledger (sh : Shared) (w : Work) (reply : Reply) (h : w.kind ≠ .stage) :
    (w.resume env sh reply).1.ledger = sh.ledger.after (commitOf w.write? reply) := by
  cases w with
  | asked r => exact start_ledger env sh r h
  | catchUp token c => exact wrapped_ledger (CatchUp.resume_ledger env token sh c reply) fun _ _ => rfl
  | range token r => exact wrapped_ledger (RangePass.resume_ledger env token sh r reply) fun _ _ => rfl
  | head guard token u => exact wrapped_ledger (HeadUpdate.resume_ledger env guard token sh u reply) fun _ _ => rfl
  | latestEpoch => rfl
  | readRecord => rfl
  | writeEpoch token epoch w => exact wrapped_ledger (EpochWrite.resume_writes env token epoch sh w reply).ledger fun _ _ => rfl
  | stage epoch ending s => exact absurd rfl h
  | pass token p => exact wrapped_ledger (Pass.resume_writes env token sh p reply).ledger fun _ _ => rfl
  | listen token feed l => exact wrapped_ledger (Listener.resume_ledger env .parts token feed sh l reply) fun _ _ => rfl
  | waitForFatal => exact lookForFatal_ledger sh
  | stop s => exact wrapped_ledger (Stopping.resume_view Shared.aloof_ledger sh s) fun _ _ => rfl
  | runner root s => exact wrapped_ledger (Supervisor.resume_view env Shared.aloof_ledger root sh s) fun _ _ => rfl
  | reporter r => exact wrapped_ledger (Reporter.resume_view env Shared.aloof_ledger _ sh r) fun _ _ => rfl
  | startup s => exact wrapped_ledger (Startup.resume_ledger env sh.runToken sh s reply) fun _ _ => rfl

/-- What holds of all work in one wrapping holds of a turn that goes on in it and otherwise ends. -/
theorem andThen_wrapped {σ ρ : Type} (t : Shared × Turn σ ρ) {P : Work → Prop} {wrap : σ → Work} {next : Shared → ρ → Result}
    (hw : ∀ s, P (wrap s)) (hn : ∀ sh x, Yields (next sh x) (fun _ _ => False) (fun _ _ => True)) :
    Yields (andThen t wrap next) (fun _ w => P w) (fun _ _ => True) :=
  (yields_andThen ..).2 (yields_of_forall t (fun _ s => hw s) fun sh x => (hn sh x).never_waits)

theorem start_kind (sh : Shared) (r : Request) :
    Yields (start env sh r) (fun _ w => w.kind = r.kind) (fun _ _ => True) := by
  cases r with
  | latestEpoch => rfl
  | readRecord => rfl
  | stage epoch ending => rfl
  | waitForFatal => simp only [start, lookForFatal]; split <;> trivial
  | _ => simp only [start]; exact andThen_wrapped _ (fun _ => rfl) fun _ _ => trivial

/-- No turn changes what sort of work a task does. -/
theorem resume_kind (sh : Shared) (w : Work) (reply : Reply) :
    Yields (w.resume env sh reply) (fun _ w' => w'.kind = w.kind) (fun _ _ => True) := by
  cases w with
  | asked r => exact start_kind env sh r
  | latestEpoch => trivial
  | readRecord => trivial
  | waitForFatal => simp only [resume, lookForFatal]; split <;> trivial
  | _ => exact andThen_wrapped _ (fun _ => rfl) fun _ _ => trivial

end Work

end CommitteeSync
