/-
  CommitteeSync.Proofs.Reckoning — what a turn does to the counters.

  The commits, the runs and the gauge of the latest epoch go up where the commit or the run
  itself takes place, so they are balanced against the store and the log at every instant
  (`Shared.Balanced`). Head events and denials are reckoned against what the turn is about:
  the events that it takes, and the pass that it asks for at a gate that is held. Failures
  are not reckoned here; they belong to the account of the writes.

  Proved, layer by layer and then for any task but a staging request: a turn keeps the
  books balanced, counts every head event that it takes and counts the denial it meets, each
  just once (`Work.resume_reckons`).
-/

import CommitteeSync.Proofs.Attempts
import CommitteeSync.Proofs.HeadStream

namespace CommitteeSync

open Turn

variable (env : Setup)

/-! ## The books -/

/-- The range that an event says a pass was run over. -/
@[simp] def Event.range? : Event → Option (Epoch × Epoch)
  | .passStarted resume target | .nothingToCatchUp resume target => some (resume, target)
  | _ => none

theorem max?_concat (epochs : List Epoch) (epoch : Epoch) :
    (epochs ++ [epoch]).max?.getD 0 = max (epochs.max?.getD 0) epoch := by
  cases epochs with
  | nil =>
    have hzero : (0 : Epoch) ≤ epoch := UInt64.le_iff_toNat_le.2 (Nat.zero_le _)
    exact (if_pos hzero).symm
  | cons first rest => simp [List.max?_cons']

theorem le_max?_of_mem {epochs : List Epoch} {epoch : Epoch} (h : epoch ∈ epochs) : epoch ≤ epochs.max?.getD 0 := by
  induction epochs using List.reverseRecOn with
  | nil => exact absurd h List.not_mem_nil
  | append_singleton rest last ih =>
    rw [max?_concat, UInt64.le_iff_toNat_le, toNat_max]
    rcases List.mem_append.1 h with hrest | hlast
    · exact Nat.le_trans (UInt64.le_iff_toNat_le.1 (ih hrest)) (Nat.le_max_left _ _)
    · rw [List.mem_singleton.1 hlast]
      exact Nat.le_max_right _ _

namespace Shared

/-- The ranges that passes were run over so far, in order: each pass tells its own as it
    starts (`Pass.start_ranges`). -/
def ranges (sh : Shared) : List (Epoch × Epoch) := sh.events.toList.filterMap Event.range?

/-- How many of the ranges had an epoch in them. -/
def runs (sh : Shared) : Nat := sh.ranges.countP fun range => range.1 ≤ range.2

theorem ranges_log (sh : Shared) (e : Event) : (sh.log e).ranges = sh.ranges ++ e.range?.toList := by
  simp only [ranges, log, Array.toList_push, List.filterMap_append, List.filterMap_cons, List.filterMap_nil]
  cases e.range? <;> rfl

/-- The counters that go up together with what they count. -/
structure Balanced (sh : Shared) : Prop where
  processed : sh.telemetry.epochsProcessed = UInt64.ofNat sh.store.commits
  committed : sh.store.commits = sh.commitLog.length
  latest : sh.telemetry.latestEpoch = sh.commitLog.max?.getD 0
  runs : sh.telemetry.catchupRuns = UInt64.ofNat sh.runs

/-- The counters but for failures, and what some of them are balanced against. -/
def books (sh : Shared) : Telemetry × Nat × List Epoch × List (Epoch × Epoch) :=
  ({ sh.telemetry with epochFailures := 0 }, sh.store.commits, sh.commitLog, sh.ranges)

/-- From `sh` to `sh'` the books stay balanced, and so many head events and denials are counted. -/
structure Reckons (sh sh' : Shared) (heads denials : Nat) : Prop where
  balanced : sh.Balanced → sh'.Balanced
  heads : sh'.telemetry.headEvents = sh.telemetry.headEvents + UInt64.ofNat heads
  denials : sh'.telemetry.guardDenials = sh.telemetry.guardDenials + UInt64.ofNat denials

theorem books_log (sh : Shared) (e : Event) (hc : e.committed? = none) (hr : e.range? = none) :
    (sh.log e).books = sh.books := by
  simp only [books, commitLog_log, ranges_log, hc, hr, Option.toList_none, List.append_nil]
  rfl

theorem books_fail (sh : Shared) (context : String) (cause : Cause) : (sh.fail context cause).books = sh.books := by
  simp only [fail]
  by_cases h : sh.background.handler.isTriggered
  · rw [if_pos h]; rfl
  · rw [if_neg h]; exact books_log sh (.fatal context cause) rfl rfl

theorem books_openFeed (sh : Shared) : sh.openFeed.1.books = sh.books := by
  simp only [openFeed, dropSender]
  split <;> rfl

/-- The supervisor and the reporter leave the books alone. -/
theorem aloof_books : Aloof Shared.books := by
  refine ⟨fun sh e h => ?_, fun _ _ => rfl, fun _ _ _ => rfl⟩
  cases e with
  | runnerStarted => exact books_log sh _ rfl rfl
  | runnerInterrupted => exact books_log sh _ rfl rfl
  | runnerCancelled => exact books_log sh _ rfl rfl
  | _ => cases h

namespace Reckons

variable {a b c : Shared} {m n : Nat}

theorem of_books (h : b.books = a.books) : a.Reckons b 0 0 := by
  have hcommits : b.store.commits = a.store.commits := congrArg (fun books => books.2.1) h
  have hlog : b.commitLog = a.commitLog := congrArg (fun books => books.2.2.1) h
  have hranges : b.ranges = a.ranges := congrArg (fun books => books.2.2.2) h
  have hprocessed : b.telemetry.epochsProcessed = a.telemetry.epochsProcessed :=
    congrArg (fun books => books.1.epochsProcessed) h
  have hlatest : b.telemetry.latestEpoch = a.telemetry.latestEpoch := congrArg (fun books => books.1.latestEpoch) h
  have hruns : b.telemetry.catchupRuns = a.telemetry.catchupRuns := congrArg (fun books => books.1.catchupRuns) h
  have hheads : b.telemetry.headEvents = a.telemetry.headEvents := congrArg (fun books => books.1.headEvents) h
  have hdenials : b.telemetry.guardDenials = a.telemetry.guardDenials := congrArg (fun books => books.1.guardDenials) h
  refine ⟨fun hb => ⟨?_, ?_, ?_, ?_⟩, ?_, ?_⟩
  · rw [hprocessed, hb.processed, hcommits]
  · rw [hcommits, hb.committed, hlog]
  · rw [hlatest, hb.latest, hlog]
  · rw [hruns, hb.runs, Shared.runs, Shared.runs, hranges]
  · rw [hheads]
    exact (UInt64.add_zero _).symm
  · rw [hdenials]
    exact (UInt64.add_zero _).symm

theorem refl (a : Shared) : a.Reckons a 0 0 := of_books rfl

theorem trans {m' n' : Nat} (h : a.Reckons b m n) (h' : b.Reckons c m' n') : a.Reckons c (m + m') (n + n') := by
  refine ⟨fun hb => h'.balanced (h.balanced hb), ?_, ?_⟩
  · rw [h'.heads, h.heads, UInt64.ofNat_add, UInt64.add_assoc]
  · rw [h'.denials, h.denials, UInt64.ofNat_add, UInt64.add_assoc]

/-- What leaves the books alone counts nothing. -/
theorem keep (h : a.Reckons b m n) (hc : c.books = b.books) : a.Reckons c m n := h.trans (of_books hc)

/-- What counts nothing may come first. -/
theorem after (h : b.Reckons c m n) (h' : a.Reckons b 0 0) : a.Reckons c m n := by
  have ht := h'.trans h
  rwa [Nat.zero_add, Nat.zero_add] at ht

theorem andThen {σ ρ σ' ρ' : Type} {t : Shared × Turn σ ρ} (h : a.Reckons t.1 m n) (wrap : σ → σ')
    {next : Shared → ρ → Shared × Turn σ' ρ'} (hn : ∀ sh r, Reckons sh (next sh r).1 0 0) :
    a.Reckons (Turn.andThen t wrap next).1 m n := by
  obtain ⟨sh, s | r⟩ := t
  · exact h
  · exact h.trans (hn sh r)

theorem log (sh : Shared) (e : Event) (hc : e.committed? = none) (hr : e.range? = none) : sh.Reckons (sh.log e) 0 0 :=
  of_books (books_log sh e hc hr)

theorem readClock (sh : Shared) : sh.Reckons sh.readClock.1 0 0 := by
  unfold Shared.readClock
  split <;> exact of_books rfl

theorem exit (sh : Shared) (g : Guard) : sh.Reckons (sh.exit g) 0 0 := by
  cases g <;> exact of_books rfl

/-- Only at a gate that is held is there a denial, and then it is counted. -/
theorem enter (sh : Shared) (g : Guard) (denial : Event) (hc : denial.committed? = none) (hr : denial.range? = none) :
    sh.Reckons (sh.enter g denial).1 0 (sh.gate g).held.toNat := by
  unfold Shared.enter Gate.enter?
  cases hg : (sh.gate g).held with
  | true =>
    have hcount : sh.Reckons (sh.count .guardDenial) 0 1 :=
      ⟨fun hb => ⟨hb.processed, hb.committed, hb.latest, hb.runs⟩, (UInt64.add_zero _).symm, rfl⟩
    exact hcount.trans (log _ denial hc hr)
  | false => cases g <;> exact of_books rfl

/-- A commit is counted, and the gauge follows it. -/
theorem commits (sh : Shared) (tx : Transaction) (epoch : Epoch) (written : Nat) :
    sh.Reckons (((sh.commitTx tx).count (.epochProcessed epoch)).log (.epochCommitted epoch written)) 0 0 := by
  refine ⟨fun hb => ⟨?_, ?_, ?_, ?_⟩, (UInt64.add_zero _).symm, (UInt64.add_zero _).symm⟩
  · show sh.telemetry.epochsProcessed + 1 = UInt64.ofNat (sh.store.commits + 1)
    rw [hb.processed, UInt64.ofNat_add]
    rfl
  · rw [commitLog_log, List.length_append]
    exact congrArg (· + 1) hb.committed
  · rw [commitLog_log]
    show max sh.telemetry.latestEpoch epoch = (sh.commitLog ++ [epoch]).max?.getD 0
    rw [max?_concat, hb.latest]
  · rw [Shared.runs, ranges_log]
    simp only [Event.range?, Option.toList_none, List.append_nil]
    exact hb.runs

/-- A run over a range that has an epoch in it is counted. -/
theorem runs (sh : Shared) {resume target : Epoch} (h : resume ≤ target) :
    sh.Reckons ((sh.count .catchupRun).log (.passStarted resume target)) 0 0 := by
  have hlog := commitLog_of_ledger (ledger_log (sh.count .catchupRun) (.passStarted resume target) rfl)
  refine ⟨fun hb => ⟨hb.processed, ?_, ?_, ?_⟩, (UInt64.add_zero _).symm, (UInt64.add_zero _).symm⟩
  · rw [hlog]
    exact hb.committed
  · rw [hlog]
    exact hb.latest
  · show sh.telemetry.catchupRuns + 1 = _
    rw [Shared.runs, ranges_log, List.countP_append, UInt64.ofNat_add, hb.runs]
    simp only [Event.range?, Option.toList_some, List.countP_singleton, h, decide_true, if_true]
    rfl

/-- A run over nothing is not. -/
theorem emptyRun (sh : Shared) {resume target : Epoch} (h : ¬ resume ≤ target) :
    sh.Reckons (sh.log (.nothingToCatchUp resume target)) 0 0 := by
  have hlog := commitLog_of_ledger (ledger_log sh (.nothingToCatchUp resume target) rfl)
  refine ⟨fun hb => ⟨hb.processed, ?_, ?_, ?_⟩, (UInt64.add_zero _).symm, (UInt64.add_zero _).symm⟩
  · rw [hlog]
    exact hb.committed
  · rw [hlog]
    exact hb.latest
  · rw [Shared.runs, ranges_log, List.countP_append]
    simp only [Event.range?, Option.toList_some, List.countP_singleton, h, decide_false, Bool.false_eq_true, if_false]
    exact hb.runs

end Reckons

end Shared

open Shared

/-! ## Writes and passes -/

theorem Staging.advance_books (epoch : Epoch) (tx : Transaction) (written : Nat) (sh : Shared) (as : List Assignment) :
    (advance env epoch tx written sh as).1.books = sh.books := by
  cases as with
  | nil => rfl
  | cons a rest => simp only [advance]; split <;> rfl

theorem Staging.resume_books (epoch : Epoch) (sh : Shared) (s : Staging) (reply : Reply) :
    (s.resume env epoch sh reply).1.books = sh.books := by
  cases s <;> cases reply
  · exact advance_books env _ _ _ _ _
  · rfl
  · exact advance_books env _ _ _ _ _
  · rfl

namespace EpochWrite

theorem fail_books (sh : Shared) (error : EpochError) : (fail sh error).1.books = sh.books := by
  simp only [fail]; split <;> rfl

theorem abort_books (sh : Shared) (tx : Transaction) (error : EpochError) : (abort sh tx error).1.books = sh.books :=
  fail_books (sh.cancelTx tx) error

theorem record_books (epoch : Epoch) (sh : Shared) (r : Staging.Result) : (record epoch sh r).1.books = sh.books := by
  obtain ⟨tx, cause | written⟩ := r
  · exact abort_books sh tx _
  · rfl

theorem start_reckons (token : Token) (epoch : Epoch) (sh : Shared) : sh.Reckons (start token epoch sh).1 0 0 := by
  unfold start
  split
  · exact .of_books (fail_books sh _)
  · exact .of_books rfl

theorem resume_reckons (token : Token) (epoch : Epoch) (sh : Shared) (w : EpochWrite) (reply : Reply) :
    sh.Reckons (w.resume env token epoch sh reply).1 0 0 := by
  cases w with
  | beginning =>
    simp only [resume]
    split
    · exact .of_books (fail_books sh _)
    · cases reply
      · exact .of_books rfl
      · exact .of_books (fail_books sh _)
  | staging s =>
    simp only [resume]
    split
    · exact .of_books (abort_books sh _ _)
    · exact .of_books ((andThen_view Shared.books _ _ (record_books epoch)).trans (s.resume_books env epoch sh reply))
  | recording tx written =>
    simp only [resume]
    split
    · exact .of_books (abort_books sh _ _)
    · cases reply
      · exact .of_books rfl
      · exact .of_books (abort_books sh _ _)
  | committing tx written =>
    cases reply
    · exact .commits sh tx epoch written
    · exact .of_books (fail_books sh _)

end EpochWrite

namespace Pass

theorem enter_reckons (token : Token) (report : Report) (epoch : Epoch) (sh : Shared) :
    sh.Reckons (enter token report epoch sh).1 0 0 := by
  unfold enter
  split
  · exact .log sh _ rfl rfl
  · exact .of_books rfl

theorem settle_reckons (token : Token) (report : Report) (epoch : Epoch) (sh : Shared) (r : EpochWrite.Result) :
    sh.Reckons (settle token report epoch sh r).1 0 0 := by
  cases r with
  | error error => exact .log sh _ rfl rfl
  | ok _ =>
    simp only [settle]
    split
    · exact .log sh _ rfl rfl
    · exact enter_reckons token _ _ sh

/-- A pass tells the range that it is run over. -/
theorem start_ranges (token : Token) (resume target : Epoch) (sh : Shared) :
    (start token resume target sh).1.ranges = sh.ranges ++ [(resume, target)] := by
  unfold start
  split
  · exact ranges_log sh _
  · have hlog := ranges_log (sh.count .catchupRun) (.passStarted resume target)
    unfold enter
    split
    · exact (ranges_log _ (.passCancelled resume)).trans ((List.append_nil _).trans hlog)
    · exact hlog

/-- The run that a pass is gets counted just if there is something in its range. -/
theorem start_reckons (token : Token) (resume target : Epoch) (sh : Shared) :
    sh.Reckons (start token resume target sh).1 0 0 := by
  unfold start
  split
  · rename_i h
    exact .emptyRun sh (UInt64.not_le.2 h)
  · rename_i h
    exact (Reckons.runs sh (UInt64.not_lt.1 h)).trans (enter_reckons token _ _ _)

theorem resume_reckons (token : Token) (sh : Shared) (p : Pass) (reply : Reply) :
    sh.Reckons (p.resume env token sh reply).1 0 0 :=
  (EpochWrite.resume_reckons env token p.epoch sh p.write reply).andThen _ (settle_reckons token p.report p.epoch)

end Pass

namespace Follow

/-- Each range that follows is a run of its own. -/
theorem lookAgain_reckons (token : Token) (total : Report) (sh : Shared) :
    sh.Reckons (lookAgain token total sh).1 0 0 := by
  fun_induction lookAgain token total sh with
  | case1 total sh _ _ after pass h =>
    have hs := Pass.start_reckons token (max total.resume (nextEpoch total.target)) sh.readClock.2 sh.readClock.1
    rw [h] at hs
    exact (Reckons.readClock sh).trans hs
  | case2 total sh _ _ after report h ih =>
    have hs := Pass.start_reckons token (max total.resume (nextEpoch total.target)) sh.readClock.2 sh.readClock.1
    rw [h] at hs
    exact ((Reckons.readClock sh).trans hs).trans ih
  | case3 total sh => exact .readClock sh
  | case4 total sh => exact .refl sh

theorem start_reckons (token : Token) (resume : Epoch) (sh : Shared) : sh.Reckons (start token resume sh).1 0 0 := by
  have hs := (Reckons.readClock sh).trans (Pass.start_reckons token resume sh.readClock.2 sh.readClock.1)
  unfold start
  split
  · rename_i h; rwa [h] at hs
  · rename_i h; rw [h] at hs; exact hs.trans (lookAgain_reckons token _ _)

theorem resume_reckons (token : Token) (sh : Shared) (f : Follow) (reply : Reply) :
    sh.Reckons (f.resume env token sh reply).1 0 0 :=
  (Pass.resume_reckons env token sh f.pass reply).andThen _ fun _ _ => lookAgain_reckons token _ _

end Follow

/-! ## Head events -/

/-- The pass that the event asks for is denied. -/
def HeadUpdate.denied (guard : Guard) (sh : Shared) (reply : Reply) (u : HeadUpdate) : Bool :=
  u.attempts env sh reply && (sh.gate guard).held

namespace HeadUpdate

/-- An event is counted as soon as it is handed over. -/
theorem start_reckons (event : HeadEvent) (sh : Shared) : sh.Reckons (start env event sh).1 1 0 := by
  have hcount : sh.Reckons (sh.count .headEvent) 1 0 :=
    ⟨fun hb => ⟨hb.processed, hb.committed, hb.latest, hb.runs⟩, rfl, (UInt64.add_zero _).symm⟩
  simp only [start]
  split
  · exact hcount.keep rfl
  · exact hcount.keep (books_log _ (.headIgnored event.slot) rfl rfl)

theorem finishDirect_reckons (epoch : Epoch) (sh : Shared) (r : EpochWrite.Result) :
    sh.Reckons (finishDirect epoch sh r).1 0 0 := by
  cases r <;> exact .log sh _ rfl rfl

theorem fill_reckons (guard : Guard) (token : Token) (resume epoch : Epoch) (sh : Shared) :
    sh.Reckons (fill guard token resume epoch sh).1 0 (sh.gate guard).held.toNat := by
  have he := Reckons.enter sh guard (.headDeferred resume epoch) rfl rfl
  unfold fill
  split
  · rename_i h; rwa [h] at he
  · rename_i sh' h
    rw [h] at he
    have hlog := he.trans (.log sh' (.headFillsGap resume epoch) rfl rfl)
    exact hlog.trans ((Pass.start_reckons token resume epoch _).andThen _ fun sh'' _ => .exit sh'' guard)

theorem resume_reckons (guard : Guard) (token : Token) (sh : Shared) (u : HeadUpdate) (reply : Reply) :
    sh.Reckons (u.resume env guard token sh reply).1 0 (u.denied env guard sh reply).toNat := by
  cases u with
  | reading epoch =>
    cases hr : sh.readRecord env reply with
    | error cause =>
      simp only [resume, dispatch, denied, attempts, hr, Bool.false_and]
      exact (Reckons.log sh (.epochFailed .head ⟨epoch, .readMetadata, cause⟩) rfl rfl).keep rfl
    | ok record =>
      simp only [resume, dispatch, denied, attempts, hr]
      -- Only an event past the resume point gets to the gate.
      split
      · rename_i hlt
        have hle : ¬ record.resumePoint none < epoch := UInt64.not_lt.2 (UInt64.le_of_lt hlt)
        rw [decide_eq_false hle, Bool.false_and]
        exact .log sh _ rfl rfl
      · split
        · rename_i hlt
          rw [decide_eq_true hlt, Bool.true_and]
          exact fill_reckons guard token _ epoch sh
        · rename_i hlt
          rw [decide_eq_false hlt, Bool.false_and]
          exact (EpochWrite.start_reckons token epoch sh).andThen _ (finishDirect_reckons epoch)
  | direct epoch write =>
    exact (EpochWrite.resume_reckons env token epoch sh write reply).andThen _ (finishDirect_reckons epoch)
  | filling epoch pass =>
    exact (Pass.resume_reckons env token sh pass reply).andThen _ fun sh' _ => .exit sh' guard

end HeadUpdate

namespace Listener

/-- The pass that the event in hand asks for is denied. -/
def denied (guard : Guard) (sh : Shared) (reply : Reply) : Listener → Bool
  | .idle => false
  | .handling u => u.denied env guard sh reply

theorem stop_reckons (feed : Nat) (sh : Shared) (exit : ListenerExit) : sh.Reckons (stop feed sh exit).1 0 0 := by
  cases exit <;> exact (Reckons.log sh _ rfl rfl).keep rfl

theorem serve_empty_reckons (token : Token) (feed : Nat) (sh : Shared) (lag : Nat) :
    sh.Reckons (serve env token feed sh lag []).1 0 0 := by
  unfold serve
  split
  · exact stop_reckons feed sh .shutdown
  · split
    · exact .refl sh
    · exact stop_reckons feed sh .streamClosed

/-- Every event that is taken is counted. -/
theorem serveNoting_reckons (token : Token) (feed : Nat) (sh : Shared) (lag : Nat) (queue : List HeadEvent) :
    sh.Reckons (serveNoting env token feed sh lag queue).2.1
      (Handling.events (serveNoting env token feed sh lag queue).1).length 0 := by
  induction queue generalizing sh lag with
  | nil =>
    unfold serveNoting
    split
    · exact stop_reckons feed sh .shutdown
    · split
      · exact .refl sh
      · exact stop_reckons feed sh .streamClosed
  | cons event rest ih =>
    have hfeed : sh.Reckons (sh.updateFeed feed fun f => { f with queue := rest }) 0 0 := .of_books rfl
    have hs := (HeadUpdate.start_reckons env event _).after hfeed
    unfold serveNoting
    split
    · exact stop_reckons feed sh .shutdown
    · split
      · rename_i h; rwa [h] at hs
      · rename_i sh' outcome h
        rw [h] at hs
        have ht := hs.trans (ih sh' (lag - 1))
        rwa [Nat.add_comm] at ht

theorem resumeNoting_reckons (guard : Guard) (token : Token) (feed : Nat) (sh : Shared) (l : Listener) (reply : Reply) :
    sh.Reckons (l.resumeNoting env guard token feed sh reply).2.1
      (Handling.events (l.resumeNoting env guard token feed sh reply).1).length (l.denied env guard sh reply).toNat := by
  cases l with
  | idle => exact serveNoting_reckons env token feed sh _ _
  | handling u =>
    have hu := u.resume_reckons env guard token sh reply
    simp only [resumeNoting]
    rcases h : u.resume env guard token sh reply with ⟨sh', u' | outcome⟩
    · rwa [h] at hu
    · rw [h] at hu
      have ht := hu.trans (serveNoting_reckons env token feed sh' (env.lag sh') (sh'.unread feed))
      rwa [Nat.zero_add] at ht

end Listener

/-! ## Catching up -/

/-- The pass that is asked for is denied. -/
def CatchUp.denied (sh : Shared) (reply : Reply) : CatchUp → Bool
  | .reading => (sh.readRecord env reply).isOk && sh.busy
  | .following _ => false

theorem CatchUp.follow_reckons (token : Token) (sh : Shared) (r : Except Cause Record) :
    sh.Reckons (follow token sh r).1 0 (r.isOk && sh.busy).toNat := by
  cases r with
  | error cause => exact .refl sh
  | ok record =>
    have he := Reckons.enter sh .service (.passDenied .manual) rfl rfl
    show sh.Reckons _ 0 (sh.gate .service).held.toNat
    simp only [follow]
    split
    · rename_i h; rwa [h] at he
    · rename_i sh' h
      rw [h] at he
      exact he.trans ((Follow.start_reckons token _ sh').andThen _ fun sh'' _ => .exit sh'' .service)

theorem CatchUp.resume_reckons (token : Token) (sh : Shared) (c : CatchUp) (reply : Reply) :
    sh.Reckons (c.resume env token sh reply).1 0 (c.denied env sh reply).toNat := by
  cases c with
  | reading => exact follow_reckons token sh _
  | following f => exact (Follow.resume_reckons env token sh f reply).andThen _ fun sh' _ => .exit sh' .service

theorem RangePass.start_reckons (token : Token) (resume target : Epoch) (sh : Shared) :
    sh.Reckons (start token resume target sh).1 0 sh.busy.toNat := by
  have he := Reckons.enter sh .service (.passDenied .range) rfl rfl
  unfold start
  split
  · rename_i h; rwa [h] at he
  · rename_i sh' h
    rw [h] at he
    exact he.trans ((Pass.start_reckons token resume target sh').andThen _ fun sh'' _ => .exit sh'' .service)

theorem RangePass.resume_reckons (token : Token) (sh : Shared) (r : RangePass) (reply : Reply) :
    sh.Reckons (r.resume env token sh reply).1 0 0 :=
  (r.pass.resume_reckons env token sh reply).andThen _ fun sh' _ => .exit sh' .service

namespace Startup

/-- The pass that startup asks for is denied, or the one that the event in hand asks for. -/
def denied (sh : Shared) (reply : Reply) : Startup → Bool
  | .reading => (sh.readRecord env reply).isOk && sh.busy
  | .listening _ l => l.denied env .service sh reply
  | .following _ | .subscribing => false

/-- The head events that startup takes in its turn. -/
def handed (token : Token) (sh : Shared) (reply : Reply) : Startup → List HeadEvent
  | .listening feed l => Handling.events (l.resumeNoting env .service token feed sh reply).1
  | _ => []

theorem finish_reckons (sh : Shared) (exit : ListenerExit) : sh.Reckons (finish sh exit).1 0 0 := by
  cases exit
  · exact .refl sh
  · exact .of_books (books_fail sh _ _)

/-- The stream that startup opens has no event in it yet. -/
theorem listen_reckons (token : Token) (sh : Shared) : sh.Reckons (listen env token sh).1 0 0 := by
  have hopen : sh.Reckons sh.openFeed.1 0 0 := .of_books (books_openFeed sh)
  have hempty : sh.openFeed.1.unread sh.openFeed.2 = [] := by simp [openFeed, unread, Shared.feed, Feed.fresh]
  simp only [listen]
  rcases ho : sh.openFeed with ⟨sh₁, feed⟩
  rw [ho] at hopen hempty
  have hqueue : ((sh₁.log .listening).feed feed).queue = [] := hempty
  have hlog : sh.Reckons (sh₁.log .listening) 0 0 := hopen.keep (books_log sh₁ .listening rfl rfl)
  simp only [Listener.start, Listener.takeNext, hqueue]
  exact (hlog.trans (Listener.serve_empty_reckons env token feed _ _)).andThen _ finish_reckons

theorem subscribe_reckons (token : Token) (sh : Shared) (report : Report) :
    sh.Reckons (subscribe token sh report).1 0 0 := by
  have h := (Reckons.exit sh .service).trans (.log _ (.startupCaughtUp report) rfl rfl)
  simp only [subscribe]
  split
  · exact h
  · exact h.keep rfl

theorem catchUp_reckons (token : Token) (sh : Shared) (r : Except Cause Record) :
    sh.Reckons (catchUp env token sh r).1 0 (r.isOk && sh.busy).toNat := by
  cases r with
  | error cause => exact .of_books (books_fail sh _ _)
  | ok record =>
    have he := (Reckons.enter (sh.log (.startupResumes (record.resumePoint env.startOverride) record.latestEpoch
      env.startOverride)) .service (.passDenied .startup) rfl rfl).after (.log sh _ rfl rfl)
    show sh.Reckons _ 0 (sh.gate .service).held.toNat
    simp only [catchUp]
    split
    · rename_i h; rwa [h] at he
    · rename_i sh' h
      rw [h] at he
      exact he.trans ((Follow.start_reckons token _ sh').andThen _ (subscribe_reckons token))

theorem resume_reckons (token : Token) (sh : Shared) (s : Startup) (reply : Reply) :
    sh.Reckons (s.resume env token sh reply).1 (s.handed env token sh reply).length (s.denied env sh reply).toNat := by
  cases s with
  | reading => exact catchUp_reckons env token sh _
  | following f => exact (Follow.resume_reckons env token sh f reply).andThen _ (subscribe_reckons token)
  | subscribing =>
    simp only [resume]
    split
    · exact .refl sh
    · cases reply
      · exact listen_reckons env token sh
      · exact .of_books (books_fail sh _ _)
  | listening feed l =>
    have hl := l.resumeNoting_reckons env .service token feed sh reply
    rw [Listener.resumeNoting_resume] at hl
    exact hl.andThen _ finish_reckons

end Startup

/-! ## Any task -/

namespace Work

/-- The head events that are handed over in the task's turn: the one that the task is about,
    or those that its listener takes. -/
def handed (sh : Shared) (reply : Reply) : Work → List HeadEvent
  | .asked (.head _ _ event) => [event]
  | w => Handling.events (w.notes env sh reply)

/-- The task's turn asks for a pass at a gate that is held. -/
def denied (sh : Shared) (reply : Reply) : Work → Bool
  | .head .parts _ u | .listen _ _ (.handling u) => u.attempts env sh reply && sh.partsGate.held
  | w => w.attempts env sh reply && sh.busy

theorem lookForFatal_reckons (sh : Shared) : sh.Reckons (lookForFatal sh).1 0 0 := by
  unfold lookForFatal
  split <;> exact .refl sh

theorem ending_reckons {ρ : Type} (outcome : ρ → Outcome) (sh : Shared) (r : ρ) : sh.Reckons (ending outcome sh r).1 0 0 :=
  .refl sh

theorem start_reckons (sh : Shared) (r : Request) (reply : Reply) (h : r.kind ≠ .stage) :
    sh.Reckons (start env sh r).1 ((asked r).handed env sh reply).length ((asked r).denied env sh reply).toNat := by
  cases r with
  | catchUp token => exact .of_books rfl
  | range token resume target => exact (RangePass.start_reckons token resume target sh).andThen _ (ending_reckons _)
  | head guard token event => exact (HeadUpdate.start_reckons env event sh).andThen _ (ending_reckons _)
  | latestEpoch => exact .of_books rfl
  | readRecord => exact .of_books rfl
  | writeEpoch token epoch => exact (EpochWrite.start_reckons token epoch sh).andThen _ (ending_reckons _)
  | stage epoch ending => exact absurd rfl h
  | pass token resume target => exact (Pass.start_reckons token resume target sh).andThen _ (ending_reckons _)
  | listen token feed =>
    have hl := (Listener.resumeNoting_reckons env .parts token feed (sh.log .listening) .idle reply).after
      (.log sh _ rfl rfl)
    rw [Listener.resumeNoting_resume] at hl
    exact hl.andThen _ (ending_reckons _)
  | waitForFatal => exact lookForFatal_reckons sh
  | stop => exact (Reckons.of_books (Stopping.start_view aloof_books sh)).andThen _ (ending_reckons _)
  | runnerStart root => exact (Reckons.of_books (Supervisor.launch_view aloof_books root sh)).andThen _ (ending_reckons _)
  | runnerStop root => exact (Reckons.of_books (Supervisor.stop_view aloof_books root sh)).andThen _ (ending_reckons _)
  | runnerRun root => exact (Reckons.of_books (Supervisor.run_view env aloof_books root sh)).andThen _ (ending_reckons _)
  | reporter =>
    exact (Reckons.of_books (Reporter.resume_view env aloof_books _ sh _)).andThen _ fun _ _ => .of_books rfl
  | startup => exact .of_books rfl

/-- A turn keeps the books balanced, and counts the head events that it takes and its denial. -/
theorem resume_reckons (sh : Shared) (w : Work) (reply : Reply) (h : w.kind ≠ .stage) :
    sh.Reckons (w.resume env sh reply).1 (w.handed env sh reply).length (w.denied env sh reply).toNat := by
  cases w with
  | asked r => exact start_reckons env sh r reply h
  | catchUp token c =>
    have hd : (catchUp token c).denied env sh reply = c.denied env sh reply := by cases c <;> rfl
    rw [hd]
    exact (c.resume_reckons env token sh reply).andThen _ (ending_reckons _)
  | range token r => exact (r.resume_reckons env token sh reply).andThen _ (ending_reckons _)
  | head guard token u =>
    have hd : (head guard token u).denied env sh reply = u.denied env guard sh reply := by cases guard <;> rfl
    rw [hd]
    exact (u.resume_reckons env guard token sh reply).andThen _ (ending_reckons _)
  | latestEpoch => exact .refl sh
  | readRecord => exact .refl sh
  | writeEpoch token epoch w =>
    exact (EpochWrite.resume_reckons env token epoch sh w reply).andThen _ (ending_reckons _)
  | stage epoch ending s => exact absurd rfl h
  | pass token p => exact (Pass.resume_reckons env token sh p reply).andThen _ (ending_reckons _)
  | listen token feed l =>
    have hd : (listen token feed l).denied env sh reply = l.denied env .parts sh reply := by cases l <;> rfl
    have hl := l.resumeNoting_reckons env .parts token feed sh reply
    rw [Listener.resumeNoting_resume] at hl
    rw [hd]
    exact hl.andThen _ (ending_reckons _)
  | waitForFatal => exact lookForFatal_reckons sh
  | stop s => exact (Reckons.of_books (Stopping.resume_view aloof_books sh s)).andThen _ (ending_reckons _)
  | runner root s => exact (Reckons.of_books (Supervisor.resume_view env aloof_books root sh s)).andThen _ (ending_reckons _)
  | reporter r => exact (Reckons.of_books (Reporter.resume_view env aloof_books _ sh r)).andThen _ fun _ _ => .of_books rfl
  | startup s =>
    have hd : (startup s).denied env sh reply = s.denied env sh reply := by
      cases s with
      | listening feed l => cases l <;> rfl
      | _ => rfl
    have hh : (startup s).handed env sh reply = s.handed env sh.runToken sh reply := by cases s <;> rfl
    rw [hd, hh]
    exact (s.resume_reckons env sh.runToken sh reply).andThen _ fun _ _ => .of_books rfl

end Work

end CommitteeSync
