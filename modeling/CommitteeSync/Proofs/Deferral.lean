/-
  CommitteeSync.Proofs.Deferral — an event that was denied the guard is not lost.

  A head event ahead of the record is left to whoever holds the guard. Nothing remembers it:
  it is covered because a pass that follows the head reads the clock once more after its last
  commit and goes on if the head has moved, and because it releases the guard in that turn.

  Proved, for any number of catch-ups, head events and startups that start from the record,
  in any interleaving: if the event of `e` is deferred and every reading of the clock from
  then on is `e` or later, then whatever pass completes next has `e` committed in the turn in
  which it releases the guard (`deferred_committed`).
-/

import CommitteeSync.Proofs.Completion
import CommitteeSync.Proofs.SingleFlight

namespace CommitteeSync

open Turn

variable (env : Setup)

/-! ## What is deferred -/

namespace HeadUpdate

theorem fill_defers (guard : Guard) (token : Token) (resume epoch : Epoch) (sh : Shared) :
    Yields (fill guard token resume epoch sh) (fun _ _ => True) (fun _ o => ∀ e, o = .deferred e → e = epoch) := by
  unfold fill
  split
  · intro e he
    cases he
    rfl
  · refine (yields_andThen ..).2 (yields_of_forall _ (fun _ _ => trivial) fun sh r e he => ?_)
    split at he <;> cases he

theorem dispatch_defers (guard : Guard) (token : Token) (epoch : Epoch) (sh : Shared) (r : Except Cause Record) :
    Yields (dispatch guard token epoch sh r) (fun _ _ => True)
      (fun _ o => ∀ e, o = .deferred e → ∃ record, r = .ok record ∧ record.resumePoint none < e) := by
  cases r with
  | error cause => intro e he; cases he
  | ok record =>
    simp only [dispatch]
    split
    · intro e he; cases he
    · split
      · rename_i hlt
        refine (fill_defers guard token _ epoch sh).mono_ends fun _ o ho e he => ⟨record, rfl, ?_⟩
        rw [ho e he]
        exact hlt
      · refine (yields_andThen ..).2 (yields_of_forall _ (fun _ _ => trivial) fun sh r => ?_)
        cases r <;> intro e he <;> cases he

/-- An event is deferred only when the record was read and the event is past its resume point. -/
theorem resume_defers (guard : Guard) (token : Token) (sh : Shared) (u : HeadUpdate) (reply : Reply) :
    Yields (u.resume env guard token sh reply) (fun _ _ => True)
      (fun _ o => ∀ e, o = .deferred e → ∃ record, sh.readRecord env reply = .ok record ∧ record.resumePoint none < e) := by
  cases u with
  | reading epoch => exact dispatch_defers guard token epoch sh _
  | direct epoch write =>
    refine (yields_andThen ..).2 (yields_of_forall _ (fun _ _ => trivial) fun sh r => ?_)
    cases r <;> intro e he <;> cases he
  | filling epoch pass =>
    refine (yields_andThen ..).2 (yields_of_forall _ (fun _ _ => trivial) fun sh r e he => ?_)
    split at he <;> cases he

end HeadUpdate

/-! ## Head events and passes of a task -/

theorem Startup.subscribe_readings (token : Token) (sh : Shared) (report : Report) :
    (subscribe token sh report).1.readings = sh.readings := by
  simp only [subscribe]
  split
  · rfl
  · simp [Shared.readings, Shared.make, Shared.mark, Shared.log, Shared.exit, Shared.setGate]

theorem Startup.subscribe_busy (token : Token) (sh : Shared) (report : Report) :
    (subscribe token sh report).1.busy = false := by
  simp only [subscribe]
  split <;> rfl

def Turn.result? {σ ρ : Type} : Turn σ ρ → Option ρ
  | .waits _ => none
  | .ends r => some r

def HeadOutcome.deferred? : HeadOutcome → Option Epoch
  | .deferred epoch => some epoch
  | _ => none

namespace Work

/-- The head event that the task has in hand, with the guard and the token that it is handled under. -/
def update? (run : Token) : Work → Option (Guard × Token × HeadUpdate)
  | .head guard token u => some (guard, token, u)
  | .listen token _ (.handling u) => some (.parts, token, u)
  | .startup (.listening _ (.handling u)) => some (.service, run, u)
  | _ => none

/-- The pass by which the task follows the head, with its token. -/
def follow? (run : Token) : Work → Option (Token × Follow)
  | .catchUp token (.following f) => some (token, f)
  | .startup (.following f) => some (run, f)
  | _ => none

theorem Lawful.follow {D : Discipline} {st : Standing} {w : Work} {run token : Token} {f : Follow} (h : w.Lawful D st)
    (hf : w.follow? run = some (token, f)) : f.Lawful D st := by
  unfold follow? at hf
  split at hf
  · cases hf; exact h
  · cases hf; exact h
  · cases hf

/-- With the end of its pass a task commits nothing more, reads no clock and releases the guard. -/
theorem follow_ends {w : Work} {sh sh' : Shared} {reply : Reply} {token : Token} {f : Follow} {report : Report}
    (hf : w.follow? sh.runToken = some (token, f)) (he : f.resume env token sh reply = (sh', .ends report)) :
    (w.resume env sh reply).1.readings = sh'.readings ∧ (w.resume env sh reply).1.commitLog = sh'.commitLog ∧
      (w.resume env sh reply).1.busy = false := by
  unfold follow? at hf
  split at hf
  · cases hf
    simp only [resume, CatchUp.resume, he, andThen]
    exact ⟨rfl, Shared.commitLog_of_ledger (Shared.ledger_exit sh' .service), rfl⟩
  · cases hf
    rw [show Work.resume env sh (.startup (.following f)) reply =
      andThen (andThen (f.resume env sh.runToken sh reply) .following (Startup.subscribe sh.runToken)) .startup endStartup
      from rfl, he]
    have hl := Startup.subscribe_ledger sh.runToken sh' report
    exact ⟨(andThen_view Shared.readings _ _ fun _ _ => rfl).trans (Startup.subscribe_readings sh.runToken sh' report),
      (andThen_view Shared.commitLog _ _ fun _ _ => rfl).trans (Shared.commitLog_of_ledger hl),
      (andThen_view Shared.busy _ _ fun _ _ => rfl).trans (Startup.subscribe_busy sh.runToken sh' report)⟩
  · cases hf

end Work

/-! ## Along a run -/

/-- Without a record that can be read nothing is ever committed. -/
def unreadable (found : Option Bytes) (h : ∀ r, Record.decode found ≠ .ok r) : Discipline where
  Holds st := st.stored = found
  May _ _ := False
  commit _ _ _ hm := hm.elim
  next _ _ _ hm _ := hm.elim
  resume st r hst hr := h r (by rw [← hst]; exact hr)

namespace System

variable {s s₀ : System} {acts : List Action}

/-- The epoch whose event is deferred in a turn of the task. -/
def deferral? (s : System) (id : Nat) (reply : Reply) : Option Epoch :=
  ((s.work? id).bind (·.update? s.shared.runToken)).bind fun (guard, token, u) =>
    (u.resume env guard token s.shared reply).2.result?.bind HeadOutcome.deferred?

/-- The report with which the task's pass ends in a turn of the task. -/
def passEnd? (s : System) (id : Nat) (reply : Reply) : Option Report :=
  ((s.work? id).bind (·.follow? s.shared.runToken)).bind fun (token, f) => (f.resume env token s.shared reply).2.result?

theorem result?_eq_some {σ ρ : Type} {t : Shared × Turn σ ρ} {r : ρ} : t.2.result? = some r ↔ t = (t.1, .ends r) := by
  obtain ⟨sh, s | r'⟩ := t <;> simp [Turn.result?]

theorem deferral?_record {id : Nat} {reply : Reply} {e : Epoch} (h : deferral? env s id reply = some e) :
    ∃ record, (s.shared.standing env).record = .ok record ∧ record.resumePoint none < e := by
  obtain ⟨⟨guard, token, u⟩, -, h⟩ := Option.bind_eq_some_iff.1 h
  obtain ⟨o, ho, hd⟩ := Option.bind_eq_some_iff.1 h
  have hy := u.resume_defers env guard token s.shared reply
  rw [result?_eq_some.1 ho] at hy
  have he : o = .deferred e := by
    unfold HeadOutcome.deferred? at hd
    split at hd <;> cases hd
    rfl
  obtain ⟨record, hr, hlt⟩ := hy e he
  exact ⟨record, Shared.readRecord_ok env hr, hlt⟩

theorem passEnd?_eq_some {id : Nat} {reply : Reply} {report : Report} (h : passEnd? env s id reply = some report) :
    ∃ w token f sh', s.work? id = some w ∧ w.follow? s.shared.runToken = some (token, f) ∧
      f.resume env token s.shared reply = (sh', .ends report) := by
  obtain ⟨⟨token, f⟩, hf, h⟩ := Option.bind_eq_some_iff.1 h
  obtain ⟨w, hw, hf⟩ := Option.bind_eq_some_iff.1 hf
  exact ⟨w, token, f, _, hw, hf, result?_eq_some.1 h⟩

/-- What can be read now could be read in the beginning. -/
theorem exists_record (hover : env.startOverride = none) (hs : s₀.Idle) (h : Only Kind.fromRecord acts) {r : Record}
    (hr : ((run env s₀ acts).shared.standing env).record = .ok r) :
    ∃ r₀, Record.decode (s₀.shared.store.readMetadata env.metadataKey) = .ok r₀ := by
  by_contra hno
  have hno : ∀ r₀, Record.decode (s₀.shared.store.readMetadata env.metadataKey) ≠ .ok r₀ := fun r₀ he => hno ⟨r₀, he⟩
  have hst : ((run env s₀ acts).shared.standing env).stored = _ :=
    (lawful_run (D := unreadable _ hno) env (fun _ _ _ hm => hm) (.of_none env hover) hs h rfl).1
  exact hno r (by rw [← hst]; exact hr)

/-- A pass that ends completed has committed every epoch from the first resume point up to
    its last readings of the clock. -/
theorem passEnd_covers (hover : env.startOverride = none) (hs : s₀.Idle) (h : Only Kind.fromRecord acts) {r₀ : Record}
    (h₀ : Record.decode (s₀.shared.store.readMetadata env.metadataKey) = .ok r₀) {id : Nat} {reply : Reply} {report : Report}
    (hend : passEnd? env (run env s₀ acts) id reply = some report) (hc : report.isCompleted) {e : Epoch}
    (hf : r₀.resumePoint none ≤ e)
    (hclock : ∀ d ∈ (act env (run env s₀ acts) (.turn id reply)).shared.readings.drop (run env s₀ acts).shared.readings.length,
      e ≤ d) :
    e ∈ (act env (run env s₀ acts) (.turn id reply)).shared.commitLog := by
  obtain ⟨w, token, f, sh', hw, hfol, he⟩ := passEnd?_eq_some env hend
  obtain ⟨hg, hlaw⟩ := gapless_lawful env (.of_none env hover) hs h h₀
  have hl : f.Lawful _ _ := (hlaw id w hw).follow hfol
  have hends := Follow.resume_completion env token (run env s₀ acts).shared f reply
  rw [he] at hends
  have hends : Follow.Ends _ _ _ _ _ := hends
  obtain ⟨hread, hlog, -⟩ := Work.follow_ends env hfol he
  rw [shared_turn env reply hw] at hclock ⊢
  rw [hread] at hclock
  -- The clock was read once more after the last commit, and was not past the target.
  obtain ⟨new, hnew, d, hd, hdt⟩ := hends.looked hc
  have het : e ≤ report.target := by
    refine UInt64.le_trans (hclock d ?_) hdt
    rw [hnew, List.drop_left]
    exact hd
  have hg' : Gapless (s₀.shared.store.readMetadata env.metadataKey) (r₀.resumePoint none)
      ((act env (run env s₀ acts) (.turn id reply)).shared.standing env) := by
    rw [← run_snoc]
    exact gapless_run env hover hs (fun r hr => h r (by simpa using hr)) h₀
  rw [shared_turn env reply hw] at hg'
  have hkept := (Work.resume_effects env (run env s₀ acts).shared w reply).commitLog
  have hreach : report.Reached (w.resume env (run env s₀ acts).shared reply).1.commitLog := by
    rw [hlog]
    exact hends.reached
  have hmay : Reaches (r₀.resumePoint none) _ f.pass.epoch := hl.pass.may
  refine hreach.mem hg' hc (fun x hx => hkept.subset hx) hmay ?_ hf het
  rw [hends.resume]
  exact UInt64.le_trans hl.resume hl.pass.from_resume

/-- A deferred event is committed by the pass that completes next: if the event of `e` is
    deferred and every reading of the clock from then on is `e` or later, then any pass that
    ends completed afterwards has `e` committed in the turn in which it releases the guard. -/
theorem deferred_committed (hover : env.startOverride = none) (hs : s₀.Idle) {before since : List Action} {head holder : Nat}
    {reply reply' : Reply} {e : Epoch} {report : Report}
    (h : Only Kind.fromRecord (before ++ .turn head reply :: since))
    (hdef : deferral? env (run env s₀ before) head reply = some e)
    (hend : passEnd? env (run env s₀ (before ++ .turn head reply :: since)) holder reply' = some report)
    (hc : report.isCompleted) :
    let deferred := run env s₀ (before ++ [.turn head reply])
    let released := run env s₀ (before ++ .turn head reply :: since ++ [.turn holder reply'])
    (∀ d ∈ released.shared.readings.drop deferred.shared.readings.length, e ≤ d) →
    e ∈ released.shared.commitLog ∧ released.shared.busy = false := by
  dsimp only
  intro hclock
  obtain ⟨record, hrec, hlt⟩ := deferral?_record env hdef
  have hbefore : Only Kind.fromRecord before := h.of_append_left
  obtain ⟨r₀, h₀⟩ := exists_record env hover hs hbefore hrec
  have hfirst := ((gapless_run env hover hs hbefore h₀).resume h₀ hrec).1
  -- The readings of the last turn are among those since the deferral.
  have htrace : (run env s₀ (before ++ [.turn head reply])).shared.trace.toList <+:
      (run env s₀ (before ++ [.turn head reply] ++ since)).shared.trace.toList := trace_run env _ since
  rw [List.append_assoc, List.singleton_append] at htrace
  have hlen := (Shared.readings_of_trace htrace).length_le
  rw [run_snoc env s₀ (before ++ .turn head reply :: since)] at hclock ⊢
  refine ⟨passEnd_covers env hover hs h h₀ hend hc (UInt64.le_of_lt (UInt64.lt_of_le_of_lt hfirst hlt)) fun d hd => ?_, ?_⟩
  · exact hclock d ((List.drop_subset_drop_left _ hlen) hd)
  · obtain ⟨w, token, f, sh', hw, hfol, he⟩ := passEnd?_eq_some env hend
    rw [shared_turn env reply' hw]
    exact (Work.follow_ends env hfol he).2.2

/-- A catch-up up to epoch 1 is under way when the event of epoch 2 comes. -/
def deferredBefore : List Action :=
  [.request (.catchUp (.root 0)), .turn 0 .granted, .turn 0 .granted, .request (.head .service (.root 0) ⟨8, true⟩),
    .turn 1 .granted]

/-- The event of epoch 2 is deferred, and the catch-up finds the clock at epoch 2. -/
theorem deferred_committed_catchUp :
    let s₀ := opened [] (fun _ => []) [1, 2]
    let deferred := run .plain s₀ (deferredBefore ++ [.turn 1 .granted])
    let released := run .plain s₀ (deferredBefore ++ .turn 1 .granted :: List.replicate 11 (.turn 0 .granted) ++ [.turn 0 .granted])
    deferral? .plain (run .plain s₀ deferredBefore) 1 .granted = some 2 ∧
    released.shared.readings.drop deferred.shared.readings.length = [2, 2] ∧ deferred.shared.commitLog = [] ∧
    2 ∈ released.shared.commitLog ∧ released.shared.busy = false := by
  dsimp only
  have hdef : deferral? .plain (run .plain (opened [] (fun _ => []) [1, 2]) deferredBefore) 1 .granted = some 2 := by
    decide +kernel
  have hend : ∃ report, passEnd? .plain (run .plain (opened [] (fun _ => []) [1, 2])
      (deferredBefore ++ .turn 1 .granted :: List.replicate 11 (.turn 0 .granted))) 0 .granted = some report ∧
      report.isCompleted := ⟨⟨0, 2, some 2, 3, .completed⟩, by decide +kernel, rfl⟩
  obtain ⟨report, hend, hc⟩ := hend
  have hread : (run .plain (opened [] (fun _ => []) [1, 2]) (deferredBefore ++ .turn 1 .granted ::
      List.replicate 11 (.turn 0 .granted) ++ [.turn 0 .granted])).shared.readings.drop
      (run .plain (opened [] (fun _ => []) [1, 2]) (deferredBefore ++ [.turn 1 .granted])).shared.readings.length = [2, 2] := by
    decide +kernel
  refine ⟨hdef, hread, by decide +kernel, ?_⟩
  refine deferred_committed .plain rfl (opened_idle [] (fun _ => []) [1, 2]) (by decide) hdef hend hc fun d hd => ?_
  rw [hread] at hd
  simp only [List.mem_cons, List.not_mem_nil, or_false, or_self] at hd
  exact hd ▸ UInt64.le_refl 2

end System

end CommitteeSync
