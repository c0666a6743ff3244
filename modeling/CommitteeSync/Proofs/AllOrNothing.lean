/-
  CommitteeSync.Proofs.AllOrNothing — the write of an epoch by itself.

  A write that is asked for looks at its token, makes the calls of its script one after
  another and ends with the number of committees or with the error of the first step that
  failed.

  Proved for every epoch and token, from any state, whatever else goes on and whatever fails
  (`write_all_or_nothing`):
  (1) It ends well if and only if no visit brought an error, each call of the script was
      made and all that the chain served is of the epoch. Otherwise it ends with the error
      of its last visit, or with a refusal of the first assignment of another epoch.
  (2) The turn in which it ends well commits the epoch and counts it. In any other turn it
      leaves alone what is committed and the number of commits. A failure is counted in the
      turn in which it ends with one, and an interruption is none.
  (3) It ends if it always gets another turn.
-/

import CommitteeSync.Proofs.Endings
import CommitteeSync.Proofs.EpochCommit
import CommitteeSync.Proofs.Visits

namespace CommitteeSync

open Turn

variable (env : Setup)

/-! ## What a turn leaves behind -/

/-- From `sh` to `sh'` this was committed and counted, if anything, and a failure if it `failed`. -/
structure Shared.Settles (sh sh' : Shared) (commit? : Option (Epoch × Transaction)) (failed : Bool) : Prop where
  ledger : sh'.ledger = sh.ledger.after commit?
  commits : sh'.store.commits = sh.store.commits + commit?.isSome.toNat
  processed : sh'.telemetry.epochsProcessed = sh.telemetry.epochsProcessed + UInt64.ofNat commit?.isSome.toNat
  failures : sh'.telemetry.epochFailures = sh.telemetry.epochFailures + UInt64.ofNat failed.toNat

namespace Shared.Settles

/-- Where neither the store nor the counters nor the log were touched. -/
theorem of_eq {sh sh' : Shared} (hs : sh'.store = sh.store) (ht : sh'.telemetry = sh.telemetry) (he : sh'.events = sh.events) :
    sh.Settles sh' none false := by
  refine ⟨?_, ?_, ?_, ?_⟩
  · rw [Ledger.after_none]
    unfold Shared.ledger Shared.commitLog
    rw [hs, he]
  · rw [hs]
    rfl
  · rw [ht]
    exact (UInt64.add_zero _).symm
  · rw [ht]
    exact (UInt64.add_zero _).symm

end Shared.Settles

namespace EpochWrite

/-- What a turn of a write settles, by what it comes to. -/
def Settled (epoch : Epoch) (w : EpochWrite) (sh sh' : Shared) : Result → Prop
  | .ok n => ∃ tx, w = .committing tx n ∧ sh.Settles sh' (some (epoch, tx)) false
  | .error error => sh.Settles sh' none (error.stage ≠ .cancelled)

variable (epoch : Epoch) (w : EpochWrite) (sh : Shared)

/-- A failure leaves everything alone but its counter. -/
theorem fail_settles (error : EpochError) :
    Yields (fail sh error) (fun sh' _ => sh.Settles sh' none false) (w.Settled epoch sh) := by
  show sh.Settles (if error.stage = .cancelled then sh else sh.count .epochFailure) none (error.stage ≠ .cancelled)
  by_cases h : error.stage = .cancelled
  · simp only [h, if_true, ne_eq, not_true_eq_false, decide_false]
    exact .of_eq rfl rfl rfl
  · simp only [h, if_false, ne_eq, not_false_eq_true, decide_true]
    exact ⟨rfl, rfl, (UInt64.add_zero _).symm, rfl⟩

theorem abort_settles (tx : Transaction) (error : EpochError) :
    Yields (abort sh tx error) (fun sh' _ => sh.Settles sh' none false) (w.Settled epoch sh) := by
  have h : (sh.cancelTx tx).Settles (fail (sh.cancelTx tx) error).1 none (error.stage ≠ .cancelled) :=
    fail_settles epoch w (sh.cancelTx tx) error
  show sh.Settles (fail (sh.cancelTx tx) error).1 none (error.stage ≠ .cancelled)
  exact ⟨h.ledger, h.commits, h.processed, h.failures⟩

theorem record_settles (r : Staging.Result) :
    Yields (record epoch sh r) (fun sh' _ => sh.Settles sh' none false) (w.Settled epoch sh) := by
  obtain ⟨tx, cause | written⟩ := r
  · exact abort_settles epoch w sh tx _
  · exact .of_eq rfl rfl rfl

theorem advance_quiet (tx : Transaction) (written : Nat) (as : List Assignment) :
    Yields (Staging.advance env epoch tx written sh as) (fun sh' _ => sh.Settles sh' none false) (fun sh' _ => sh' = sh) := by
  cases as with
  | nil => exact rfl
  | cons a rest =>
    simp only [Staging.advance]
    split
    · exact .of_eq rfl rfl rfl
    · exact rfl

theorem staging_quiet (s : Staging) (reply : Reply) :
    Yields (s.resume env epoch sh reply) (fun sh' _ => sh.Settles sh' none false) (fun sh' _ => sh' = sh) := by
  cases s <;> cases reply
  · exact advance_quiet env epoch sh _ _ _
  · exact rfl
  · exact advance_quiet env epoch sh _ _ _
  · exact rfl

/-- Only the grant of its commit makes a write commit. -/
theorem resume_settles (token : Token) (reply : Reply) :
    Yields (w.resume env token epoch sh reply) (fun sh' _ => sh.Settles sh' none false) (w.Settled epoch sh) := by
  cases w with
  | beginning =>
    simp only [resume]
    split
    · exact fail_settles epoch _ sh _
    · cases reply with
      | granted => exact ⟨rfl, rfl, (UInt64.add_zero _).symm, (UInt64.add_zero _).symm⟩
      | failed cause => exact fail_settles epoch _ sh _
  | staging s =>
    simp only [resume]
    split
    · exact abort_settles epoch _ sh _ _
    · refine (yields_andThen ..).2 ((staging_quiet env epoch sh s reply).mono_ends ?_)
      rintro _ r rfl
      exact record_settles epoch _ _ r
  | recording tx written =>
    simp only [resume]
    split
    · exact abort_settles epoch _ sh tx _
    · cases reply with
      | granted => exact .of_eq rfl rfl rfl
      | failed cause => exact abort_settles epoch _ sh tx _
  | committing tx written =>
    cases reply with
    | granted =>
      have hledger := (finish_writes epoch sh tx written).ledger
      exact ⟨tx, rfl, hledger, rfl, rfl, (UInt64.add_zero _).symm⟩
    | failed cause => exact fail_settles epoch _ sh _

end EpochWrite

/-! ## Along a run -/

namespace System

variable {s : System} {token : Token} {epoch : Epoch} {id : Nat} {acts : List Action}

/-- How far the write of `epoch` that task `id` was asked for has got, with `visits` behind
    it, the first of which is the look at the token. -/
inductive Writing (token : Token) (epoch : Epoch) (id : Nat) (visits : List Visit) (s : System) : Prop
  | asked : s.tasks[id]? = some (.active (.asked (.writeEpoch token epoch))) → visits = [] →
      Writing token epoch id visits s
  | underway (as : List Assignment) (w : EpochWrite) : s.tasks[id]? = some (.active (.writeEpoch token epoch w)) →
      w.Underway env token epoch as [none] visits → Writing token epoch id visits s
  | ended (as : List Assignment) (r : EpochWrite.Result) : s.tasks[id]? = some (.ended (.epoch r)) →
      Course env token epoch as [none] visits r → Writing token epoch id visits s

theorem Writing.here {visits : List Visit} (h : Writing env token epoch id visits s) : id < s.tasks.length := by
  cases h with
  | asked ht => exact (List.getElem?_eq_some_iff.1 ht).1
  | underway as w ht => exact (List.getElem?_eq_some_iff.1 ht).1
  | ended as r ht => exact (List.getElem?_eq_some_iff.1 ht).1

/-- The first turn looks at the token and makes the first call. -/
theorem writing_first (hw : s.work? id = some (.asked (.writeEpoch token epoch))) (reply : Reply) :
    Writing env token epoch id [⟨none, s.shared, reply⟩] (act env s (.turn id reply)) := by
  have ht := task_turn env reply hw
  have herror : (⟨none, s.shared, reply⟩ : Visit).error? token epoch =
      if s.shared.isCancelled token then some (.cancelled epoch) else none := by
    simp [Visit.error?]
  cases hc : s.shared.isCancelled token with
  | true =>
    rw [hc, if_pos rfl] at herror
    refine .ended [] (.error (.cancelled epoch)) ?_ ⟨List.prefix_append [none] _, ?_, ?_, ?_⟩
    · rw [ht]
      simp [Work.resume, Work.start, EpochWrite.start, EpochWrite.fail, hc, Turn.andThen, Work.ending, taskOf]
    · exact List.forall_mem_singleton.2 fun hcall => by cases hcall
    · exact List.forall_mem_singleton.2 fun _ _ hcall => by cases hcall
    · exact .stopped [] _ _ rfl (fun _ hv => absurd hv List.not_mem_nil) herror
  | false =>
    rw [hc, if_neg Bool.false_ne_true] at herror
    refine .underway [] .beginning ?_ (EpochWrite.underway_beginning env rfl ?_ ?_)
    · rw [ht]
      simp [Work.resume, Work.start, EpochWrite.start, EpochWrite.begin, hc, Turn.andThen, taskOf]
    · exact List.forall_mem_singleton.2 rfl
    · exact List.forall_mem_singleton.2 herror

/-- Every later turn is a visit of the write. -/
theorem writing_next {w : EpochWrite} {visits : List Visit} {as : List Assignment}
    (hw : s.work? id = some (.writeEpoch token epoch w)) (h : w.Underway env token epoch as [none] visits) (reply : Reply) :
    Writing env token epoch id (visits ++ [w.visit env token epoch s.shared reply]) (act env s (.turn id reply)) := by
  have ht := task_turn env reply hw
  have hwork : (Work.writeEpoch token epoch w).resume env s.shared reply =
    Turn.andThen (w.resume env token epoch s.shared reply) (.writeEpoch token epoch) (Work.ending .epoch) := rfl
  obtain ⟨as', -, hturn⟩ := EpochWrite.resume_served env h s.shared reply
  rw [hwork] at ht
  rcases hr : w.resume env token epoch s.shared reply with ⟨sh', w' | r⟩
  · rw [hr] at ht hturn
    exact .underway as' w' ht hturn
  · rw [hr] at ht hturn
    exact .ended as' r ht hturn

theorem Writing.act {visits : List Visit} (h : Writing env token epoch id visits s) (a : Action) :
    Writing env token epoch id (visits ++ visitsOf env id s a) (act env s a) := by
  by_cases hturn : ∃ reply w, a = .turn id reply ∧ s.work? id = some w
  · obtain ⟨reply, w, rfl, hw⟩ := hturn
    rw [visitsOf_turn env hw]
    rw [work?_eq_some] at hw
    cases h with
    | asked ht hv =>
      cases ht.symm.trans hw
      subst hv
      exact writing_first env (work?_eq_some.2 ht) reply
    | underway as w ht hunder =>
      cases ht.symm.trans hw
      exact writing_next env (work?_eq_some.2 ht) hunder reply
    | ended as r ht => cases ht.symm.trans hw
  · have hother : ∀ reply w, a = .turn id reply → s.work? id ≠ some w := fun reply w he hw => hturn ⟨reply, w, he, hw⟩
    have hkept := tasks_idle env h.here hother
    rw [visitsOf_other env hother, List.append_nil]
    cases h with
    | asked ht hv => exact .asked (hkept.trans ht) hv
    | underway as w ht hunder => exact .underway as w (hkept.trans ht) hunder
    | ended as r ht hcourse => exact .ended as r (hkept.trans ht) hcourse

theorem writing_run (s : System) (token : Token) (epoch : Epoch) (acts : List Action) :
    let s₁ := s.request (.writeEpoch token epoch)
    Writing env token epoch s.tasks.length (visitsBy env s.tasks.length s₁ acts) (run env s₁ acts) := by
  dsimp only
  induction acts using List.reverseRecOn with
  | nil => exact .asked (work?_eq_some.1 (work?_asked s _)) rfl
  | append_singleton acts a ih =>
    rw [run_snoc, visitsBy, along_snoc]
    exact ih.act env a

/-- What holds of the write of `epoch` by task `id`, which was asked for last in `s`. -/
structure AllOrNothing (token : Token) (epoch : Epoch) (s : System) (id : Nat) : Prop where
  /-- It ends well just if it was let through, and otherwise with the error it met with first. -/
  result : ∀ acts o, (run env s acts).outcome? id = some o → ∃ as r, o = .epoch r ∧
    Course env token epoch as [none] (visitsBy env id s acts) r ∧
    (∀ n, r = .ok n ↔ (visitsBy env id s acts).map Visit.call? = none :: (script env epoch as).map some ∧
      Clean token epoch (visitsBy env id s acts) ∧ (∀ a ∈ as, env.layout.epochOf a.slot = epoch) ∧ n = as.length) ∧
    (∀ error, r = .error error → error.epoch = epoch)
  /-- Nothing is committed before the end, and no failure is counted. -/
  waits : ∀ part reply, let x := run env s part
    let x' := run env s (part ++ [.turn id reply])
    x'.outcome? id = none → x.shared.Settles x'.shared none false
  /-- An error leaves nothing behind but its count, and an interruption not even that. -/
  fails : ∀ part reply error, let x := run env s part
    let x' := run env s (part ++ [.turn id reply])
    x.outcome? id = none → x'.outcome? id = some (.epoch (.error error)) →
      x.shared.Settles x'.shared none (error.stage ≠ .cancelled)
  /-- Otherwise the whole answer is committed at once, and the record with it. -/
  commits : ∀ part reply n, let x := run env s part
    let x' := run env s (part ++ [.turn id reply])
    x.outcome? id = none → x'.outcome? id = some (.epoch (.ok n)) → ∃ as tx, n = as.length ∧
      Answered env epoch as (visitsBy env id s (part ++ [.turn id reply])) ∧
      x.shared.Settles x'.shared (some (epoch, tx)) false ∧ CommitsEpoch env x.shared.store x'.shared.store epoch as
  returns : ∀ schedule, Often id schedule → ∃ n r, (run env s (first schedule n)).outcome? id = some (.epoch r)

theorem Writing.outcome {visits : List Visit} {o : Outcome} (h : Writing env token epoch id visits s)
    (ho : s.outcome? id = some o) : ∃ as r, o = .epoch r ∧ Course env token epoch as [none] visits r := by
  cases h with
  | asked ht => simp [outcome?, ht] at ho
  | underway as w ht => simp [outcome?, ht] at ho
  | ended as r ht hcourse =>
    simp only [outcome?, ht, Option.some.injEq] at ho
    exact ⟨as, r, ho.symm, hcourse⟩

/-- What a turn of the write settles. -/
theorem Writing.settles {visits : List Visit} (h : Writing env token epoch id visits s) (ho : s.outcome? id = none)
    (reply : Reply) :
    let s' := System.act env s (.turn id reply)
    (s'.outcome? id = none ∧ s.shared.Settles s'.shared none false) ∨
    (∃ error, s'.outcome? id = some (.epoch (.error error)) ∧ s.shared.Settles s'.shared none (error.stage ≠ .cancelled)) ∨
    ∃ as tx n, s'.outcome? id = some (.epoch (.ok n)) ∧ n = as.length ∧ Answered env epoch as (visits ++ visitsOf env id s (.turn id reply)) ∧
      s.shared.Settles s'.shared (some (epoch, tx)) false ∧ CommitsEpoch env s.shared.store s'.shared.store epoch as := by
  dsimp only
  cases h with
  | ended as r ht => simp [outcome?, ht] at ho
  | asked ht _ =>
    have hw := work?_eq_some.2 ht
    rw [shared_turn env reply hw, outcome?_turn env reply hw]
    have hstart : Yields (EpochWrite.start token epoch s.shared) (fun sh' _ => s.shared.Settles sh' none false)
        (EpochWrite.Settled epoch .beginning s.shared) := by
      unfold EpochWrite.start
      split
      · exact EpochWrite.fail_settles epoch _ _ _
      · exact .of_eq rfl rfl rfl
    have hwork : (Work.asked (.writeEpoch token epoch)).resume env s.shared reply =
      Turn.andThen (EpochWrite.start token epoch s.shared) (.writeEpoch token epoch) (Work.ending .epoch) := rfl
    rw [hwork]
    rcases hr : EpochWrite.start token epoch s.shared with ⟨sh', w' | r⟩
    · rw [hr] at hstart
      exact Or.inl ⟨rfl, hstart⟩
    · rw [hr] at hstart
      cases r with
      | error error => exact Or.inr (Or.inl ⟨error, rfl, hstart⟩)
      | ok n =>
        obtain ⟨tx, hcommit, -⟩ := hstart
        cases hcommit
  | underway as w ht hunder =>
    have hw := work?_eq_some.2 ht
    have hsettles := w.resume_settles env epoch s.shared token reply
    have hwork : (Work.writeEpoch token epoch w).resume env s.shared reply =
      Turn.andThen (w.resume env token epoch s.shared reply) (.writeEpoch token epoch) (Work.ending .epoch) := rfl
    rw [shared_turn env reply hw, outcome?_turn env reply hw, hwork]
    rcases hr : w.resume env token epoch s.shared reply with ⟨sh', w' | r⟩
    · rw [hr] at hsettles
      exact Or.inl ⟨rfl, hsettles⟩
    · rw [hr] at hsettles
      cases r with
      | error error => exact Or.inr (Or.inl ⟨error, rfl, hsettles⟩)
      | ok n =>
        obtain ⟨tx, rfl, hsettles⟩ := hsettles
        obtain ⟨htx, hof⟩ := hunder.answer.resolve_left False.elim
        refine Or.inr (Or.inr ⟨as, tx, n, rfl, hunder.amounts, ?_, hsettles, ?_⟩)
        · rw [visitsOf_turn env hw]
          exact List.forall_mem_append.2 ⟨hunder.answered, List.forall_mem_singleton.2 fun hc => by cases hc⟩
        · exact commitsEpoch_of_ledger env htx hof hsettles.ledger

/-- The write of an epoch by itself is all or nothing, from any state, whatever else goes on
    and whatever fails. -/
theorem write_all_or_nothing (s : System) (token : Token) (epoch : Epoch) :
    AllOrNothing env token epoch (s.request (.writeEpoch token epoch)) s.tasks.length := by
  have hsettles := fun part reply ho => (writing_run env s token epoch part).settles env ho reply
  constructor
  · intro acts o ho
    obtain ⟨as, r, rfl, hcourse⟩ := (writing_run env s token epoch acts).outcome env ho
    refine ⟨as, r, rfl, hcourse, fun n => hcourse.ok_iff env n, ?_⟩
    rintro error rfl
    exact hcourse.epoch_eq env
  · intro part reply
    dsimp only
    rw [run_snoc]
    intro ho'
    cases ho : (run env (s.request (.writeEpoch token epoch)) part).outcome? s.tasks.length with
    | none =>
      rcases hsettles part reply ho with ⟨-, h⟩ | ⟨error, he, -⟩ | ⟨as, tx, n, he, -⟩
      · exact h
      · cases ho'.symm.trans he
      · cases ho'.symm.trans he
    | some o =>
      rw [turn_of_none env reply (work?_of_outcome? ho), ho] at ho'
      cases ho'
  · intro part reply error
    dsimp only
    rw [run_snoc]
    intro ho ho'
    rcases hsettles part reply ho with ⟨he, -⟩ | ⟨error', he, h⟩ | ⟨as, tx, n, he, -⟩
    · cases ho'.symm.trans he
    · cases ho'.symm.trans he
      exact h
    · cases ho'.symm.trans he
  · intro part reply n
    dsimp only
    rw [run_snoc]
    intro ho ho'
    rcases hsettles part reply ho with ⟨he, -⟩ | ⟨error, he, -⟩ | ⟨as, tx, n', he, hn, hanswered, h, hc⟩
    · cases ho'.symm.trans he
    · cases ho'.symm.trans he
    · cases ho'.symm.trans he
      refine ⟨as, tx, hn, ?_, h, hc⟩
      rw [visitsBy, along_snoc]
      exact hanswered
  · intro schedule ho
    obtain ⟨n, hover⟩ := ends_of_falls env passBelow_wf Work.left Work.InRange
      (fun sh w reply h => w.resume_falls env sh reply h) (work?_asked s (.writeEpoch token epoch)) trivial ho
    obtain ⟨o, hout⟩ := outcome?_of_over (Nat.lt_of_lt_of_le (by simp [request]) (length_run env _ _)) hover
    obtain ⟨as, r, rfl, -⟩ := (writing_run env s token epoch _).outcome env hout
    exact ⟨n, r, hout⟩

/-- Two committees, with every call granted. -/
theorem write_all_or_nothing_granted :
    let s := (opened [] (fun _ => [⟨4, 0, [7]⟩, ⟨5, 0, [8]⟩]) []).request (.writeEpoch (.root 0) 1)
    let x := run .plain s (List.replicate 6 (.turn 0 .granted))
    let x' := run .plain s (List.replicate 6 (.turn 0 .granted) ++ [.turn 0 .granted])
    x'.outcome? 0 = some (.epoch (.ok 2)) ∧
    ∃ as tx, as.length = 2 ∧ x.shared.Settles x'.shared (some (1, tx)) false ∧
      CommitsEpoch .plain x.shared.store x'.shared.store 1 as := by
  dsimp only
  have hall := write_all_or_nothing .plain (opened [] (fun _ => [⟨4, 0, [7]⟩, ⟨5, 0, [8]⟩]) []) (.root 0) 1
  obtain ⟨as, tx, hn, -, hsettles, hcommits⟩ := hall.commits (List.replicate 6 (.turn 0 .granted)) .granted 2
    rfl rfl
  exact ⟨rfl, as, tx, hn.symm, hsettles, hcommits⟩

end System

end CommitteeSync
