/-
  CommitteeSync.Proofs.HeadCourse — the handling of a transition, turn by turn.

  In its first turn a transition asks for the record, and in the second one the answer says
  what comes next: nothing, the write of its epoch, or a pass over all that is missing, which
  goes on from this turn as if it had begun here. From then on its visits are those of the
  write or of the pass (`HeadUpdate.Goes`), and it comes to what they come to
  (`HeadUpdate.Came`).

  Proved: where nobody else commits, a task that was asked for a transition is always at one
  of these points, and what the answer told of is the record that there was in the beginning
  (`System.heading_run`).
-/

import CommitteeSync.Proofs.AbortIsolation

namespace CommitteeSync

open Turn

variable (env : Setup)

/-! ## The answer -/

namespace Visit

/-- In this visit the question for the record was answered by `r`. -/
structure Reads (r : Except Cause Record) (v : Visit) : Prop where
  call : v.call? = some (.metadata env.metadataKey)
  answer : v.found.readRecord env v.reply = r

/-- The visit as the first one of a pass that fills the gap from `resume` to `epoch`. -/
def entering (guard : Guard) (resume epoch : Epoch) (v : Visit) : Visit :=
  ⟨none, (v.found.setGate guard ⟨true⟩).log (.headFillsGap resume epoch), v.reply⟩

theorem entering_cancelled (guard : Guard) (resume epoch : Epoch) (v : Visit) (token : Token) :
    (v.entering guard resume epoch).found.isCancelled token = v.found.isCancelled token := by
  cases guard <;> rfl

end Visit

/-- What is read depends only on what is committed. -/
theorem readRecord_of_ledger {sh sh' : Shared} (h : sh'.ledger = sh.ledger) (reply : Reply) :
    sh'.readRecord env reply = sh.readRecord env reply := by
  have hm : sh'.store.metadata = sh.store.metadata := congrArg Ledger.metadata h
  cases reply with
  | failed cause => rfl
  | granted => rw [Shared.readRecord, Shared.readRecord, Store.readMetadata, hm, Store.readMetadata]

/-! ## How far a transition has got -/

namespace HeadUpdate

/-- A transition to `epoch` that goes on, where `rest` are the visits since the answer in `read`. -/
inductive Goes (guard : Guard) (token : Token) (epoch : Epoch) (read : Visit) (rest : List Visit)
    (commits : List (Epoch × Transaction)) : HeadUpdate → Prop
  | direct (record : Record) (as : List Assignment) (w : EpochWrite) : read.Reads env (.ok record) →
      record.resumePoint none = epoch → w.Underway env token epoch as [] rest → commits = [] →
      Goes guard token epoch read rest commits (.direct epoch w)
  | filling (record : Record) (p : Pass) : read.Reads env (.ok record) → record.resumePoint none < epoch →
      (read.found.gate guard).held = false →
      (∃ first legs as now, p.Advances env token (record.resumePoint none) epoch
        (read.entering guard (record.resumePoint none) epoch :: rest) commits first legs as now) →
      Goes guard token epoch read rest commits (.filling epoch p)

/-- What a transition to `epoch` came to, where `rest` are the visits since the answer in `read`. -/
inductive Came (guard : Guard) (token : Token) (epoch : Epoch) (read : Visit) (rest : List Visit)
    (commits : List (Epoch × Transaction)) : HeadOutcome → Prop
  | unread (cause : Cause) : read.Reads env (.error cause) → rest = [] → commits = [] →
      Came guard token epoch read rest commits (.failed ⟨epoch, .readMetadata, cause⟩)
  | covered (record : Record) : read.Reads env (.ok record) → epoch < record.resumePoint none → rest = [] → commits = [] →
      Came guard token epoch read rest commits (.alreadyProcessed epoch)
  | processed (record : Record) (leg : Leg) : read.Reads env (.ok record) → record.resumePoint none = epoch →
      leg.epoch = epoch → rest = leg.visits → leg.Done env token → commits = [leg.commit env] →
      Came guard token epoch read rest commits (.processed epoch leg.as.length)
  /-- The token was found cancelled when the record was there. -/
  | interrupted (record : Record) : read.Reads env (.ok record) → record.resumePoint none = epoch →
      read.found.isCancelled token → rest = [] → commits = [] →
      Came guard token epoch read rest commits (.failed (.cancelled epoch))
  | failed (record : Record) (as : List Assignment) (error : EpochError) : read.Reads env (.ok record) →
      record.resumePoint none = epoch → Course env token epoch as [] rest (.error error) → commits = [] →
      Came guard token epoch read rest commits (.failed error)
  | deferred (record : Record) : read.Reads env (.ok record) → record.resumePoint none < epoch →
      (read.found.gate guard).held → rest = [] → commits = [] →
      Came guard token epoch read rest commits (.deferred epoch)
  | filled (record : Record) (report : Report) (o : HeadOutcome) : read.Reads env (.ok record) →
      record.resumePoint none < epoch → (read.found.gate guard).held = false →
      Pass.Ends env token (record.resumePoint none) epoch
        (read.entering guard (record.resumePoint none) epoch :: rest) commits report →
      (∀ sh, (finishFilling guard epoch sh report).2 = .ends o) →
      Came guard token epoch read rest commits o

variable {guard : Guard} {token : Token} {epoch : Epoch} {read : Visit} {rest : List Visit}
  {commits : List (Epoch × Transaction)}

/-! ## One turn -/

/-- A transition tells of a pass what the pass has reported. -/
theorem finishFilling_came {record : Record} {report : Report} (sh : Shared) (hread : read.Reads env (.ok record))
    (hlt : record.resumePoint none < epoch) (hfree : (read.found.gate guard).held = false)
    (h : Pass.Ends env token (record.resumePoint none) epoch
      (read.entering guard (record.resumePoint none) epoch :: rest) commits report) :
    Yields (finishFilling guard epoch sh report) (fun _ u => Goes env guard token epoch read rest commits u)
      (fun _ o => Came env guard token epoch read rest commits o) :=
  .filled record report _ hread hlt hfree h fun _ => rfl

theorem finishDirect_came {record : Record} {as : List Assignment} {r : EpochWrite.Result} (sh : Shared)
    (hread : read.Reads env (.ok record)) (hat : record.resumePoint none = epoch)
    (h : EpochWrite.ComesTo env token epoch as rest commits r) :
    Yields (finishDirect epoch sh r) (fun _ u => Goes env guard token epoch read rest commits u)
      (fun _ o => Came env guard token epoch read rest commits o) := by
  cases h with
  | leg hleg hcommits => exact .processed record ⟨epoch, as, rest⟩ hread hat rfl rfl hleg hcommits
  | failed error hcourse hcommits => exact .failed record as error hread hat hcourse hcommits

/-- What the answer is followed by. -/
theorem dispatch_goes (guard : Guard) (token : Token) (epoch : Epoch) (sh : Shared) (reply : Reply) :
    let read : Visit := ⟨some (.metadata env.metadataKey), sh, reply⟩
    Yields (dispatch guard token epoch sh (sh.readRecord env reply))
      (fun _ u => Goes env guard token epoch read [] [] u)
      (fun _ o => Came env guard token epoch read [] [] o) := by
  dsimp only
  have hread : ∀ r, sh.readRecord env reply = r →
      Visit.Reads env r ⟨some (.metadata env.metadataKey), sh, reply⟩ := fun r hr => ⟨rfl, hr⟩
  cases hr : sh.readRecord env reply with
  | error cause => exact .unread cause (hread _ hr) rfl rfl
  | ok record =>
    simp only [dispatch]
    split
    · rename_i hlt
      exact .covered record (hread _ hr) hlt rfl rfl
    · rename_i hnlt
      split
      · rename_i hlt
        unfold fill
        cases hheld : (sh.gate guard).held with
        | true =>
          rw [Shared.enter_denied hheld]
          exact .deferred record (hread _ hr) hlt hheld rfl rfl
        | false =>
          rw [Shared.enter_admitted hheld]
          refine (yields_andThen ..).2 ((Pass.start_advances env token _ epoch _ reply).mono ?_ ?_)
          · exact fun _ p hadv => .filling record p (hread _ hr) hlt hheld hadv
          · exact fun sh' report hends => finishFilling_came env sh' (hread _ hr) hlt hheld hends
      · rename_i hngt
        have hat : record.resumePoint none = epoch := UInt64.le_antisymm (UInt64.not_lt.1 hnlt) (UInt64.not_lt.1 hngt)
        refine (yields_andThen ..).2 ?_
        unfold EpochWrite.start
        cases hc : sh.isCancelled token with
        | true => exact .interrupted record (hread _ hr) hat hc rfl rfl
        | false =>
          refine .direct record [] .beginning (hread _ hr) hat ?_ rfl
          exact EpochWrite.underway_beginning env rfl (fun _ hm => absurd hm List.not_mem_nil)
            fun _ hm => absurd hm List.not_mem_nil

/-- Every later turn is one of the write or of the pass. -/
theorem resume_goes {u : HeadUpdate} (h : Goes env guard token epoch read rest commits u) (sh : Shared) (reply : Reply) :
    let rest' := rest ++ [⟨(u.waitsFor env token).call?, sh, reply⟩]
    let commits' := commits ++ (commitOf u.write? reply).toList
    Yields (u.resume env guard token sh reply) (fun _ u' => Goes env guard token epoch read rest' commits' u')
      (fun _ o => Came env guard token epoch read rest' commits' o) := by
  dsimp only
  cases h with
  | direct record as w hread hat hunder hcommits =>
    subst hcommits
    obtain ⟨as', hturn⟩ := EpochWrite.resume_comesTo env hunder sh reply
    refine (yields_andThen ..).2 (hturn.mono ?_ ?_)
    · rintro _ w' ⟨hunder', hnone⟩
      exact .direct record as' w' hread hat hunder' hnone
    · exact fun sh' r hcomes => finishDirect_came env sh' hread hat hcomes
  | filling record p hread hlt hfree hadv =>
    obtain ⟨first, legs, as, now, hadv⟩ := hadv
    refine (yields_andThen ..).2 ((Pass.resume_advances env hadv sh reply).mono ?_ ?_)
    · exact fun _ p' hadv' => .filling record p' hread hlt hfree hadv'
    · exact fun sh' report hends => finishFilling_came env sh' hread hlt hfree hends

end HeadUpdate

/-! ## Along a run -/

namespace System

variable {s : System} {guard : Guard} {token : Token} {epoch : Epoch} {id : Nat} {acts : List Action}
  {visits : List Visit} {commits : List (Epoch × Transaction)}

/-- How far the handling of the transition that task `id` was asked for has got. -/
inductive Heading (guard : Guard) (token : Token) (event : HeadEvent) (id : Nat) (visits : List Visit)
    (commits : List (Epoch × Transaction)) (s : System) : Prop
  | asked : s.tasks[id]? = some (.active (.asked (.head guard token event))) → visits = [] → commits = [] →
      Heading guard token event id visits commits s
  | reading (first : Visit) : s.tasks[id]? = some (.active (.head guard token (.reading (env.layout.epochOf event.slot)))) →
      first.call? = none → visits = [first] → commits = [] → Heading guard token event id visits commits s
  | underway (first read : Visit) (rest : List Visit) (u : HeadUpdate) :
      s.tasks[id]? = some (.active (.head guard token u)) → first.call? = none → visits = first :: read :: rest →
      u.Goes env guard token (env.layout.epochOf event.slot) read rest commits →
      Heading guard token event id visits commits s
  | ended (first read : Visit) (rest : List Visit) (o : HeadOutcome) : s.tasks[id]? = some (.ended (.head o)) →
      first.call? = none → visits = first :: read :: rest →
      HeadUpdate.Came env guard token (env.layout.epochOf event.slot) read rest commits o →
      Heading guard token event id visits commits s

variable {event : HeadEvent}

theorem Heading.here (h : Heading env guard token event id visits commits s) : id < s.tasks.length := by
  cases h with
  | asked ht => exact (List.getElem?_eq_some_iff.1 ht).1
  | reading first ht => exact (List.getElem?_eq_some_iff.1 ht).1
  | underway first read rest u ht => exact (List.getElem?_eq_some_iff.1 ht).1
  | ended first read rest o ht => exact (List.getElem?_eq_some_iff.1 ht).1

/-- What a turn came to in which the record is known. -/
theorem heading_turn {t : Shared × Turn HeadUpdate HeadOutcome} {first read : Visit} {rest : List Visit}
    (ht : s.tasks[id]? = some (taskOf (andThen t (.head guard token) (Work.ending .head)).2))
    (hfirst : first.call? = none) (hvisits : visits = first :: read :: rest)
    (h : Yields t (fun _ u => u.Goes env guard token (env.layout.epochOf event.slot) read rest commits)
      (fun _ o => HeadUpdate.Came env guard token (env.layout.epochOf event.slot) read rest commits o)) :
    Heading env guard token event id visits commits s := by
  obtain ⟨sh', u | o⟩ := t
  · exact .underway first read rest u ht hfirst hvisits h
  · exact .ended first read rest o ht hfirst hvisits h

theorem Heading.act (h : Heading env guard token event id visits commits s) (htransition : event.transition) (a : Action) :
    Heading env guard token event id (visits ++ visitsOf env id s a) (commits ++ commitsOf id s a)
      (System.act env s a) := by
  by_cases hturn : ∃ reply w, a = .turn id reply ∧ s.work? id = some w
  · obtain ⟨reply, w, rfl, hw⟩ := hturn
    have ht' := task_turn env reply hw
    rw [visitsOf_turn env hw, commitsOf_turn hw]
    rw [work?_eq_some] at hw
    cases h with
    | asked ht hv hc =>
      cases ht.symm.trans hw
      subst hv hc
      refine .reading ⟨none, s.shared, reply⟩ ?_ rfl rfl rfl
      rw [ht']
      simp [Work.resume, Work.start, HeadUpdate.start, htransition, Turn.andThen, taskOf]
    | reading first ht hfirst hv hc =>
      cases ht.symm.trans hw
      subst hv hc
      exact heading_turn env ht' hfirst rfl
        (HeadUpdate.dispatch_goes env guard token (env.layout.epochOf event.slot) s.shared reply)
    | underway first read rest u ht hfirst hv hgoes =>
      cases ht.symm.trans hw
      subst hv
      exact heading_turn env ht' hfirst rfl (HeadUpdate.resume_goes env hgoes s.shared reply)
    | ended first read rest o ht => cases ht.symm.trans hw
  · have hother : ∀ reply w, a = .turn id reply → s.work? id ≠ some w := fun reply w he hw => hturn ⟨reply, w, he, hw⟩
    have hkept := tasks_idle env h.here hother
    rw [visitsOf_other env hother, commitsOf_idle hother, List.append_nil, List.append_nil]
    cases h with
    | asked ht hv hc => exact .asked (hkept.trans ht) hv hc
    | reading first ht hfirst hv hc => exact .reading first (hkept.trans ht) hfirst hv hc
    | underway first read rest u ht hfirst hv hgoes => exact .underway first read rest u (hkept.trans ht) hfirst hv hgoes
    | ended first read rest o ht hfirst hv hcame => exact .ended first read rest o (hkept.trans ht) hfirst hv hcame

theorem heading_run (s : System) (guard : Guard) (token : Token) (htransition : event.transition) (acts : List Action) :
    let s₁ := s.request (.head guard token event)
    Heading env guard token event s.tasks.length (visitsBy env s.tasks.length s₁ acts)
      (commitsBy env s.tasks.length s₁ acts) (run env s₁ acts) := by
  dsimp only
  induction acts using List.reverseRecOn with
  | nil => exact .asked (work?_eq_some.1 (work?_asked s _)) rfl rfl
  | append_singleton acts a ih =>
    rw [run_snoc, visitsBy, commitsBy, along_snoc, along_snoc]
    exact ih.act env htransition a

/-! ## The record in the beginning -/

theorem EpochWrite.call?_ne_metadata (w : EpochWrite) (token : Token) (epoch : Epoch) (key : String) :
    (w.waitsFor env token epoch).call? ≠ some (.metadata key) := by
  cases w with
  | staging s => cases s <;> nofun
  | _ => nofun

/-- While the task waits for the record it has committed nothing. -/
theorem Heading.nothing_before (h : Heading env guard token event id visits commits s)
    (hp : s.pending? env id = some (.metadata env.metadataKey)) : commits = [] := by
  cases h with
  | asked _ _ hc => exact hc
  | reading _ _ _ _ hc => exact hc
  | underway first read rest u ht hfirst hv hgoes =>
    rw [pending?_of_some env (work?_eq_some.2 ht)] at hp
    cases hgoes with
    | direct record as w _ _ _ hcommits => exact hcommits
    | filling record p => exact absurd hp (EpochWrite.call?_ne_metadata env p.write token p.epoch _)
  | ended first read rest o ht =>
    rw [pending?_of_none env (work?_of_outcome? (outcome?_eq_some.2 ht))] at hp
    cases hp

/-- A visit is of the state after some of the actions. -/
theorem of_visitsBy {v : Visit} (h : v ∈ visitsBy env id s acts) : ∃ before since, acts = before ++ since ∧
    v.found = (run env s before).shared ∧ v.call? = (run env s before).pending? env id := by
  obtain ⟨before, a, since, hacts, hv⟩ := (mem_along env).1 h
  refine ⟨before, a :: since, hacts, ?_⟩
  cases a with
  | turn task reply =>
    rw [visitsOf] at hv
    split at hv
    · rw [List.mem_singleton.1 hv]
      exact ⟨rfl, rfl⟩
    · cases hv
  | _ => cases hv

/-- Where nobody else commits, the answer tells of what was committed in the beginning. -/
theorem kept_at_answer {v : Visit} (htransition : event.transition)
    (hv : v ∈ visitsBy env s.tasks.length (s.request (.head guard token event)) acts)
    (hcall : v.call? = some (.metadata env.metadataKey))
    (hsole : Sole env s.tasks.length (s.request (.head guard token event)) acts) : v.found.ledger = s.shared.ledger := by
  obtain ⟨before, since, rfl, hfound, hpending⟩ := of_visitsBy env hv
  have hbefore : Sole env s.tasks.length (s.request (.head guard token event)) before :=
    fun part a hp => hsole part a (hp.trans (List.prefix_append before since))
  have hnone := (heading_run env s guard token htransition before).nothing_before env (hpending.symm.trans hcall)
  have hk := kind_requested s (r := .head guard token event) nofun
  rw [hfound, ledger_sole env (length_request s _) hk hbefore, hnone]
  rfl

/-- Where the token is not cancelled in the end, it was not before. -/
theorem standing_before (id : Nat) (h : (run env s acts).shared.isCancelled token = false) :
    ∀ v ∈ visitsBy env id s acts, v.found.isCancelled token = false := by
  intro v hv
  obtain ⟨before, since, rfl, hfound, -⟩ := of_visitsBy env hv
  rw [hfound, Bool.eq_false_iff]
  intro hc
  rw [isCancelled_run env hc since] at h
  cases h

end System

end CommitteeSync
