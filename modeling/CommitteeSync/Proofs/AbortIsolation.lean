/-
  CommitteeSync.Proofs.AbortIsolation — a pass stops at the first epoch that it cannot write.

  Proved for every range and token, from any state, whatever else goes on and whatever fails
  (`pass_isolated`):
  (1) A pass over an empty range makes no call and counts no run. Any other pass ends with
      the whole range committed, or at the first epoch at which the token was found cancelled
      or whose write came to an error. It commits the epochs before that one in ascending
      order, each in one transaction, and fetches for no other epoch but that one.
  (2) It puts and sets nothing of a later epoch, and its report says how far it got.
  (3) If nobody else commits, what is committed in the end is what it committed, and the
      record is its last epoch.
  (4) It ends if it always gets another turn, also with the last epoch as its target.
-/

import CommitteeSync.Proofs.Alike
import CommitteeSync.Proofs.Committed
import CommitteeSync.Proofs.Endings
import CommitteeSync.Proofs.PassCourse

namespace CommitteeSync

open Turn

variable (env : Setup)

/-! ## The calls of the legs -/

/-- The slot that a call fetches for. -/
def Call.fetched? : Call → Option Slot
  | .fetch stateSlot => some stateSlot
  | _ => none

/-- The epoch that a call stages something of. -/
def Call.staged? : Call → Option Epoch
  | .put slot _ => some (env.layout.epochOf slot)
  | .set record => some record.latestEpoch
  | _ => none

theorem fetched_script (epoch : Epoch) (as : List Assignment) :
    (script env epoch as).filterMap Call.fetched? = [env.layout.firstSlot epoch] := by
  have hputs : (as.map Assignment.put).filterMap Call.fetched? = [] := by
    rw [List.filterMap_map, List.filterMap_eq_nil_iff]
    intro a _
    rfl
  rw [script, List.filterMap_append, List.filterMap_append, hputs]
  rfl

theorem set_script {epoch : Epoch} {as : List Assignment} {record : Record} (h : .set record ∈ script env epoch as) :
    record = ⟨epoch⟩ := by
  simpa [script, Assignment.put] using h

theorem filterMap_of_map {visits : List Visit} {calls : List Call} (h : visits.map Visit.call? = calls.map some) :
    visits.filterMap Visit.call? = calls := by
  have hid : visits.filterMap Visit.call? = (visits.map Visit.call?).filterMap id := by
    rw [List.filterMap_map]
    rfl
  rw [hid, h, List.filterMap_map]
  exact List.filterMap_some

namespace Course

variable {env} {token : Token} {epoch : Epoch} {as : List Assignment} {visits : List Visit} {r : EpochWrite.Result}

/-- The calls of a write that is over are a part of the script. -/
theorem calls_script (h : Course env token epoch as [] visits r) : visits.filterMap Visit.call? <+: script env epoch as := by
  have hprefix : visits.map Visit.call? <+: (script env epoch as).map some := h.calls
  have hfilter := hprefix.filterMap id
  rw [List.filterMap_map, List.filterMap_map] at hfilter
  simpa using hfilter

/-- It fetched for its own epoch, if at all. -/
theorem fetched (h : Course env token epoch as [] visits r) :
    (visits.filterMap Visit.call?).filterMap Call.fetched? <+: [env.layout.firstSlot epoch] := by
  rw [← fetched_script env epoch as]
  exact h.calls_script.filterMap _

/-- It staged nothing of another epoch. -/
theorem staged (h : Course env token epoch as [] visits r) {call : Call} (hc : call ∈ visits.filterMap Visit.call?)
    {e : Epoch} (he : call.staged? env = some e) : e = epoch := by
  obtain ⟨v, hv, hcall⟩ := List.mem_filterMap.1 hc
  have hscript := h.calls_script.subset hc
  cases call with
  | put slot index =>
    cases he
    exact h.puts v hv slot index hcall
  | set record =>
    cases he
    rw [set_script env hscript]
  | _ => cases he

end Course

namespace Leg

variable {env} {token : Token} {l : Leg}

theorem Done.calls (h : l.Done env token) : l.visits.filterMap Visit.call? = script env l.epoch l.as := by
  refine filterMap_of_map ?_
  have hwhole := (Course.ok_iff env h l.as.length).1 rfl
  exact hwhole.1

theorem calls_flatMap {legs : List Leg} (h : ∀ l ∈ legs, l.Done env token) :
    (legs.flatMap Leg.visits).filterMap Visit.call? = legs.flatMap fun l => script env l.epoch l.as := by
  induction legs with
  | nil => rfl
  | cons l legs ih =>
    rw [List.flatMap_cons, List.filterMap_append, (h l List.mem_cons_self).calls, ih fun k hk => h k (List.mem_cons_of_mem l hk)]
    rfl

theorem fetched_flatMap (legs : List Leg) :
    (legs.flatMap fun l => script env l.epoch l.as).filterMap Call.fetched? =
      (legs.map Leg.epoch).map env.layout.firstSlot := by
  induction legs with
  | nil => rfl
  | cons l legs ih =>
    rw [List.flatMap_cons, List.filterMap_append, fetched_script, ih]
    rfl

/-- The calls of a pass that is over. -/
theorem calls_path {first : Visit} {legs : List Leg} {now : List Visit} (hfirst : first.call? = none)
    (h : ∀ l ∈ legs, l.Done env token) :
    (path first legs now).filterMap Visit.call? =
      (legs.flatMap fun l => script env l.epoch l.as) ++ now.filterMap Visit.call? := by
  rw [path, List.cons_append, List.filterMap_cons, hfirst, List.filterMap_append, calls_flatMap h]

end Leg

/-! ## What the commits of the legs leave -/

/-- These commits one after another. -/
def Ledger.commitAll (l : Ledger) (commits : List (Epoch × Transaction)) : Ledger :=
  commits.foldl (fun l c => l.commit c.1 c.2) l

theorem Ledger.commitAll_append (l : Ledger) (commits commits' : List (Epoch × Transaction)) :
    l.commitAll (commits ++ commits') = (l.commitAll commits).commitAll commits' := List.foldl_append

theorem Ledger.log_commitAll (l : Ledger) (commits : List (Epoch × Transaction)) :
    (l.commitAll commits).log = l.log ++ commits.map Prod.fst := by
  induction commits generalizing l with
  | nil => exact (List.append_nil _).symm
  | cons c commits ih =>
    show ((l.commit c.1 c.2).commitAll commits).log = _
    rw [ih, List.map_cons, ← List.singleton_append, ← List.append_assoc]
    rfl

/-- The record is the last leg. -/
theorem Leg.record_commits (l : Ledger) (legs : List Leg) :
    (l.commitAll (legs.map (Leg.commit env))).metadata.lookup env.metadataKey =
      ((legs.map Leg.epoch).getLast?.map fun e => Record.encode ⟨e⟩).or (l.metadata.lookup env.metadataKey) := by
  induction legs using List.reverseRecOn with
  | nil => rfl
  | append_singleton legs leg _ =>
    rw [List.map_append, Ledger.commitAll_append, List.map_append]
    show (bindKey env.metadataKey (Record.encode ⟨leg.epoch⟩) _).lookup env.metadataKey = _
    rw [lookup_bindKey, if_pos rfl]
    show _ = Option.or (((legs.map Leg.epoch ++ [leg.epoch]).getLast?).map _) _
    rw [List.getLast?_concat]
    rfl

/-! ## Runs counted -/

theorem overlooks_runs : Shared.Overlooks fun sh => sh.telemetry.catchupRuns where
  make _ _ := rfl
  count _ := rfl
  beginTx _ := rfl
  cancelTx _ _ := rfl
  commitTx _ _ _ _ := rfl

namespace Pass

theorem enter_runs (token : Token) (report : Report) (epoch : Epoch) (sh : Shared) :
    (enter token report epoch sh).1.telemetry = sh.telemetry := by
  unfold enter
  split <;> rfl

/-- A pass is counted in its first turn, unless its range is empty. -/
theorem start_runs (token : Token) (resume target : Epoch) (sh : Shared) :
    (start token resume target sh).1.telemetry.catchupRuns =
      sh.telemetry.catchupRuns + if resume ≤ target then 1 else 0 := by
  unfold start
  by_cases h : resume > target
  · rw [if_pos h, if_neg (UInt64.not_le.2 h)]
    exact (UInt64.add_zero _).symm
  · rw [if_neg h, if_pos (UInt64.not_lt.1 h), enter_runs]
    rfl

theorem resume_runs (token : Token) (sh : Shared) (p : Pass) (reply : Reply) :
    (p.resume env token sh reply).1.telemetry.catchupRuns = sh.telemetry.catchupRuns := by
  rw [resume, andThen_view (fun sh => sh.telemetry.catchupRuns) _ _ fun sh r => ?_]
  · exact EpochWrite.resume_overlooked env overlooks_runs token p.epoch sh p.write reply
  · cases r with
    | error error => rfl
    | ok n =>
      simp only [settle]
      split
      · rfl
      · rw [enter_runs]

/-- The outcome of a pass that halts before or in the write of an epoch, and what it did for that epoch. -/
theorem Halts.outcome {token : Token} {epoch : Epoch} {before now : List Visit} {outcome : PassOutcome}
    (h : Halts env token epoch before now outcome) :
    (outcome = .cancelled ∨ ∃ error, outcome = .aborted error ∧ error.epoch = epoch) ∧
    (now.filterMap Visit.call?).filterMap Call.fetched? <+: [env.layout.firstSlot epoch] ∧
    ∀ call ∈ now.filterMap Visit.call?, ∀ e ∈ call.staged? env, e = epoch := by
  cases h with
  | cancelled last => exact ⟨Or.inl rfl, List.nil_prefix, fun _ hc => absurd hc List.not_mem_nil⟩
  | failed as now error hcourse =>
    refine ⟨?_, hcourse.fetched, fun call hc e he => hcourse.staged hc he⟩
    unfold outcomeOf
    split
    · exact Or.inl rfl
    · exact Or.inr ⟨error, rfl, hcourse.epoch_eq env⟩

end Pass

/-! ## Along a run -/

namespace System

variable {s : System} {token : Token} {resume target : Epoch} {id : Nat} {acts : List Action}

/-- How far the pass that task `id` was asked for has got. -/
inductive Passing (token : Token) (resume target : Epoch) (id : Nat) (visits : List Visit)
    (commits : List (Epoch × Transaction)) (s : System) : Prop
  | asked : s.tasks[id]? = some (.active (.asked (.pass token resume target))) → visits = [] → commits = [] →
      Passing token resume target id visits commits s
  | underway (p : Pass) : s.tasks[id]? = some (.active (.pass token p)) →
      (∃ first legs as now, p.Advances env token resume target visits commits first legs as now) →
      Passing token resume target id visits commits s
  | ended (r : Report) : s.tasks[id]? = some (.ended (.pass r)) → Pass.Ends env token resume target visits commits r →
      Passing token resume target id visits commits s

variable {visits : List Visit} {commits : List (Epoch × Transaction)}

theorem Passing.here (h : Passing env token resume target id visits commits s) : id < s.tasks.length := by
  cases h with
  | asked ht => exact (List.getElem?_eq_some_iff.1 ht).1
  | underway p ht => exact (List.getElem?_eq_some_iff.1 ht).1
  | ended r ht => exact (List.getElem?_eq_some_iff.1 ht).1

/-- What a turn of the task came to. -/
theorem passing_turn {t : Shared × Turn Pass Report} (ht : s.tasks[id]? = some (taskOf (andThen t (.pass token) (Work.ending .pass)).2))
    (h : Yields t (fun _ p => ∃ first legs as now, p.Advances env token resume target visits commits first legs as now)
      (fun _ r => Pass.Ends env token resume target visits commits r)) :
    Passing env token resume target id visits commits s := by
  obtain ⟨sh', p | r⟩ := t
  · exact .underway p ht h
  · exact .ended r ht h

theorem commitsOf_turn {w : Work} (hw : s.work? id = some w) (reply : Reply) :
    commitsOf id s (.turn id reply) = (commitOf w.write? reply).toList := by
  rw [commitsOf, if_pos rfl, commits?, write?_of_some hw]

/-- What is no turn of the task, or comes when it is over, commits nothing for it. -/
theorem commitsOf_idle {a : Action} (h : ∀ reply w, a = .turn id reply → s.work? id ≠ some w) : commitsOf id s a = [] := by
  by_cases ha : ∃ reply, a = .turn id reply
  · obtain ⟨reply, rfl⟩ := ha
    have hnone : s.work? id = none := Option.eq_none_iff_forall_ne_some.2 fun w => h reply w rfl
    rw [commitsOf, if_pos rfl, commits?, write?_of_none hnone]
    rfl
  · exact commitsOf_other fun reply he => ha ⟨reply, he⟩

theorem Passing.act (h : Passing env token resume target id visits commits s) (a : Action) :
    Passing env token resume target id (visits ++ visitsOf env id s a) (commits ++ commitsOf id s a) (act env s a) := by
  by_cases hturn : ∃ reply w, a = .turn id reply ∧ s.work? id = some w
  · obtain ⟨reply, w, rfl, hw⟩ := hturn
    have ht' := task_turn env reply hw
    rw [visitsOf_turn env hw, commitsOf_turn hw]
    rw [work?_eq_some] at hw
    cases h with
    | asked ht hv hc =>
      cases ht.symm.trans hw
      subst hv hc
      exact passing_turn env ht' (Pass.start_advances env token resume target s.shared reply)
    | underway p ht hadv =>
      cases ht.symm.trans hw
      obtain ⟨first, legs, as, now, hadv⟩ := hadv
      exact passing_turn env ht' (Pass.resume_advances env hadv s.shared reply)
    | ended r ht => cases ht.symm.trans hw
  · have hother : ∀ reply w, a = .turn id reply → s.work? id ≠ some w := fun reply w he hw => hturn ⟨reply, w, he, hw⟩
    have hkept := tasks_idle env h.here hother
    rw [visitsOf_other env hother, commitsOf_idle hother, List.append_nil, List.append_nil]
    cases h with
    | asked ht hv hc => exact .asked (hkept.trans ht) hv hc
    | underway p ht hadv => exact .underway p (hkept.trans ht) hadv
    | ended r ht hends => exact .ended r (hkept.trans ht) hends

theorem passing_run (s : System) (token : Token) (resume target : Epoch) (acts : List Action) :
    let s₁ := s.request (.pass token resume target)
    Passing env token resume target s.tasks.length (visitsBy env s.tasks.length s₁ acts)
      (commitsBy env s.tasks.length s₁ acts) (run env s₁ acts) := by
  dsimp only
  induction acts using List.reverseRecOn with
  | nil => exact .asked (work?_eq_some.1 (work?_asked s _)) rfl rfl
  | append_singleton acts a ih =>
    rw [run_snoc, visitsBy, commitsBy, along_snoc, along_snoc]
    exact ih.act env a

/-! ## Nobody else commits -/

/-- Of all actions in the run only turns of task `id` touch what is committed. -/
def Sole (id : Nat) (s : System) (acts : List Action) : Prop :=
  ∀ part a, part ++ [a] <+: acts → (∀ reply, a ≠ .turn id reply) →
    (run env s (part ++ [a])).shared.ledger = (run env s part).shared.ledger

theorem Sole.of_snoc {a : Action} (h : Sole env id s (acts ++ [a])) : Sole env id s acts :=
  fun part b hp => h part b (hp.trans (List.prefix_append acts [a]))

/-- Then what is committed is what the task committed. -/
theorem ledger_sole (hid : id < s.tasks.length) (hk : ∀ w, s.work? id = some w → w.kind ≠ .stage)
    (h : Sole env id s acts) : (run env s acts).shared.ledger = s.shared.ledger.commitAll (commitsBy env id s acts) := by
  induction acts using List.reverseRecOn with
  | nil => rfl
  | append_singleton acts a ih =>
    rw [commitsBy, along_snoc, ← commitsBy, Ledger.commitAll_append, ← ih h.of_snoc]
    by_cases ha : ∃ reply, a = .turn id reply
    · obtain ⟨reply, rfl⟩ := ha
      rw [run_snoc]
      cases hw : (run env s acts).work? id with
      | none =>
        have hidle : ∀ reply' w, Action.turn id reply = .turn id reply' → (run env s acts).work? id ≠ some w := by
          intro _ w _ he
          rw [hw] at he
          cases he
        rw [turn_of_none env reply hw, commitsOf_idle hidle]
        rfl
      | some w =>
        obtain ⟨w₀, hw₀, hkind⟩ := kind_since env hid hw
        have hstage : w.kind ≠ .stage := by
          rw [hkind]
          exact hk w₀ hw₀
        rw [shared_turn env reply hw, commitsOf_turn hw, Work.resume_ledger env _ w reply hstage]
        cases commitOf w.write? reply <;> rfl
    · have hother : ∀ reply, a ≠ .turn id reply := fun reply he => ha ⟨reply, he⟩
      rw [commitsOf_other hother]
      exact h acts a (List.prefix_refl _) hother

/-- The record is then the last of the legs that the task got through. -/
theorem record_sole {legs : List Leg} (hid : id < s.tasks.length) (hk : ∀ w, s.work? id = some w → w.kind ≠ .stage)
    (hcommits : commitsBy env id s acts = legs.map (Leg.commit env)) (h : Sole env id s acts) :
    (run env s acts).shared.store.readMetadata env.metadataKey =
      ((legs.map Leg.epoch).getLast?.map fun e => Record.encode ⟨e⟩).or (s.shared.store.readMetadata env.metadataKey) := by
  have hledger := congrArg Ledger.metadata (ledger_sole env hid hk h)
  rw [Store.readMetadata, show (run env s acts).shared.store.metadata = _ from hledger, hcommits, Leg.record_commits]
  rfl

/-! ## How a pass ends -/

/-- What a pass did that got through `legs`, touched no epoch past `reach` and committed `last?` last. -/
structure Confined (token : Token) (resume reach : Epoch) (last? : Option Epoch) (legs : List Leg) (s : System) (id : Nat)
    (acts : List Action) : Prop where
  done : ∀ l ∈ legs, l.Done env token
  /-- One transaction for each epoch. -/
  commits : commitsBy env id s acts = legs.map (Leg.commit env)
  fetches : (callsBy env id s acts).filterMap Call.fetched? <+: (upTo resume reach).map env.layout.firstSlot
  staged : ∀ call ∈ callsBy env id s acts, ∀ e ∈ call.staged? env, resume ≤ e ∧ e ≤ reach
  record : Sole env id s acts → (run env s acts).shared.store.readMetadata env.metadataKey =
    (last?.map fun e => Record.encode ⟨e⟩).or (s.shared.store.readMetadata env.metadataKey)

/-- The epoch before `epoch`, if it is one of those from `resume` on. -/
def before? (resume epoch : Epoch) : Option Epoch := if epoch = resume then none else some (epoch - 1)

/-- How a pass of task `id` from `resume` to `target` ended with its report. -/
inductive Passed (token : Token) (resume target : Epoch) (s : System) (id : Nat) (acts : List Action) : Report → Prop
  /-- There was nothing to do. -/
  | nothing : target < resume → callsBy env id s acts = [] → commitsBy env id s acts = [] →
      Passed token resume target s id acts (Report.empty resume target)
  /-- It got through its whole range. -/
  | whole (legs : List Leg) : resume ≤ target → legs.map Leg.epoch = upTo resume target →
      Confined env token resume target (some target) legs s id acts →
      Passed token resume target s id acts
        ⟨resume, target, some target, target - resume + 1, .completed⟩
  /-- It got as far as `epoch`. -/
  | short (first : Visit) (legs : List Leg) (epoch : Epoch) (now : List Visit) (outcome : PassOutcome) :
      resume ≤ epoch → epoch ≤ target → legs.map Leg.epoch ++ [epoch] = upTo resume epoch →
      visitsBy env id s acts = Leg.path first legs now →
      Pass.Halts env token epoch (Leg.path first legs []) now outcome →
      (outcome = .cancelled ∨ ∃ error, outcome = .aborted error ∧ error.epoch = epoch) →
      Confined env token resume epoch (before? resume epoch) legs s id acts →
      Passed token resume target s id acts
        ⟨resume, target, before? resume epoch, epoch - resume, outcome⟩

/-- What holds of the pass from `resume` to `target` by task `id`, which was asked for last in `s`. -/
structure Isolated (token : Token) (resume target : Epoch) (s : System) (id : Nat) : Prop where
  result : ∀ acts o, (run env s acts).outcome? id = some o → ∃ r, o = .pass r ∧ Passed env token resume target s id acts r
  /-- It is counted in its first turn, unless its range is empty, and in no other. -/
  runs : ∀ part reply, let x := run env s part
    let x' := run env s (part ++ [.turn id reply])
    x'.shared.telemetry.catchupRuns = x.shared.telemetry.catchupRuns +
      if x.work? id = some (.asked (.pass token resume target)) ∧ resume ≤ target then 1 else 0
  ledger : ∀ acts, Sole env id s acts →
    (run env s acts).shared.ledger = s.shared.ledger.commitAll (commitsBy env id s acts)
  returns : ∀ schedule, Often id schedule → ∃ n r, (run env s (first schedule n)).outcome? id = some (.pass r)

theorem Passing.outcome {o : Outcome} (h : Passing env token resume target id visits commits s)
    (ho : s.outcome? id = some o) : ∃ r, o = .pass r ∧ Pass.Ends env token resume target visits commits r := by
  cases h with
  | asked ht => simp [outcome?, ht] at ho
  | underway p ht => simp [outcome?, ht] at ho
  | ended r ht hends =>
    simp only [outcome?, ht, Option.some.injEq] at ho
    exact ⟨r, ho.symm, hends⟩

/-- Only its first turn counts the pass. -/
theorem Passing.runs (h : Passing env token resume target id visits commits s) (reply : Reply) :
    (System.act env s (.turn id reply)).shared.telemetry.catchupRuns = s.shared.telemetry.catchupRuns +
      if s.work? id = some (.asked (.pass token resume target)) ∧ resume ≤ target then 1 else 0 := by
  cases h with
  | asked ht _ _ =>
    have hw := work?_eq_some.2 ht
    rw [shared_turn env reply hw, hw]
    simp only [true_and]
    have hstart := Pass.start_runs token resume target s.shared
    rw [← hstart]
    exact andThen_view (fun sh => sh.telemetry.catchupRuns) _ _ fun _ _ => rfl
  | underway p ht _ =>
    have hw := work?_eq_some.2 ht
    rw [shared_turn env reply hw, hw]
    simp only [Option.some.injEq, reduceCtorEq, false_and, if_false]
    rw [UInt64.add_zero, ← Pass.resume_runs env token s.shared p reply]
    exact andThen_view (fun sh => sh.telemetry.catchupRuns) _ _ fun _ _ => rfl
  | ended r ht _ =>
    have hw : s.work? id = none := by rw [work?, ht]
    rw [turn_of_none env reply hw, hw]
    simp only [reduceCtorEq, false_and, if_false]
    exact (UInt64.add_zero _).symm

/-- What the legs of a pass leave, and the calls for the epoch after them. -/
theorem confined (hid : id < s.tasks.length) (hk : ∀ w, s.work? id = some w → w.kind ≠ .stage) {legs : List Leg}
    {now : List Call} {reach : Epoch} {last? : Option Epoch}
    (hcalls : callsBy env id s acts = (legs.flatMap fun l => script env l.epoch l.as) ++ now)
    (hcommits : commitsBy env id s acts = legs.map (Leg.commit env)) (hdone : ∀ l ∈ legs, l.Done env token)
    (hlast : (legs.map Leg.epoch).getLast? = last?) (hlegs : ∀ l ∈ legs, resume ≤ l.epoch ∧ l.epoch ≤ reach)
    (hfetched : (legs.map Leg.epoch).map env.layout.firstSlot ++ now.filterMap Call.fetched? <+:
      (upTo resume reach).map env.layout.firstSlot)
    (hnow : ∀ call ∈ now, ∀ e ∈ call.staged? env, resume ≤ e ∧ e ≤ reach) :
    Confined env token resume reach last? legs s id acts := by
  refine ⟨hdone, hcommits, ?_, ?_, fun hsole => ?_⟩
  · rw [hcalls, List.filterMap_append, Leg.fetched_flatMap]
    exact hfetched
  · intro call hc e he
    rw [hcalls] at hc
    rcases List.mem_append.1 hc with hc | hc
    · obtain ⟨l, hl, hc⟩ := List.mem_flatMap.1 hc
      have hstaged := (show Course env token l.epoch l.as [] l.visits (.ok l.as.length) from hdone l hl).staged
        (by rw [(hdone l hl).calls]; exact hc) he
      rw [hstaged]
      exact hlegs l hl
    · exact hnow call hc e he
  · rw [← hlast]
    exact record_sole env hid hk hcommits hsole

theorem before?_of_upTo {legs : List Epoch} {epoch : Epoch} (hle : resume ≤ epoch) (h : legs ++ [epoch] = upTo resume epoch) :
    legs.getLast? = before? resume epoch ∧ legs.length = epoch.toNat - resume.toNat := by
  have hlength := congrArg List.length h
  rw [length_upTo hle, List.length_append, List.length_singleton] at hlength
  refine ⟨?_, by omega⟩
  by_cases heq : epoch = resume
  · rw [before?, if_pos heq]
    have hn : legs.length = 0 := by
      rw [heq] at hlength
      omega
    rw [List.length_eq_zero_iff.1 hn]
    rfl
  · rw [before?, if_neg heq]
    have hlt := UInt64.lt_of_le_of_ne hle (Ne.symm heq)
    obtain ⟨hpred, hne, hle'⟩ := pred_of_lt hlt
    rw [← hpred, upTo_snoc hle' hne, hpred] at h
    rw [List.append_cancel_right h]
    exact getLast?_upTo hle'

section Requested

variable (s : System) (token : Token) (resume target : Epoch)

theorem length_request (r : Request) : s.tasks.length < (s.request r).tasks.length := by simp [request]

/-- The task of a request is of the kind that was asked for. -/
theorem kind_requested {r : Request} (hr : r.kind ≠ .stage) (w : Work) (hw : (s.request r).work? s.tasks.length = some w) :
    w.kind ≠ .stage := by
  cases (work?_asked s r).symm.trans hw
  exact hr

/-- Its calls are those that it got a reply to and the one that it waits for. -/
theorem calls_requested {r : Request} (hr : r.kind ≠ .stage) (acts : List Action) :
    callsBy env s.tasks.length (s.request r) acts = (visitsBy env s.tasks.length (s.request r) acts).filterMap Visit.call? ++
      ((run env (s.request r) acts).pending? env s.tasks.length).toList := by
  have hidle : (s.request r).pending? env s.tasks.length = none := by
    rw [pending?_of_some env (work?_asked s r)]
    rfl
  exact calls_visited env (length_request s r) (kind_requested s hr) hidle acts

/-- The epochs of legs that go up to `reach`, which is no leg itself. -/
theorem legs_within {legs : List Leg} {reach : Epoch} (h : legs.map Leg.epoch ++ [reach] = upTo resume reach) {l : Leg}
    (hl : l ∈ legs) : resume ≤ l.epoch ∧ l.epoch ≤ reach :=
  mem_upTo (h ▸ List.mem_append_left _ (List.mem_map_of_mem hl))

variable {s token resume target}

theorem passed_run {o : Outcome}
    (ho : (run env (s.request (.pass token resume target)) acts).outcome? s.tasks.length = some o) :
    ∃ r, o = .pass r ∧ Passed env token resume target (s.request (.pass token resume target)) s.tasks.length acts r := by
  have hid := length_request s (.pass token resume target)
  have hk := kind_requested s (r := .pass token resume target) nofun
  obtain ⟨r, rfl, hends⟩ := (passing_run env s token resume target acts).outcome env ho
  refine ⟨r, rfl, ?_⟩
  have hcalls := calls_requested env s (r := .pass token resume target) nofun acts
  rw [pending?_of_none env (work?_of_outcome? ho), Option.toList_none, List.append_nil] at hcalls
  cases hends with
  | nothing first hlt hvisits hfirst hcommits =>
    refine .nothing hlt ?_ hcommits
    rw [hcalls, hvisits, List.filterMap_cons, hfirst, List.filterMap_nil]
  | whole first legs hle hvisits hfirst hcommits hdone hepochs =>
    rw [hvisits, Leg.calls_path hfirst hdone] at hcalls
    have hlegs : ∀ l ∈ legs, resume ≤ l.epoch ∧ l.epoch ≤ target := by
      intro l hl
      exact mem_upTo (hepochs ▸ List.mem_map_of_mem hl)
    have hlength : UInt64.ofNat legs.length = target - resume + 1 := by
      rw [← ofNat_length_upTo hle, ← hepochs, List.length_map]
    rw [hlength]
    refine .whole legs hle hepochs ?_
    refine confined env hid hk hcalls hcommits hdone ?_ hlegs ?_ fun _ hc => absurd hc List.not_mem_nil
    · rw [hepochs]
      exact getLast?_upTo hle
    · rw [hepochs]
      exact ⟨[], by simp⟩
  | short first legs epoch now outcome hle hle' hvisits hfirst hcommits hdone hepochs hhalts =>
    rw [hvisits, Leg.calls_path hfirst hdone] at hcalls
    obtain ⟨hlast, hlength⟩ := before?_of_upTo hle hepochs
    rw [List.length_map] at hlength
    obtain ⟨houtcome, hfetched, hstaged⟩ := hhalts.outcome env
    rw [hlast, hlength, ofNat_sub_toNat hle]
    refine .short first legs epoch now outcome hle hle' hepochs hvisits hhalts houtcome ?_
    refine confined env hid hk hcalls hcommits hdone hlast (fun l hl => legs_within resume hepochs hl) ?_ fun call hc e he => ?_
    · rw [← hepochs, List.map_append]
      exact (List.prefix_append_right_inj _).2 hfetched
    · rw [hstaged call hc e he]
      exact ⟨hle, UInt64.le_refl _⟩

end Requested

/-- A pass stops at the first epoch that it cannot write, from any state, whatever else goes
    on and whatever fails. -/
theorem pass_isolated (s : System) (token : Token) (resume target : Epoch) :
    Isolated env token resume target (s.request (.pass token resume target)) s.tasks.length := by
  have hid := length_request s (.pass token resume target)
  constructor
  · intro acts o ho
    exact passed_run env ho
  · intro part reply
    dsimp only
    rw [run_snoc]
    exact (passing_run env s token resume target part).runs env reply
  · intro acts hsole
    exact ledger_sole env hid (kind_requested s nofun) hsole
  · intro schedule ho
    obtain ⟨n, hover⟩ := ends_of_falls env passBelow_wf Work.left Work.InRange
      (fun sh w reply h => w.resume_falls env sh reply h) (work?_asked s (.pass token resume target)) trivial ho
    obtain ⟨o, hout⟩ := outcome?_of_over (Nat.lt_of_lt_of_le hid (length_run env _ _)) hover
    obtain ⟨r, rfl, -⟩ := (passing_run env s token resume target _).outcome env hout
    exact ⟨n, r, hout⟩

/-- From epoch 1 up to 3, where the commit of epoch 2 fails. -/
theorem pass_isolated_commit_refused :
    let s := (opened [] (fun _ => []) []).request (.pass (.root 0) 1 3)
    let acts := List.replicate 8 (.turn 0 .granted) ++ [.turn 0 (.failed (.reported ["disk full"]))]
    let report : Report := ⟨1, 3, some 1, 1, .aborted ⟨2, .commit, .reported ["disk full"]⟩⟩
    (run .plain s acts).outcome? 0 = some (.pass report) ∧
    Passed .plain (.root 0) 1 3 s 0 acts report ∧
    (run .plain s acts).shared.ledger = s.shared.ledger.commitAll (commitsBy .plain 0 s acts) := by
  dsimp only
  have hall := pass_isolated .plain (opened [] (fun _ => []) []) (.root 0) 1 3
  obtain ⟨r, hr, hpassed⟩ := hall.result
    (List.replicate 8 (.turn 0 .granted) ++ [.turn 0 (.failed (.reported ["disk full"]))]) _ rfl
  cases hr
  refine ⟨rfl, hpassed, hall.ledger _ fun part a hp hne => ?_⟩
  -- Every action is a turn of the pass.
  have hturns : ∀ b ∈ List.replicate 8 (.turn 0 .granted) ++ [.turn 0 (.failed (.reported ["disk full"]))],
      ∃ reply, b = Action.turn 0 reply := by simp
  obtain ⟨reply, rfl⟩ := hturns a (hp.subset (List.mem_append_right _ List.mem_cons_self))
  exact absurd rfl (hne reply)

end System

end CommitteeSync
