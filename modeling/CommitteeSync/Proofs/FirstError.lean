/-
  CommitteeSync.Proofs.FirstError — the first fatal error wins, and every wait ends with it.

  A run is any number of steps on a handler or its clones: triggers, waits, questions for the
  error, and tokens cancelled by name. The handler is in one of two states:
  (1) No trigger came yet (`Quiet`). Nothing is captured, all waits that were started sleep and
      have seen all notices, and the tokens cancelled are those that were cancelled by name.
  (2) The first trigger came (`Settled`). Its error is captured and no wait is left. A later
      trigger changes nothing, and a wait that is started ends at its first look.
  What the first trigger does in between is `Quiet.trigger`: it gives notice after it has
  captured, and each wait that slept has seen one notice less. So what a run has seen depends on
  its steps alone, for any relation of the two tokens (`first_error_wins`).
-/

import CommitteeSync.Fatal.Waits
import Mathlib.Data.List.Basic
import Mathlib.Data.List.Induction

namespace CommitteeSync

namespace Waits

variable {relation : Relation} {steps : List Step} {w : Waits} {error : Cause}

/-! ## What the steps say -/

/-- What a step triggers. -/
def Step.error? : Step → Option (String × Cause)
  | .trigger context cause => some (context, cause)
  | _ => none

/-- The wait that a step starts. -/
def Step.waiter? : Step → Option String
  | .wait id => some id
  | _ => none

/-- The token that a step cancels by name. -/
def Step.cancels? (h : Handler) : Step → Option Token
  | .cancelRoot => some h.root
  | .cancelRun => some h.run
  | _ => none

/-- What the first trigger brings. -/
def firstError? (steps : List Step) : Option (String × Cause) := steps.findSome? Step.error?

/-- The waits that the steps start, in order. -/
def started (steps : List Step) : List String := steps.filterMap Step.waiter?

theorem firstError?_snoc (steps : List Step) (s : Step) : firstError? (steps ++ [s]) = (firstError? steps).or s.error? := by
  rw [firstError?, List.findSome?_append, List.findSome?_singleton]
  rfl

theorem started_snoc (steps : List Step) (s : Step) : started (steps ++ [s]) = started steps ++ s.waiter?.toList := by
  rw [started, List.filterMap_append, started]
  cases hs : s.waiter? <;> simp [hs]

/-! ## Runs -/

def run (w : Waits) (steps : List Step) : Waits := steps.foldl (fun w s => (w.apply s).1) w

/-- The waits that ended along a run, in the order in which they did, and with what. -/
def endings (w : Waits) : List Step → List (String × Cause)
  | [] => []
  | s :: rest => (w.apply s).2.2 ++ endings (w.apply s).1 rest

theorem run_snoc (w : Waits) (steps : List Step) (s : Step) : w.run (steps ++ [s]) = ((w.run steps).apply s).1 := by
  simp [run]

theorem endings_snoc (w : Waits) (steps : List Step) (s : Step) :
    w.endings (steps ++ [s]) = w.endings steps ++ ((w.run steps).apply s).2.2 := by
  induction steps generalizing w with
  | nil => exact List.append_nil _
  | cons s' steps ih =>
    rw [List.cons_append, endings, endings, ih, List.append_assoc]
    rfl

/-! ## One step -/

/-- A step that is no trigger leaves the handler alone. -/
theorem act_handler {s : Step} (hs : s.error? = none) (w : Waits) : (w.act s).1.handler = w.handler := by
  cases s with
  | trigger context cause => cases hs
  | _ => rfl

theorem act_notices {s : Step} (hs : s.error? = none) (w : Waits) : (w.act s).1.notices = w.notices := by
  cases s with
  | trigger context cause => cases hs
  | _ => rfl

theorem act_fired {s : Step} (hs : s.error? = none) (w : Waits) :
    (w.act s).1.tokens.fired = (s.cancels? w.handler).toList ++ w.tokens.fired := by
  cases s with
  | trigger context cause => cases hs
  | _ => rfl

/-- A wait that was just started has not looked at the handler. -/
theorem act_waiting (s : Step) (w : Waits) :
    (w.act s).1.waiting = w.waiting ++ s.waiter?.toList.map fun id => ⟨id, none⟩ := by
  cases s with
  | wait id => rfl
  | _ => exact (List.append_nil _).symm

/-- As long as nothing is captured, all waits go to sleep again. -/
theorem wake_of_none (hc : w.handler.captured = none) : w.wake = ({ w with waiting := w.waiting.map w.asleep }, []) := by
  have hend : ∀ x, w.endOf x = none := by
    intro x
    rw [endOf, hc, ite_self]
  simp [wake, hend]

/-- Once an error is captured all waits that are ready end with it. -/
theorem wake_of_some (hc : w.handler.captured = some error) (hr : ∀ x ∈ w.waiting, w.isReady x) :
    w.wake = ({ w with waiting := [] }, w.waiting.map fun x => (x.id, error)) := by
  have hend : ∀ x ∈ w.waiting, w.endOf x = some error := by
    intro x hx
    rw [endOf, if_pos (hr x hx), hc]
  have hleft : (w.waiting.filter fun x => (w.endOf x).isNone) = [] := by
    rw [List.filter_eq_nil_iff]
    intro x hx
    rw [hend x hx]
    exact Bool.false_ne_true
  have hended : (w.waiting.filterMap fun x => (w.endOf x).map fun cause => (x.id, cause)) =
      w.waiting.map fun x => (x.id, error) := by
    rw [List.filterMap_eq_map_iff_forall_eq_some]
    intro x hx
    rw [hend x hx]
    rfl
  rw [wake, hleft, hended]
  rfl

/-! ## Before the first trigger -/

/-- Nothing is captured, and all waits sleep. -/
structure Quiet (relation : Relation) (steps : List Step) (w : Waits) : Prop where
  handler : w.handler = relation.handler
  fired : ∀ t, t ∈ w.tokens.fired ↔ ∃ s ∈ steps, s.cancels? relation.handler = some t
  notices : w.notices = 0
  waiting : w.waiting = (started steps).map fun id => ⟨id, some 0⟩

theorem captured_handler (relation : Relation) : relation.handler.captured = none := by
  cases relation <;> rfl

theorem Quiet.captured (h : Quiet relation steps w) : w.handler.captured = none := by
  rw [h.handler]
  exact captured_handler relation

theorem quiet_start (relation : Relation) : Quiet relation [] (start relation) := by
  refine ⟨rfl, fun t => ⟨fun h => ?_, fun ⟨s, h, _⟩ => ?_⟩, rfl, rfl⟩
  · cases h
  · cases h

/-- A step that is no trigger ends no wait. -/
theorem Quiet.apply (h : Quiet relation steps w) {s : Step} (hs : s.error? = none) :
    Quiet relation (steps ++ [s]) (w.apply s).1 ∧ (w.apply s).2.2 = [] := by
  have hh : (w.act s).1.handler = relation.handler := (act_handler hs w).trans h.handler
  have hn : (w.act s).1.notices = 0 := (act_notices hs w).trans h.notices
  have hwake := wake_of_none (w := (w.act s).1) (by rw [hh]; exact captured_handler relation)
  have happly : w.apply s = ((w.act s).1.wake.1, (w.act s).2, (w.act s).1.wake.2) := rfl
  rw [happly, hwake]
  refine ⟨⟨hh, fun t => ?_, hn, ?_⟩, rfl⟩
  · show t ∈ (w.act s).1.tokens.fired ↔ _
    rw [act_fired hs, List.mem_append, h.fired, h.handler, Option.mem_toList]
    simp only [List.mem_append, List.mem_singleton, or_and_right, exists_or, exists_eq_left]
    exact or_comm
  · show (w.act s).1.waiting.map (w.act s).1.asleep = _
    rw [act_waiting, h.waiting, started_snoc, List.map_append, List.map_append, List.map_map, List.map_map]
    simp only [Function.comp_def, asleep, hn]

/-! ## From the first trigger on -/

/-- The error is captured, both tokens are cancelled, and no wait is left. -/
structure Settled (relation : Relation) (error : Cause) (w : Waits) : Prop where
  captured : w.handler.captured = some error
  root : w.tokens.isCancelled relation.handler.root
  run : w.tokens.isCancelled relation.handler.run
  waiting : w.waiting = []

/-- The first trigger captures, gives its error back as it was captured, and ends every wait that
    was started before. -/
theorem Quiet.trigger (h : Quiet relation steps w) (context : String) (cause : Cause) :
    Settled relation (.fatal context cause) (w.apply (.trigger context cause)).1 ∧
    (w.apply (.trigger context cause)).2 =
      (some (.fatal context cause), (started steps).map fun id => (id, .fatal context cause)) := by
  have hact : w.act (.trigger context cause) =
      ({ w with
        handler := (w.handler.capture w.tokens (.fatal context cause)).1
        tokens := (w.tokens.cancel w.handler.run).cancel w.handler.root
        notices := 1 }, some (.fatal context cause)) := by
    simp only [act, Handler.trigger_of_none h.captured, Handler.isTriggered_eq, h.captured, h.notices]
    rfl
  -- All waits have seen no notice, and now there has been one.
  have hready : ∀ x ∈ w.waiting, ({ w with notices := 1 } : Waits).isReady x := by
    rw [h.waiting]
    intro x hx
    obtain ⟨id, -, rfl⟩ := List.mem_map.1 hx
    rfl
  have hcaptured := Handler.captured_capture h.captured w.tokens (.fatal context cause)
  rw [Waits.apply, hact]
  dsimp only
  rw [wake_of_some hcaptured hready]
  refine ⟨⟨hcaptured, ?_, ?_, rfl⟩, ?_⟩
  · exact Tokens.isCancelled_iff.2 ⟨w.handler.root, List.mem_cons_self, Or.inl (by rw [h.handler])⟩
  · exact Tokens.isCancelled_iff.2 ⟨w.handler.run, List.mem_cons_of_mem _ List.mem_cons_self, Or.inl (by rw [h.handler])⟩
  · rw [h.waiting, List.map_map]
    rfl

/-- A trigger that comes later changes nothing, and its error is given back as it is. -/
theorem Settled.trigger (h : Settled relation error w) (context : String) (cause : Cause) :
    w.apply (.trigger context cause) = (w, some cause, []) := by
  have htriggered : w.handler.isTriggered = true := by rw [Handler.isTriggered_eq, h.captured]; rfl
  have hact : w.act (.trigger context cause) = (w, some cause) := by
    simp only [act, Handler.trigger_of_some h.captured, htriggered, if_true]
  have hready : ∀ x ∈ w.waiting, w.isReady x := by
    rw [h.waiting]
    exact fun x hx => absurd hx List.not_mem_nil
  have hempty : ({ w with waiting := [] } : Waits) = w := by rw [← h.waiting]
  rw [Waits.apply, hact]
  dsimp only
  rw [wake_of_some h.captured hready, h.waiting, hempty]
  rfl

/-- A step that comes later ends no wait but the one that it starts. -/
theorem Settled.apply (h : Settled relation error w) (s : Step) :
    Settled relation error (w.apply s).1 ∧ (w.apply s).2.2 = s.waiter?.toList.map fun id => (id, error) := by
  cases hs : s.error? with
  | some e =>
    cases s with
    | trigger context cause =>
      rw [h.trigger context cause]
      exact ⟨h, rfl⟩
    | _ => cases hs
  | none =>
    have hh : (w.act s).1.handler = w.handler := act_handler hs w
    have hready : ∀ x ∈ (w.act s).1.waiting, (w.act s).1.isReady x := by
      rw [act_waiting, h.waiting, List.nil_append]
      intro x hx
      obtain ⟨id, -, rfl⟩ := List.mem_map.1 hx
      rfl
    have hwake := wake_of_some (show (w.act s).1.handler.captured = some error by rw [hh, h.captured]) hready
    have happly : w.apply s = ((w.act s).1.wake.1, (w.act s).2, (w.act s).1.wake.2) := rfl
    have hfired : w.tokens.fired ⊆ (w.act s).1.tokens.fired := by
      rw [act_fired hs]
      exact List.subset_append_right _ _
    rw [happly, hwake]
    refine ⟨⟨?_, Tokens.isCancelled_mono hfired h.root, Tokens.isCancelled_mono hfired h.run, rfl⟩, ?_⟩
    · show (w.act s).1.handler.captured = _
      rw [hh, h.captured]
    · rw [act_waiting, h.waiting, List.nil_append, List.map_map]
      rfl

/-! ## A whole run -/

/-- The state after a run and the waits that ended in it, by what the first trigger brought. -/
inductive Accounts (relation : Relation) (steps : List Step) (w : Waits) (ended : List (String × Cause)) : Prop
  | quiet : firstError? steps = none → Quiet relation steps w → ended = [] → Accounts relation steps w ended
  | settled (context : String) (cause : Cause) : firstError? steps = some (context, cause) →
      Settled relation (.fatal context cause) w → ended = (started steps).map (fun id => (id, .fatal context cause)) →
      Accounts relation steps w ended

theorem Accounts.snoc {ended : List (String × Cause)} (h : Accounts relation steps w ended) (s : Step) :
    Accounts relation (steps ++ [s]) (w.apply s).1 (ended ++ (w.apply s).2.2) := by
  cases h with
  | quiet hf hquiet hended =>
    subst hended
    cases hs : s.error? with
    | none =>
      obtain ⟨hquiet', hwoken⟩ := hquiet.apply hs
      exact .quiet (by rw [firstError?_snoc, hf, hs]; rfl) hquiet' hwoken
    | some error =>
      cases s with
      | trigger context cause =>
        obtain ⟨hsettled, hanswer⟩ := hquiet.trigger context cause
        refine .settled context cause (by rw [firstError?_snoc, hf]; rfl) hsettled ?_
        rw [hanswer, started_snoc]
        exact congrArg (List.map _) (List.append_nil (started steps)).symm
      | _ => cases hs
  | settled context cause hf hsettled hended =>
    obtain ⟨hsettled', hwoken⟩ := hsettled.apply s
    refine .settled context cause (by rw [firstError?_snoc, hf]; rfl) hsettled' ?_
    rw [hended, hwoken, started_snoc, List.map_append]

theorem accounts_run (relation : Relation) (steps : List Step) :
    Accounts relation steps ((start relation).run steps) ((start relation).endings steps) := by
  induction steps using List.reverseRecOn with
  | nil => exact .quiet rfl (quiet_start relation) rfl
  | append_singleton steps s ih =>
    rw [run_snoc, endings_snoc]
    exact ih.snoc s

/-! ## What is seen -/

/-- After steps without a trigger. -/
structure Untriggered (relation : Relation) (steps : List Step) : Prop where
  /-- There is no answer to the question for the error. -/
  error : (((start relation).run steps).apply .error).2.1 = none
  flag : ((start relation).run steps).handler.isTriggered = false
  noneEnded : (start relation).endings steps = []
  /-- A token is cancelled just if it or its parent was cancelled by name. -/
  tokens : ∀ t, ((start relation).run steps).tokens.isCancelled t ↔
    ∃ s ∈ steps, ∃ u, s.cancels? relation.handler = some u ∧ (t = u ∨ t.parent? = some u)

/-- After steps of which the first trigger brought `cause` with `context`. -/
structure Triggered (relation : Relation) (steps : List Step) (context : String) (cause : Cause) : Prop where
  /-- The question for the error is answered with it. -/
  error : (((start relation).run steps).apply .error).2.1 = some (.fatal context cause)
  flag : ((start relation).run steps).handler.isTriggered = true
  /-- The context comes first and the whole chain of the cause last. -/
  message : (Cause.fatal context cause).message = context
  chain : cause.chain <:+ (Cause.fatal context cause).chain
  root : ((start relation).run steps).tokens.isCancelled relation.handler.root
  run : ((start relation).run steps).tokens.isCancelled relation.handler.run
  /-- Every wait ended once, whenever it was started, and with the captured error. -/
  ended : (start relation).endings steps = (started steps).map fun id => (id, .fatal context cause)
  /-- One more trigger gives its own error back, ends nothing and changes nothing. -/
  later : ∀ context' cause', ((start relation).run steps).apply (.trigger context' cause') =
    ((start relation).run steps, some cause', [])

/-- Whatever the steps, the first trigger decides what is seen of the handler, its tokens and its
    waits. -/
theorem first_error_wins (relation : Relation) (steps : List Step) :
    match firstError? steps with
    | none => Untriggered relation steps
    | some (context, cause) => Triggered relation steps context cause := by
  cases accounts_run relation steps with
  | quiet hf hquiet hended =>
    rw [hf]
    refine ⟨hquiet.captured, ?_, hended, fun t => ?_⟩
    · rw [Handler.isTriggered_eq, hquiet.captured]
      rfl
    · rw [Tokens.isCancelled_iff]
      constructor
      · rintro ⟨u, hu, htu⟩
        obtain ⟨s, hs, hc⟩ := (hquiet.fired u).1 hu
        exact ⟨s, hs, u, hc, htu⟩
      · rintro ⟨s, hs, u, hc, htu⟩
        exact ⟨u, (hquiet.fired u).2 ⟨s, hs, hc⟩, htu⟩
  | settled context cause hf hsettled hended =>
    rw [hf]
    have hflag : ((start relation).run steps).handler.isTriggered = true := by
      rw [Handler.isTriggered_eq, hsettled.captured]
      rfl
    exact ⟨hsettled.captured, hflag, rfl, ⟨[context, context], rfl⟩, hsettled.root, hsettled.run, hended, hsettled.trigger⟩

/-- Waits before, between and after two triggers, one of them on a clone. -/
example : (start .child).endings [.wait "a", .trigger "startup" (.reported ["refused"]), .wait "b", .clone,
    .trigger "listener" .streamClosed, .wait "c"] =
    [("a", .fatal "startup" (.reported ["refused"])), ("b", .fatal "startup" (.reported ["refused"])),
      ("c", .fatal "startup" (.reported ["refused"]))] := by decide

end Waits

end CommitteeSync
