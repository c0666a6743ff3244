/-
  CommitteeSync.Proofs.ListenerFold — listening is handling one event after another.

  A run in which nothing but the listener of one task goes on is set beside a direct run: the
  listener is left alone, and each event it would have taken is handed to the synchronizer by
  a request of its own, made when the request before it is over.

  Proved, for any events and whatever is replied to the calls (`System.listener_in_turn`):
  (1) The events handled are the events sent as far as they were handled, in the order sent,
      each handling over before the next begins. A listener stops only for its token or at
      the end of its stream, and may still take events after its token is cancelled.
  (2) While no other call is running, the direct run makes the same calls, gets the same
      replies, and leaves the same store and counters.
-/

import CommitteeSync.Proofs.Background
import CommitteeSync.Proofs.HandlingOrder
import CommitteeSync.Proofs.History

namespace CommitteeSync

open Turn Handling

variable (env : Setup)

/-! ## Turns of the reporter -/

/-- The task reports the metrics. -/
def Work.isReporter : Work → Bool
  | .asked .reporter | .reporter _ => true
  | _ => false

theorem Reporter.windDown_beside (sh : Shared) (r : Reporter) (lag : Nat) :
    (windDown env sh r lag).1.desk = sh.desk ∧ (windDown env sh r lag).1.feeds = sh.feeds ∧
    (windDown env sh r lag).1.runToken = sh.runToken := by
  induction lag generalizing sh r with
  | zero => exact ⟨rfl, rfl, rfl⟩
  | succ lag ih =>
    unfold windDown
    split
    · exact ih _ _
    · exact ⟨rfl, rfl, rfl⟩

theorem Reporter.resume_beside (token : Token) (sh : Shared) (r : Reporter) :
    (r.resume env token sh).1.desk = sh.desk ∧ (r.resume env token sh).1.feeds = sh.feeds ∧
    (r.resume env token sh).1.runToken = sh.runToken := by
  unfold resume
  split
  · exact Reporter.windDown_beside env sh r _
  · split <;> exact ⟨rfl, rfl, rfl⟩

/-- A report is made beside everything that matters to an event. -/
theorem Work.resume_reporter {w : Work} (h : w.isReporter) (sh : Shared) (reply : Reply) :
    (w.resume env sh reply).1.desk = sh.desk ∧ (w.resume env sh reply).1.feeds = sh.feeds ∧
    (w.resume env sh reply).1.runToken = sh.runToken := by
  have hwrapped : ∀ t : Shared × Turn Reporter Unit,
      (t.1.desk = sh.desk ∧ t.1.feeds = sh.feeds ∧ t.1.runToken = sh.runToken) →
      (andThen t Work.reporter endReporter).1.desk = sh.desk ∧ (andThen t Work.reporter endReporter).1.feeds = sh.feeds ∧
        (andThen t Work.reporter endReporter).1.runToken = sh.runToken := by
    rintro ⟨sh', r | _⟩ ht
    · exact ht
    · exact ht
  unfold isReporter at h
  split at h
  · exact hwrapped _ (Reporter.resume_beside env sh.runToken sh _)
  · exact hwrapped _ (Reporter.resume_beside env sh.runToken sh _)
  · cases h

/-- The event that the listener has in hand. -/
def Listener.update? : Listener → Option HeadUpdate
  | .idle => none
  | .handling u => some u

namespace System

variable {s s₀ : System} {acts direct : List Action} {a : Action} {id : Nat} {reply : Reply}

/-! ## Along a run -/

/-- `P` holds of every action of the run where it is taken. -/
def Throughout (P : System → Action → Prop) (s : System) : List Action → Prop
  | [] => True
  | a :: acts => P s a ∧ Throughout P (act env s a) acts

theorem throughout_snoc {P : System → Action → Prop} (s : System) (acts : List Action) (a : Action) :
    Throughout env P s (acts ++ [a]) ↔ Throughout env P s acts ∧ P (run env s acts) a := by
  induction acts generalizing s with
  | nil => exact and_comm
  | cons b acts ih => rw [List.cons_append, Throughout, Throughout, ih, run_cons, and_assoc]

instance decidableThroughout {P : System → Action → Prop} [∀ s a, Decidable (P s a)] (s : System) (acts : List Action) :
    Decidable (Throughout env P s acts) :=
  match acts with
  | [] => inferInstanceAs (Decidable True)
  | a :: acts =>
    have : Decidable (Throughout env P (act env s a) acts) := decidableThroughout (act env s a) acts
    inferInstanceAs (Decidable (P s a ∧ Throughout env P (act env s a) acts))

/-- The calls that are answered in an action, with what is replied. -/
def answersOf (s : System) : Action → List (Call × Reply)
  | .turn id reply => ((s.pending? env id).map fun call => (call, reply)).toList
  | _ => []

/-- The calls that are answered in a run, with the replies, in order. -/
def answers (s : System) (acts : List Action) : List (Call × Reply) := along env (answersOf env) s acts

/-- What changes around the tasks in a run, in order. -/
def changes (acts : List Action) : List Change := acts.filterMap fun | .change c => some c | _ => none

/-- The task reports the metrics. -/
def reports (s : System) (id : Nat) : Bool := (s.work? id).any Work.isReporter

/-- Nothing goes on but the task, the metrics and the surroundings. -/
def LeavesTo (id : Nat) (s : System) : Action → Prop
  | .change _ => True
  | .turn task _ => task = id ∨ s.reports task
  | .request _ | .launch _ => False

/-- No other call is running than the task's. -/
def Undisturbed (id : Nat) (s : System) (acts : List Action) : Prop := Throughout env (LeavesTo id) s acts

/-- A request is made when those from the task `first` on are over, and no task before it has a turn. -/
def InTurn (first : Nat) (s : System) : Action → Prop
  | .change _ => True
  | .turn task _ => first ≤ task
  | .request _ => ∀ id, first ≤ id → s.work? id = none
  | .launch _ => False

/-- Requests are made one after another. -/
def OneAtATime (s : System) (acts : List Action) : Prop := Throughout env (InTurn s.tasks.length) s acts

instance (id : Nat) (s : System) (a : Action) : Decidable (LeavesTo id s a) := by
  cases a <;> unfold LeavesTo <;> infer_instance

instance (id : Nat) (s : System) (acts : List Action) : Decidable (Undisturbed env id s acts) :=
  decidableThroughout env s acts

/-! ## The direct run -/

theorem answers_snoc (s : System) (acts : List Action) (a : Action) :
    answers env s (acts ++ [a]) = answers env s acts ++ answersOf env (run env s acts) a := along_snoc env _ s acts a

theorem changes_snoc (acts : List Action) (a : Action) : changes (acts ++ [a]) = changes acts ++ changes [a] :=
  List.filterMap_append

/-- The turn of the last task, if it is not one that could launch the background run. -/
theorem turn_last {before : List Task} {w : Work} (h : s.tasks = before ++ [.active w]) (hk : w.kind ≠ .aside)
    (reply : Reply) :
    act env s (.turn before.length reply) =
      ⟨(w.resume env s.shared reply).1, before ++ [taskOf (w.resume env s.shared reply).2]⟩ := by
  have hw : s.work? before.length = some w := by simp [work?_eq_some, h]
  rw [turn_of_some env reply hw, launched_same ((Work.resume_effects env _ w reply).launched hk), List.append_nil, h,
    List.set_append_right _ _ (Nat.le_refl _), Nat.sub_self]
  rfl

variable {g : Guard} {t : Token} {notes : List Handling} {u : HeadUpdate} {inHand : Option HeadUpdate}

/-- The tasks that were asked to handle the events of `notes`, of which `inHand` is not over. -/
def handlers (g : Guard) (t : Token) (notes : List Handling) (inHand : Option HeadUpdate) : List Task :=
  (Handling.outcomes notes).map (fun o => .ended (.head o)) ++ (inHand.map fun u => .active (.head g t u)).toList

/-- A direct run from `s`: the events of `notes` were handed over one after another. -/
structure Direct (s : System) (g : Guard) (t : Token) (direct : List Action) (notes : List Handling)
    (inHand : Option HeadUpdate) : Prop where
  requests : System.requests direct = (Handling.events notes).map (.head g t)
  oneAtATime : OneAtATime env s direct
  tasks : (run env s direct).tasks = s.tasks ++ handlers g t notes inHand

variable {env}

theorem Direct.change (h : Direct env s g t direct notes inHand) (c : Change) :
    Direct env s g t (direct ++ [.change c]) notes inHand := by
  refine ⟨?_, (throughout_snoc env s direct _).2 ⟨h.oneAtATime, trivial⟩, ?_⟩
  · rw [requests_other direct (by simp), h.requests]
  · rw [run_snoc]
    exact h.tasks

theorem Direct.outcome (h : Direct env s g t direct notes inHand) {n : Nat} {o : HeadOutcome}
    (ho : (Handling.outcomes notes)[n]? = some o) : (run env s direct).outcome? (s.tasks.length + n) = some (.head o) := by
  have hlt := (List.getElem?_eq_some_iff.1 ho).1
  rw [outcome?, h.tasks, List.getElem?_append_right (Nat.le_add_right _ _), Nat.add_sub_cancel_left, handlers,
    List.getElem?_append_left (by simpa using hlt), List.getElem?_map, ho]
  rfl

/-- The event in hand has a turn. -/
theorem Direct.resume (h : Direct env s g t direct notes (some u)) (reply : Reply) :
    ∃ direct', changes direct' = changes direct ∧
      answers env s direct' = answers env s direct ++ ((u.waitsFor env t).call?.map fun call => (call, reply)).toList ∧
      (run env s direct').shared = (u.resume env g t (run env s direct).shared reply).1 ∧
      Yields (u.resume env g t (run env s direct).shared reply)
        (fun _ u' => Direct env s g t direct' notes (some u'))
        (fun _ o => Direct env s g t direct' (notes ++ [.returns o]) none) := by
  let before := s.tasks ++ (Handling.outcomes notes).map fun o => Task.ended (.head o)
  have htasks : (run env s direct).tasks = before ++ [.active (.head g t u)] := by
    rw [h.tasks, handlers, ← List.append_assoc]
    rfl
  have hturn := turn_last env htasks (by simp [Work.kind]) reply
  have hwork : (run env s direct).work? before.length = some (.head g t u) := by simp [work?_eq_some, htasks]
  have hapart : OneAtATime env s (direct ++ [.turn before.length reply]) :=
    (throughout_snoc env s direct _).2 ⟨h.oneAtATime, by simp [InTurn, before]⟩
  have hrequests : System.requests (direct ++ [.turn before.length reply]) = (Handling.events notes).map (.head g t) := by
    rw [requests_other direct (by simp), h.requests]
  refine ⟨direct ++ [.turn before.length reply], ?_, ?_, ?_, ?_⟩
  · rw [changes_snoc]
    exact List.append_nil _
  · rw [answers_snoc, answersOf, pending?_of_some env hwork]
    rfl
  · rw [run_snoc, hturn]
    exact andThen_view id _ _ fun _ _ => rfl
  · have hrun : (run env s (direct ++ [.turn before.length reply])).tasks =
        before ++ [taskOf ((Work.head g t u).resume env (run env s direct).shared reply).2] := by
      rw [run_snoc, hturn]
    rw [Work.resume] at hrun
    rcases hr : u.resume env g t (run env s direct).shared reply with ⟨sh', u' | o⟩
    · rw [hr] at hrun
      refine ⟨hrequests, hapart, ?_⟩
      rw [hrun, handlers, ← List.append_assoc]
      rfl
    · rw [hr] at hrun
      refine ⟨?_, hapart, ?_⟩
      · rw [hrequests, Handling.events_returns]
      · rw [hrun, handlers, Handling.outcomes_returns, List.map_append, ← List.append_assoc, ← List.append_assoc]
        exact (List.append_nil _).symm

theorem work?_of_ended {before ended : List Task} (h : s.tasks = before ++ ended) (ho : ∀ k ∈ ended, k.isEnded)
    (hid : before.length ≤ id) : s.work? id = none := by
  cases hw : s.work? id with
  | none => rfl
  | some w =>
    have htask := work?_eq_some.1 hw
    rw [h, List.getElem?_append_right hid] at htask
    exact absurd (ho _ (List.mem_of_getElem? htask)) Bool.false_ne_true

/-- With no event in hand another one is handed over. -/
theorem Direct.begins (h : Direct env s g t direct notes none) (event : HeadEvent) :
    ∃ direct', changes direct' = changes direct ∧ answers env s direct' = answers env s direct ∧
      (run env s direct').shared = (HeadUpdate.start env event (run env s direct).shared).1 ∧
      Yields (HeadUpdate.start env event (run env s direct).shared)
        (fun _ u => Direct env s g t direct' (notes ++ [.begins event]) (some u))
        (fun _ o => Direct env s g t direct' (notes ++ [.begins event] ++ [.returns o]) none) := by
  let before := s.tasks ++ (Handling.outcomes notes).map fun o => Task.ended (.head o)
  let asked := direct ++ [.request (.head g t event)]
  have hbefore : (run env s direct).tasks = before := h.tasks.trans (by simp [handlers, before])
  have htasks : (run env s asked).tasks = before ++ [.active (.asked (.head g t event))] := by
    rw [run_snoc, act, request, hbefore]
  have hshared : (run env s asked).shared = (run env s direct).shared := by rw [run_snoc]; rfl
  have hturn := turn_last env htasks (by simp [Work.kind, Request.kind]) .granted
  have hwork : (run env s asked).work? before.length = some (.asked (.head g t event)) := by
    simp [work?_eq_some, htasks]
  rw [hshared] at hturn
  have hover : ∀ id, s.tasks.length ≤ id → (run env s direct).work? id = none := fun id hid =>
    work?_of_ended (hbefore.trans rfl) (fun k hk => by obtain ⟨o, -, rfl⟩ := List.mem_map.1 hk; rfl) hid
  have hapart : OneAtATime env s (asked ++ [.turn before.length .granted]) := by
    refine (throughout_snoc env s asked _).2 ⟨?_, by simp [InTurn, before]⟩
    exact (throughout_snoc env s direct _).2 ⟨h.oneAtATime, hover⟩
  have hrequests : System.requests (asked ++ [.turn before.length .granted]) =
      (Handling.events (notes ++ [.begins event])).map (.head g t) := by
    rw [requests_other asked (by simp), requests_request, h.requests, Handling.events_begins, List.map_append]
    rfl
  refine ⟨asked ++ [.turn before.length .granted], ?_, ?_, ?_, ?_⟩
  · rw [changes_snoc, changes_snoc]
    simp [changes]
  · rw [answers_snoc, answers_snoc, answersOf, pending?_of_some env hwork]
    simp [answersOf, Work.waitsFor, Wait.call?]
  · rw [run_snoc, hturn]
    exact andThen_view id _ _ fun _ _ => rfl
  · have hrun : (run env s (asked ++ [.turn before.length .granted])).tasks =
        before ++ [taskOf ((Work.asked (.head g t event)).resume env (run env s direct).shared .granted).2] := by
      rw [run_snoc, hturn]
    rw [Work.resume, Work.start] at hrun
    rcases hr : HeadUpdate.start env event (run env s direct).shared with ⟨sh', u | o⟩
    · rw [hr] at hrun
      refine ⟨hrequests, hapart, ?_⟩
      rw [hrun, handlers, Handling.outcomes_begins, ← List.append_assoc]
      rfl
    · rw [hr] at hrun
      refine ⟨?_, hapart, ?_⟩
      · rw [hrequests, Handling.events_returns]
      · rw [hrun, handlers, Handling.outcomes_returns, Handling.outcomes_begins, List.map_append, ← List.append_assoc,
          ← List.append_assoc]
        exact (List.append_nil _).symm

/-- The event that a listener has in hand after a turn. -/
def heldAfter : Turn Listener ListenerExit → Option HeadUpdate
  | .waits l => l.update?
  | .ends _ => none

/-- The events that the listener takes in one go are handed over one after another. -/
theorem Direct.serve {sh : Shared} (h : Direct env s g t direct notes none) (hdesk : (run env s direct).shared.desk = sh.desk)
    (token : Token) (feed lag : Nat) (queue : List HeadEvent) :
    ∃ direct', changes direct' = changes direct ∧ answers env s direct' = answers env s direct ∧
      Direct env s g t direct' (notes ++ (Listener.serveNoting env token feed sh lag queue).1)
        (heldAfter (Listener.serveNoting env token feed sh lag queue).2.2) ∧
      (run env s direct').shared.desk = (Listener.serveNoting env token feed sh lag queue).2.1.desk := by
  induction queue generalizing sh lag direct notes with
  | nil =>
    refine ⟨direct, rfl, rfl, ?_⟩
    unfold Listener.serveNoting
    split
    · exact ⟨by rw [List.append_nil]; exact h, hdesk⟩
    · split <;> exact ⟨by rw [List.append_nil]; exact h, hdesk⟩
  | cons event rest ih =>
    unfold Listener.serveNoting
    split
    · exact ⟨direct, rfl, rfl, by rw [List.append_nil]; exact h, hdesk⟩
    · obtain ⟨direct', hchanges, hanswers, hshared, hbegins⟩ := h.begins event
      have halike := HeadUpdate.start_alike env (Shared.desk_updateFeed hdesk feed fun f => { f with queue := rest }) event
      rcases hr : HeadUpdate.start env event (sh.updateFeed feed fun f => { f with queue := rest }) with ⟨sh₁, u | o⟩
      · rcases hr' : HeadUpdate.start env event (run env s direct).shared with ⟨sh₁', turn⟩
        rw [hr, hr'] at halike
        cases halike.turn
        rw [hr'] at hshared hbegins
        exact ⟨direct', hchanges, hanswers, hbegins, by rw [hshared]; exact halike.view⟩
      · rcases hr' : HeadUpdate.start env event (run env s direct).shared with ⟨sh₁', turn⟩
        rw [hr, hr'] at halike
        cases halike.turn
        rw [hr'] at hshared hbegins
        have hdesk₁ : (run env s direct').shared.desk = sh₁.desk := by rw [hshared]; exact halike.view
        obtain ⟨direct'', hchanges', hanswers', hdirect, hdesk'⟩ := ih hbegins hdesk₁ (lag - 1)
        refine ⟨direct'', hchanges'.trans hchanges, hanswers'.trans hanswers, ?_, hdesk'⟩
        rw [List.append_assoc, List.append_assoc] at hdirect
        exact hdirect

/-- A turn of a listener, and what it comes to when its events are handed over directly. -/
theorem Direct.turn {sh : Shared} {l : Listener} (h : Direct env s g t direct notes l.update?)
    (hdesk : (run env s direct).shared.desk = sh.desk) (feed : Nat) (reply : Reply) :
    ∃ direct', changes direct' = changes direct ∧
      answers env s direct' =
        answers env s direct ++ ((l.waitsFor env t feed).call?.map fun call => (call, reply)).toList ∧
      Direct env s g t direct' (notes ++ (l.resumeNoting env g t feed sh reply).1)
        (heldAfter (l.resumeNoting env g t feed sh reply).2.2) ∧
      (run env s direct').shared.desk = (l.resumeNoting env g t feed sh reply).2.1.desk := by
  cases l with
  | idle =>
    obtain ⟨direct', hchanges, hanswers, hserved⟩ := h.serve hdesk t feed (env.lag sh) (sh.unread feed)
    exact ⟨direct', hchanges, hanswers.trans (List.append_nil _).symm, hserved⟩
  | handling u =>
    obtain ⟨direct', hchanges, hanswers, hshared, hresumed⟩ := h.resume reply
    have halike := u.resume_alike env hdesk.symm g t reply
    rcases hr : u.resume env g t (run env s direct).shared reply with ⟨sh₁', turn⟩
    rcases hr' : u.resume env g t sh reply with ⟨sh₁, turn'⟩
    rw [hr, hr'] at halike
    rw [hr] at hshared hresumed
    cases halike.turn
    have hdesk₁ : (run env s direct').shared.desk = sh₁.desk := by rw [hshared]; exact halike.view.symm
    simp only [Listener.resumeNoting, hr']
    cases turn with
    | waits u' => exact ⟨direct', hchanges, hanswers, by rw [List.append_nil]; exact hresumed, hdesk₁⟩
    | ends o =>
      obtain ⟨direct'', hchanges', hanswers', hdirect, hdesk'⟩ := Direct.serve hresumed hdesk₁ t feed (env.lag sh₁) (sh₁.unread feed)
      refine ⟨direct'', hchanges'.trans hchanges, hanswers'.trans hanswers, ?_, hdesk'⟩
      rw [List.append_assoc] at hdirect
      exact hdirect

/-! ## The listener's run and the direct run -/

theorem change_desk {sh sh' : Shared} (h : sh'.desk = sh.desk) (c : Change) :
    (c.apply env sh').desk = (c.apply env sh).desk := by
  have hsend := Shared.send_view Shared.desk fun _ _ _ => rfl
  have hdrop := Shared.dropSender_view Shared.desk fun _ _ _ => rfl
  cases c with
  | serve chain => exact congrArg (fun d : Desk => { d with chain }) h
  | cancel token => exact congrArg (fun d : Desk => { d with tokens := d.tokens.cancel token }) h
  | send event => exact (hsend sh' _ event).trans (h.trans (hsend sh _ event).symm)
  | endStream => exact (hdrop sh').trans (h.trans (hdrop sh).symm)
  | _ => exact h

theorem change_dealings (c : Change) (sh : Shared) : (c.apply env sh).dealings = sh.dealings := by
  cases c with
  | send event =>
    simp only [Change.apply, Shared.send]
    split <;> rfl
  | endStream =>
    simp only [Change.apply, Shared.dropSender]
    split <;> rfl
  | _ => rfl

/-- A direct run that keeps up with a run in which the task listens. -/
structure KeepsUp (env : Setup) (s : System) (b : Attendance) (acts direct : List Action) (inHand : Option HeadUpdate) :
    Prop where
  changes : changes direct = changes acts
  answers : answers env s direct = answers env s acts
  direct : Direct env s b.guard b.token direct (handlings env b.feed s acts) inHand

/-- While the task listens the two runs have one desk; once it has stopped, they have done the same. -/
inductive Mirrors (env : Setup) (s : System) (id : Nat) (b : Attendance) (acts direct : List Action) : Prop
  | listening (l : Listener) : (run env s acts).attends? id = some { b with listener := l } →
      KeepsUp env s b acts direct l.update? → (run env s direct).shared.desk = (run env s acts).shared.desk →
        Mirrors env s id b acts direct
  | stopped (o : Outcome) : (run env s acts).tasks[id]? = some (.ended o) → KeepsUp env s b acts direct none →
      (run env s direct).shared.dealings = (run env s acts).shared.dealings → Mirrors env s id b acts direct

variable {b : Attendance}

theorem KeepsUp.change (h : KeepsUp env s b acts direct inHand) (c : Change) :
    KeepsUp env s b (acts ++ [.change c]) (direct ++ [.change c]) inHand := by
  refine ⟨?_, ?_, ?_⟩
  · rw [changes_snoc, changes_snoc, h.changes]
  · rw [answers_snoc, answers_snoc, h.answers]
    rfl
  · have hsilent : notesOn env b.feed (run env s acts) (.change c) = [] := rfl
    rw [handlings_snoc, hsilent, List.append_nil]
    exact h.direct.change c

/-- A turn that is none of the listener's and in which nothing is answered. -/
theorem KeepsUp.beside (h : KeepsUp env s b acts direct inHand)
    (hreads : (run env s acts).reads b.feed id = false) (hpending : (run env s acts).pending? env id = none) :
    KeepsUp env s b (acts ++ [.turn id reply]) direct inHand := by
  refine ⟨?_, ?_, ?_⟩
  · rw [changes_snoc, h.changes]
    exact (List.append_nil _).symm
  · rw [answers_snoc, answersOf, hpending, h.answers]
    exact (List.append_nil _).symm
  · rw [handlings_snoc, notesOn, hreads, if_neg Bool.false_ne_true, List.append_nil]
    exact h.direct

theorem attends?_of_shared {s s' : System} (hw : s'.work? id = s.work? id) (hrun : s'.shared.runToken = s.shared.runToken) :
    s'.attends? id = s.attends? id := by
  rw [attends?, attends?, hw, hrun]

theorem Mirrors.change (h : Mirrors env s id b acts direct) (c : Change) :
    Mirrors env s id b (acts ++ [.change c]) (direct ++ [.change c]) := by
  have hrun : (run env s (acts ++ [.change c])).shared.runToken = (run env s acts).shared.runToken := by
    rw [run_snoc]
    exact congrArg (fun background : Background => background.handler.run) (change_background env c _)
  have hwork : (run env s (acts ++ [.change c])).work? id = (run env s acts).work? id := by rw [run_snoc]; rfl
  cases h with
  | listening l hl hkeeps hdesk =>
    refine .listening l ((attends?_of_shared hwork hrun).trans hl) (hkeeps.change c) ?_
    rw [run_snoc, run_snoc]
    exact change_desk hdesk c
  | stopped o hover hkeeps hdealings =>
    refine .stopped o (by rw [run_snoc]; exact hover) (hkeeps.change c) ?_
    rw [run_snoc, run_snoc]
    exact (change_dealings c _).trans (hdealings.trans (change_dealings c _).symm)

/-- The reporter has a turn. -/
theorem Mirrors.report (h : Mirrors env s id b acts direct) {task : Nat} (hr : (run env s acts).reports task) (reply : Reply) :
    Mirrors env s id b (acts ++ [.turn task reply]) direct := by
  obtain ⟨w, hw, hreporter⟩ := Option.any_eq_true .. |>.1 hr
  obtain ⟨hdesk, -, hrun⟩ := w.resume_reporter env hreporter (run env s acts).shared reply
  have hshared := shared_turn env reply hw
  rw [← hshared] at hdesk hrun
  have hreads : (run env s acts).reads b.feed task = false := by
    rw [reads, attends?, hw, Option.bind_some]
    unfold Work.isReporter at hreporter
    split at hreporter
    · rfl
    · rfl
    · cases hreporter
  have hpending : (run env s acts).pending? env task = none := by
    rw [pending?_of_some env hw]
    unfold Work.isReporter at hreporter
    split at hreporter
    · rfl
    · rfl
    · cases hreporter
  cases h with
  | listening l hl hkeeps hsame =>
    obtain ⟨v, hv, hattends⟩ := attends?_eq_some.1 hl
    have hne : ∀ reply', Action.turn task reply ≠ .turn id reply' := fun _ he => by
      cases he
      rw [reads, hl] at hreads
      simp at hreads
    refine .listening l ?_ (hkeeps.beside hreads hpending) ?_
    · rw [run_snoc, attends?, work?_kept env hv hne, hrun]
      exact hattends
    · rw [run_snoc, hdesk, hsame]
  | stopped o hover hkeeps hsame =>
    refine .stopped o ?_ (hkeeps.beside hreads hpending) ?_
    · have hne : ∀ reply', Action.turn task reply ≠ .turn id reply' := fun _ he => by
        cases he
        rw [work?_eq_some, hover] at hw
        cases hw
      rw [run_snoc, tasks_kept env (List.getElem?_eq_some_iff.1 hover).1 hne, hover]
    · rw [run_snoc]
      exact hsame.trans (Shared.dealings_of_desk hdesk).symm

/-- The listener has a turn. -/
theorem Mirrors.turn (h : Mirrors env s id b acts direct) (reply : Reply) :
    ∃ direct', Mirrors env s id b (acts ++ [.turn id reply]) direct' := by
  cases h with
  | stopped o hover hkeeps hsame =>
    have hnone : (run env s acts).work? id = none := by simp [work?, hover]
    have hsilent : (run env s acts).reads b.feed id = false := by rw [reads, attends?, hnone]; rfl
    refine ⟨direct, .stopped o ?_ (hkeeps.beside hsilent (pending?_of_none env hnone)) ?_⟩
    · rw [run_snoc, turn_of_none env reply hnone, hover]
    · rw [run_snoc, turn_of_none env reply hnone, hsame]
  | listening l hl hkeeps hsame =>
    obtain ⟨w, hw, hattends⟩ := attends?_eq_some.1 hl
    obtain ⟨wrap, next, he, hwrap, hnext⟩ := Work.resume_attending env hattends reply
    obtain ⟨direct', hchanges, hanswers, hdirect, hdesk⟩ :=
      hkeeps.direct.turn (hsame.trans (Work.announced_desk _ w).symm) b.feed reply
    have hreads : (run env s acts).reads b.feed id := reads_iff.2 ⟨_, hl, rfl⟩
    have hkeeps' : KeepsUp env s b (acts ++ [.turn id reply]) direct' (heldAfter
        (l.resume env b.guard b.token b.feed (w.announced (run env s acts).shared) reply).2) := by
      refine ⟨?_, ?_, ?_⟩
      · rw [changes_snoc, hchanges, hkeeps.changes]
        exact (List.append_nil _).symm
      · rw [answers_snoc, hanswers, hkeeps.answers, answersOf, pending?_of_some env hw, Work.waitsFor_attending env hattends]
      · rw [← Listener.resumeNoting_resume, handlings_snoc, notesOn, hreads, if_pos rfl, System.notes, hw,
          Option.map_some, Option.getD_some, Work.notes, hattends]
        exact hdirect
    rw [Listener.resumeNoting_resume] at hdesk
    have hshared := shared_turn env reply hw
    have htask := task_turn env reply hw
    have hsignals := l.resume_signals env b.guard b.token b.feed (w.announced (run env s acts).shared) reply
    rw [he] at hshared htask
    rcases hr : l.resume env b.guard b.token b.feed (w.announced (run env s acts).shared) reply with ⟨sh', l' | exit⟩
    · rw [hr] at hshared htask hkeeps' hdesk hsignals
      refine ⟨direct', .listening l' ?_ hkeeps' ?_⟩
      · have hannounced : (w.announced (run env s acts).shared).runToken = (run env s acts).shared.runToken := by
          unfold Work.announced
          split <;> rfl
        have hrun : sh'.runToken = (run env s acts).shared.runToken :=
          (congrArg (fun signals : Tokens × Background => signals.2.handler.run) hsignals).trans hannounced
        refine attends?_eq_some.2 ⟨wrap l', ?_, ?_⟩
        · rw [run_snoc]
          exact work?_eq_some.2 htask
        · rw [run_snoc, hshared, show (andThen (sh', Turn.waits l') wrap next).1 = sh' from rfl, hrun]
          exact hwrap l'
      · rw [run_snoc, hshared]
        exact hdesk
    · rw [hr] at hshared htask hkeeps' hdesk
      obtain ⟨sh'', o, hn, -, hdealings⟩ := hnext sh' exit
      have hover : andThen (sh', Turn.ends exit) wrap next = (sh'', .ends o) := hn
      rw [hover] at hshared htask
      refine ⟨direct', .stopped o (by rw [run_snoc]; exact htask) hkeeps' ?_⟩
      rw [run_snoc, hshared]
      exact (Shared.dealings_of_desk hdesk).trans hdealings.symm

theorem mirrors_run (hb : s.attends? id = some b) (hidle : b.listener = .idle) (h : Undisturbed env id s acts) :
    ∃ direct, Mirrors env s id b acts direct := by
  induction acts using List.reverseRecOn with
  | nil =>
    refine ⟨[], .listening .idle ?_ ⟨rfl, rfl, rfl, trivial, ?_⟩ rfl⟩
    · rw [run_nil, hb, ← hidle]
    · exact (List.append_nil _).symm
  | append_singleton acts a ih =>
    obtain ⟨hbefore, ha⟩ := (throughout_snoc env s acts a).1 h
    obtain ⟨direct, hmirrors⟩ := ih hbefore
    cases a with
    | request r => exact ha.elim
    | launch root => exact ha.elim
    | change c => exact ⟨_, hmirrors.change c⟩
    | turn task reply =>
      rcases ha with rfl | hr
      · exact hmirrors.turn reply
      · exact ⟨direct, hmirrors.report hr reply⟩

/-! ## The listener -/

/-- The listener's part of the run `since` from `s`, taken apart into requests. -/
structure HandedOver (env : Setup) (s : System) (b : Attendance) (since direct : List Action) : Prop where
  /-- Each event that the listener took is handed over by a request of its own, in the order taken. -/
  requests : requests direct = (Handling.events (handlings env b.feed s since)).map (.head b.guard b.token)
  /-- Each when the one before it is over, and the listener has no turn. -/
  oneAtATime : OneAtATime env s direct
  /-- The requests come to what the handlings came to. -/
  outcomes : ∀ n o, (Handling.outcomes (handlings env b.feed s since))[n]? = some o →
    (run env s direct).outcome? (s.tasks.length + n) = some (.head o)
  /-- The same happens around them. -/
  changes : changes direct = changes since
  /-- The same calls are answered in the same way. -/
  answers : answers env s direct = answers env s since
  /-- The same calls are made, and the same is stored and counted. -/
  dealings : (run env s direct).shared.dealings = (run env s since).shared.dealings

theorem Mirrors.handedOver (h : Mirrors env s id b acts direct) : HandedOver env s b acts direct := by
  cases h with
  | listening l _ hkeeps hdesk =>
    exact ⟨hkeeps.direct.requests, hkeeps.direct.oneAtATime, fun _ _ => hkeeps.direct.outcome, hkeeps.changes,
      hkeeps.answers, Shared.dealings_of_desk hdesk⟩
  | stopped _ _ hkeeps hdealings =>
    exact ⟨hkeeps.direct.requests, hkeeps.direct.oneAtATime, fun _ _ => hkeeps.direct.outcome, hkeeps.changes,
      hkeeps.answers, hdealings⟩

variable (env)

/-- The events of a stream are handled one after another, in the order sent, none twice and none
    left out; what comes of one does not keep the listener from the next. While nothing else goes
    on, listening is handing over the events one after another. -/
theorem listener_in_turn (hs : s₀.Idle) (feed : Nat) (acts : List Action) (hone : OneReader s₀ feed acts) :
    let s := run env s₀ acts
    let notes := handlings env feed s₀ acts
    (∃ done last, notes = history done last ∧
      (last.isSome ↔ ∃ id b, s.attends? id = some b ∧ b.feed = feed ∧ b.listener.isHandling)) ∧
    Handling.events notes <+: offered env feed s₀ acts ∧
    ∀ id b, s.attends? id = some b → b.feed = feed →
      Handling.events notes ++ s.shared.unread feed = offered env feed s₀ acts ∧
      (∀ reply, (run env s₀ (acts ++ [.turn id reply])).work? id = none →
        s.shared.isCancelled b.token ∨
          (s.shared.feed feed).senderOpen = false ∧
            Handling.events (handlings env feed s₀ (acts ++ [.turn id reply])) = offered env feed s₀ acts) ∧
      (b.listener = .idle → ∀ since, Undisturbed env id s since → ∃ direct, HandedOver env s b since direct) := by
  dsimp only
  have hcourse : StreamCourse env s₀ feed acts := streamCourse_run hs hone
  refine ⟨hcourse.oneAfterAnother, hcourse.inOrder, fun id b hb hfeed => ⟨hcourse.events_unread hb hfeed, ?_, ?_⟩⟩
  · intro reply hover
    exact hcourse.stops hb hfeed hover
  · intro hidle since hsince
    obtain ⟨direct, hmirrors⟩ := mirrors_run hb hidle hsince
    exact ⟨direct, hmirrors.handedOver⟩

/-- The background run has caught up with epoch 0 and waits for the first event. -/
def listeningAtZero : List Action := .launch (.root 0) :: List.replicate 7 (.turn 1 .granted)

/-- One event within epoch 0, and one of epoch 1 whose record cannot be read. -/
def twoEvents : List Action :=
  [.change (.send ⟨1, false⟩), .change (.send ⟨4, true⟩), .turn 1 .granted, .turn 1 (.failed (.reported ["busy"]))]

theorem listener_in_turn_two_events :
    let s₀ := opened [] (fun _ => []) [0]
    Handling.events (handlings .plain 0 s₀ (listeningAtZero ++ twoEvents)) = [⟨1, false⟩, ⟨4, true⟩] ∧
    Handling.events (handlings .plain 0 s₀ (listeningAtZero ++ twoEvents)) <+:
      offered .plain 0 s₀ (listeningAtZero ++ twoEvents) ∧
    ∃ b direct, HandedOver .plain (run .plain s₀ listeningAtZero) b twoEvents direct := by
  dsimp only
  have hs := opened_idle [] (fun _ => []) [0]
  obtain ⟨-, hprefix, -⟩ := listener_in_turn .plain hs 0 (listeningAtZero ++ twoEvents) (by decide)
  obtain ⟨-, -, hreader⟩ := listener_in_turn .plain hs 0 listeningAtZero (by decide)
  obtain ⟨-, -, hdirect⟩ := hreader 1 ⟨.service, .child 0, 0, .idle⟩ (by decide +kernel) rfl
  exact ⟨by decide +kernel, hprefix, _, hdirect rfl twoEvents (by decide +kernel)⟩

end System

end CommitteeSync
