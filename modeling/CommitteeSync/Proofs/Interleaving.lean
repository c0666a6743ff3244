/-
  CommitteeSync.Proofs.Interleaving — runs of the synchronizer in any interleaving.

  A run is a list of actions: a request is made, the background run is launched, a task has
  a turn with whatever reply its collaborator gives, or something changes around the tasks
  (the clock, the chain, a token, the time, the head stream). The order is free, any call may
  fail, and a task may even get a turn when nothing is there for it, after which it waits
  again. A store record is written by no action but the turn of a task.

  Tasks fall into kinds, and no turn changes a task's kind (`Work.resume_kind`), so a limit
  on the requests of a run is a limit on its tasks (`kinds_run`).
-/

import CommitteeSync.Proofs.OpenWrite
import CommitteeSync.Sync.System
import Mathlib.Data.List.Induction

namespace CommitteeSync

open Turn

variable (env : Setup)

/-- Four slots an epoch, the record under `progress`, no override, and a cancelled token before all else. -/
def Setup.plain : Setup := ⟨⟨4, by decide⟩, "progress", none, Span.ofSeconds 1, 8, fun _ => 0⟩

/-! ## Actions -/

/-- What may change around the tasks. -/
inductive Change where
  | setClock (readings : List Epoch)
  | serve (chain : Slot → List Assignment)
  | cancel (token : Token)
  | advance (milliseconds : Nat)
  | send (event : HeadEvent)
  | endStream
  | interrupt

def Change.apply (sh : Shared) : Change → Shared
  | .setClock readings => { sh with clock := readings }
  | .serve chain => { sh with chain }
  | .cancel token => sh.cancel token
  | .advance milliseconds => { sh with now := sh.now + milliseconds }
  | .send event => (sh.send env.capacity event).1
  | .endStream => sh.dropSender
  | .interrupt => { sh with interrupt := true }

inductive Action where
  | request (r : Request)
  | launch (root : Token)
  /-- A turn of a task, with the reply to the call it waits for if it waits for one. -/
  | turn (task : Nat) (reply : Reply)
  | change (c : Change)

namespace System

def act (s : System) : Action → System
  | .request r => s.request r
  | .launch root => if s.shared.background.launched then s else s.launch root
  | .turn task reply => s.resume env task reply
  | .change c => { s with shared := c.apply env s.shared }

/-- A run of actions, one after another. -/
def run (s : System) (acts : List Action) : System := acts.foldl (act env) s

@[simp] theorem run_nil (s : System) : run env s [] = s := rfl

@[simp] theorem run_snoc (s : System) (acts : List Action) (a : Action) :
    run env s (acts ++ [a]) = act env (run env s acts) a := by
  simp [run]

/-- A synchronizer before its first request: nothing asked for, nothing logged. -/
structure Idle (s : System) : Prop where
  noTask : s.tasks = []
  noEvent : s.shared.events = #[]

theorem Idle.work? {s : System} (h : Idle s) (id : Nat) : s.work? id = none := by
  simp [System.work?, h.noTask]

theorem Idle.log {s : System} (h : Idle s) : s.shared.commitLog = [] := by
  simp [Shared.commitLog, h.noEvent]

theorem work?_eq_some {s : System} {id : Nat} {w : Work} : s.work? id = some w ↔ s.tasks[id]? = some (.active w) := by
  unfold work?
  split <;> simp_all

theorem outcome?_eq_some {s : System} {id : Nat} {o : Outcome} : s.outcome? id = some o ↔ s.tasks[id]? = some (.ended o) := by
  unfold outcome?
  split <;> simp_all

theorem work?_of_outcome? {s : System} {id : Nat} {o : Outcome} (h : s.outcome? id = some o) : s.work? id = none := by
  rw [work?, outcome?_eq_some.1 h]

theorem taskOf_eq_active {t : Turn Work Outcome} {w : Work} : taskOf t = .active w ↔ t = .waits w := by
  cases t <;> simp [taskOf]

theorem launched_eq_active {before after : Shared} {w : Work} (h : Task.active w ∈ launched before after) :
    w = .asked .reporter ∨ w = .asked .startup := by
  unfold launched at h
  split at h <;> simp_all

/-- Where the tasks after an action come from. -/
inductive Came (s : System) (a : Action) (id : Nat) (w' : Work) : Prop
  /-- From a turn of its own. -/
  | turn (reply : Reply) (w : Work) : a = .turn id reply → s.work? id = some w →
      w.resume env s.shared reply = ((act env s a).shared, .waits w') → Came s a id w'
  | kept : (∀ reply, a ≠ .turn id reply) → s.work? id = some w' → Came s a id w'
  | asked (r : Request) : a = .request r ∨ r = .reporter ∨ r = .startup → w' = .asked r → Came s a id w'

theorem turn_of_some {s : System} {id : Nat} {w : Work} (reply : Reply) (hw : s.work? id = some w) :
    act env s (.turn id reply) = ⟨(w.resume env s.shared reply).1,
      s.tasks.set id (taskOf (w.resume env s.shared reply).2) ++ launched s.shared (w.resume env s.shared reply).1⟩ := by
  simp only [act, resume, hw]

theorem shared_turn {s : System} {id : Nat} {w : Work} (reply : Reply) (hw : s.work? id = some w) :
    (act env s (.turn id reply)).shared = (w.resume env s.shared reply).1 := by
  rw [turn_of_some env reply hw]

/-- The task whose turn it was is where the turn left it. -/
theorem task_turn {s : System} {id : Nat} {w : Work} (reply : Reply) (hw : s.work? id = some w) :
    (act env s (.turn id reply)).tasks[id]? = some (taskOf (w.resume env s.shared reply).2) := by
  have hlt : id < s.tasks.length := (List.getElem?_eq_some_iff.1 (work?_eq_some.1 hw)).1
  rw [turn_of_some env reply hw, List.getElem?_append_left (by simpa using hlt), List.getElem?_set_self hlt]

theorem work?_turn {s : System} {id : Nat} {w : Work} (reply : Reply) (hw : s.work? id = some w) :
    (act env s (.turn id reply)).work? id =
      match (w.resume env s.shared reply).2 with
      | .waits w' => some w'
      | .ends _ => none := by
  rw [System.work?, task_turn env reply hw]
  cases (w.resume env s.shared reply).2 <;> rfl

theorem turn_of_none {s : System} {id : Nat} (reply : Reply) (hw : s.work? id = none) :
    act env s (.turn id reply) = s := by
  simp only [act, resume, hw]

/-- A task that waits after its turn was there before. -/
theorem work?_turn_eq_some {s : System} {id : Nat} {reply : Reply} {w' : Work}
    (h : (act env s (.turn id reply)).work? id = some w') :
    ∃ w, s.work? id = some w ∧ w.resume env s.shared reply = ((act env s (.turn id reply)).shared, .waits w') := by
  cases hw : s.work? id with
  | none =>
    rw [turn_of_none env reply hw, hw] at h
    cases h
  | some w =>
    rw [work?_turn env reply hw] at h
    rw [shared_turn env reply hw]
    rcases hr : w.resume env s.shared reply with ⟨sh', w'' | o⟩
    · rw [hr] at h
      cases h
      exact ⟨w, rfl, hr⟩
    · rw [hr] at h
      cases h

theorem came_resume {s : System} {task : Nat} {reply : Reply} {id : Nat} {w' : Work}
    (h : (s.resume env task reply).work? id = some w') : Came env s (.turn task reply) id w' := by
  cases hw : s.work? task with
  | none =>
    have he : s.resume env task reply = s := turn_of_none env reply hw
    rw [he] at h
    refine .kept (fun r hr => ?_) h
    cases hr
    rw [hw] at h; cases h
  | some w =>
    have he : s.resume env task reply = _ := turn_of_some env reply hw
    rw [he, work?_eq_some, List.getElem?_append] at h
    split at h
    · rename_i hlt
      by_cases hid : task = id
      · subst hid
        rw [List.getElem?_set_self (by simpa using hlt), Option.some.injEq, taskOf_eq_active] at h
        refine .turn reply w rfl hw ?_
        simp only [act, he, ← h]
      · rw [List.getElem?_set_ne hid] at h
        exact .kept (fun r hr => hid (by cases hr; rfl)) (work?_eq_some.2 h)
    · rcases launched_eq_active (List.mem_of_getElem? h) with rfl | rfl
      · exact .asked .reporter (Or.inr (Or.inl rfl)) rfl
      · exact .asked .startup (Or.inr (Or.inr rfl)) rfl

theorem came {s : System} {a : Action} {id : Nat} {w' : Work} (h : (act env s a).work? id = some w') :
    Came env s a id w' := by
  cases a with
  | request r =>
    simp only [act, request, work?_eq_some, List.getElem?_append] at h
    split at h
    · exact .kept (fun _ hr => nomatch hr) (work?_eq_some.2 h)
    · have := List.mem_of_getElem? h
      simp only [List.mem_singleton, Task.active.injEq] at this
      exact .asked r (Or.inl rfl) this
  | launch root =>
    simp only [act] at h
    split at h
    · exact .kept (fun _ hr => nomatch hr) h
    · simp only [launch, work?_eq_some, List.getElem?_append] at h
      split at h
      · exact .kept (fun _ hr => nomatch hr) (work?_eq_some.2 h)
      · rcases launched_eq_active (List.mem_of_getElem? h) with rfl | rfl
        · exact .asked .reporter (Or.inr (Or.inl rfl)) rfl
        · exact .asked .startup (Or.inr (Or.inr rfl)) rfl
  | turn task reply => exact came_resume env h
  | change c => exact .kept (fun _ hr => nomatch hr) h

/-- A task stays as it is until it has a turn. -/
theorem tasks_kept {s : System} {a : Action} {id : Nat} (hlt : id < s.tasks.length) (ha : ∀ reply, a ≠ .turn id reply) :
    (act env s a).tasks[id]? = s.tasks[id]? := by
  cases a with
  | request r => exact List.getElem?_append_left hlt
  | launch root =>
    simp only [act]
    split
    · rfl
    · exact List.getElem?_append_left hlt
  | turn task reply =>
    have hne : task ≠ id := fun he => ha reply (he ▸ rfl)
    cases hw : s.work? task with
    | none => rw [turn_of_none env reply hw]
    | some w =>
      rw [turn_of_some env reply hw, List.getElem?_append_left (by simpa using hlt), List.getElem?_set_ne hne]
  | change c => rfl

theorem work?_kept {s : System} {a : Action} {id : Nat} {w : Work} (hw : s.work? id = some w) (ha : ∀ reply, a ≠ .turn id reply) :
    (act env s a).work? id = some w := by
  rw [work?_eq_some] at hw ⊢
  rw [tasks_kept env (List.getElem?_eq_some_iff.1 hw).1 ha, hw]

theorem length_act (s : System) (a : Action) : s.tasks.length ≤ (act env s a).tasks.length := by
  cases a with
  | request r => simp [act, request]
  | launch root =>
    simp only [act]
    split
    · exact Nat.le_refl _
    · simp [launch]
  | turn id reply =>
    cases hw : s.work? id with
    | none => simp [turn_of_none env reply hw]
    | some w => simp [turn_of_some env reply hw]
  | change c => exact Nat.le_refl _

/-- The task whose turn it was has come to what the turn came to. -/
theorem outcome?_turn {s : System} {id : Nat} {w : Work} (reply : Reply) (hw : s.work? id = some w) :
    (act env s (.turn id reply)).outcome? id =
      match (w.resume env s.shared reply).2 with
      | .waits _ => none
      | .ends o => some o := by
  rw [outcome?, task_turn env reply hw]
  cases (w.resume env s.shared reply).2 <;> rfl

/-- A synchronizer before its first request, on a store without committees. -/
def opened (metadata : List (String × Bytes)) (chain : Slot → List Assignment) (clock : List Epoch) : System where
  tasks := []
  shared :=
    { store := ⟨metadata, [], 0, 0, 0⟩
      chain, clock
      telemetry := Telemetry.zero
      serviceGate := Gate.free
      partsGate := Gate.free
      tokens := Tokens.none
      background := Background.absent
      feeds := []
      current := none
      now := 0
      interrupt := false
      trace := #[]
      events := #[]
      metrics := #[] }

theorem opened_idle (metadata : List (String × Bytes)) (chain : Slot → List Assignment) (clock : List Epoch) :
    (opened metadata chain clock).Idle := ⟨rfl, rfl⟩

/-- Two head events on an empty store: epoch 0, and then epoch 2, before which epoch 1 is missing. -/
def twoHeads : List Action :=
  .request (.head .service (.root 0) ⟨0, true⟩) :: List.replicate 6 (.turn 0 .granted) ++
  .request (.head .service (.root 0) ⟨8, true⟩) :: List.replicate 14 (.turn 1 .granted)

/-! ## Kinds and commits along a run -/

/-- A run in which only requests of these kinds are made. -/
def Only (kinds : Kind → Bool) (acts : List Action) : Prop := ∀ r, .request r ∈ acts → kinds r.kind

theorem only_iff {kinds : Kind → Bool} {acts : List Action} :
    Only kinds acts ↔ acts.all fun | .request r => kinds r.kind | _ => true := by
  rw [List.all_eq_true]
  constructor
  · intro h a ha
    cases a with
    | request r => exact h r ha
    | _ => rfl
  · exact fun h r hr => h _ hr

instance (kinds : Kind → Bool) (acts : List Action) : Decidable (Only kinds acts) := decidable_of_iff _ only_iff.symm

theorem Only.of_snoc {kinds : Kind → Bool} {acts : List Action} {a : Action} (h : Only kinds (acts ++ [a])) :
    Only kinds acts := fun r hr => h r (List.mem_append_left _ hr)

theorem Only.last {kinds : Kind → Bool} {acts : List Action} {a : Action} (h : Only kinds (acts ++ [a])) (r : Request)
    (hr : a = .request r) : kinds r.kind := h r (List.mem_append_right _ (List.mem_singleton.2 hr.symm))

/-- A run that asks for no startup asks for none with its last action. -/
theorem Only.last_ne_startup {acts : List Action} {a : Action} (h : Only (fun k => k ≠ .startup) (acts ++ [a]))
    (r : Request) (hr : a = .request r) : r.kind ≠ .startup := of_decide_eq_true (h.last r hr)

theorem Only.of_append_left {kinds : Kind → Bool} {part rest : List Action} (h : Only kinds (part ++ rest)) :
    Only kinds part := fun r hr => h r (List.mem_append_left _ hr)

theorem Only.of_append_right {kinds : Kind → Bool} {part rest : List Action} (h : Only kinds (part ++ rest)) :
    Only kinds rest := fun r hr => h r (List.mem_append_right _ hr)

theorem Only.mono {kinds kinds' : Kind → Bool} {acts : List Action} (h : Only kinds acts) (hk : ∀ k, kinds k → kinds' k) :
    Only kinds' acts := fun r hr => hk r.kind (h r hr)

theorem kinds_run {kinds : Kind → Bool} (hb : kinds .startup ∧ kinds .aside) {s : System} (hs : s.Idle)
    {acts : List Action} (h : Only kinds acts) {id : Nat} {w : Work} (hw : (run env s acts).work? id = some w) :
    kinds w.kind := by
  induction acts using List.reverseRecOn generalizing id w with
  | nil => rw [run_nil, hs.work?] at hw; cases hw
  | append_singleton acts a ih =>
    rw [run_snoc] at hw
    cases came env hw with
    | turn reply w₀ _ hw₀ hr =>
      have hk := Work.resume_kind env (run env s acts).shared w₀ reply
      rw [hr] at hk
      rw [show w.kind = w₀.kind from hk]
      exact ih h.of_snoc hw₀
    | kept _ hw₀ => exact ih h.of_snoc hw₀
    | asked r hr hw =>
      subst hw
      rcases hr with rfl | rfl | rfl
      · exact h.last r rfl
      · exact hb.2
      · exact hb.1

/-- The write that a task has open, and its epoch. -/
def write? (s : System) (id : Nat) : Option (Epoch × EpochWrite) := (s.work? id).bind Work.write?

/-- What an action commits. -/
def commits? (s : System) : Action → Option (Epoch × Transaction)
  | .turn id reply => commitOf (s.write? id) reply
  | _ => none

theorem commits?_eq_some {s : System} {a : Action} {epoch : Epoch} {tx : Transaction} :
    s.commits? a = some (epoch, tx) ↔
      ∃ id written, a = .turn id .granted ∧ s.write? id = some (epoch, .committing tx written) := by
  cases a with
  | turn id reply =>
    simp only [commits?, commitOf_eq_some, Action.turn.injEq]
    constructor
    · rintro ⟨rfl, written, h⟩; exact ⟨id, written, ⟨rfl, rfl⟩, h⟩
    · rintro ⟨_, written, ⟨rfl, rfl⟩, h⟩; exact ⟨rfl, written, h⟩
  | _ => simp [commits?]

theorem change_ledger (c : Change) (sh : Shared) : (c.apply env sh).ledger = sh.ledger := by
  cases c with
  | send event => exact Shared.ledger_send sh _ event
  | endStream => exact Shared.ledger_dropSender sh
  | _ => rfl

theorem act_ledger {s : System} (h : ∀ id w, s.work? id = some w → w.kind ≠ .stage) (a : Action) :
    (act env s a).shared.ledger = s.shared.ledger.after (s.commits? a) := by
  cases a with
  | request r => rfl
  | launch root => simp only [act]; split <;> rfl
  | turn id reply =>
    simp only [act, resume]
    split
    · rename_i hw; simp [commits?, write?, hw, commitOf]
    · rename_i w hw
      have hl := Work.resume_ledger env s.shared w reply (h id w hw)
      simpa [commits?, write?, hw] using hl
  | change c => exact change_ledger env c s.shared

end System

end CommitteeSync
