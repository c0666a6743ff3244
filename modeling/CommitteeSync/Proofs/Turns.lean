/-
  CommitteeSync.Proofs.Turns — how a statement about a turn is put together from statements
  about its parts, and what the operations on the shared state leave alone.

  A statement about a turn has two halves: one about the state it waits in, one about its
  result (`Turn.Yields`). A turn that is part of a larger task hands the first half on as it
  is and goes on from the second (`yields_andThen`). A listener may take many events in one
  turn; what one of them keeps, all of them keep (`Listener.serve_yields`).

  Two views of the shared state carry most arguments: the ledger, which is what has been
  committed and in which order, and the surroundings, which no write of an epoch touches.
-/

import CommitteeSync.Sync.CatchUp
import CommitteeSync.Sync.Startup

namespace CommitteeSync

/-! ## Turns -/

namespace Turn

variable {σ ρ σ' ρ' : Type}

/-- `waits` holds where the turn ended in a wait, `ends` where it ended in a result. -/
def Yields (t : Shared × Turn σ ρ) (waits : Shared → σ → Prop) (ends : Shared → ρ → Prop) : Prop :=
  match t with
  | (sh, .waits s) => waits sh s
  | (sh, .ends r) => ends sh r

@[simp] theorem yields_waits (sh : Shared) (s : σ) (W : Shared → σ → Prop) (E : Shared → ρ → Prop) :
    Yields (sh, .waits s) W E ↔ W sh s := Iff.rfl

@[simp] theorem yields_ends (sh : Shared) (r : ρ) (W : Shared → σ → Prop) (E : Shared → ρ → Prop) :
    Yields (sh, .ends r) W E ↔ E sh r := Iff.rfl

@[simp] theorem yields_andThen (t : Shared × Turn σ ρ) (wrap : σ → σ') (next : Shared → ρ → Shared × Turn σ' ρ')
    (W : Shared → σ' → Prop) (E : Shared → ρ' → Prop) :
    Yields (andThen t wrap next) W E ↔ Yields t (fun sh s => W sh (wrap s)) (fun sh r => Yields (next sh r) W E) := by
  obtain ⟨sh, s | r⟩ := t <;> rfl

theorem Yields.mono {t : Shared × Turn σ ρ} {W W' : Shared → σ → Prop} {E E' : Shared → ρ → Prop}
    (h : Yields t W E) (hw : ∀ sh s, W sh s → W' sh s) (he : ∀ sh r, E sh r → E' sh r) : Yields t W' E' := by
  obtain ⟨sh, s | r⟩ := t
  · exact hw sh s h
  · exact he sh r h

theorem Yields.mono_ends {t : Shared × Turn σ ρ} {W : Shared → σ → Prop} {E E' : Shared → ρ → Prop}
    (h : Yields t W E) (he : ∀ sh r, E sh r → E' sh r) : Yields t W E' := h.mono (fun _ _ hw => hw) he

theorem Yields.never_waits {t : Shared × Turn σ ρ} {W : Shared → σ → Prop}
    (h : Yields t (fun _ _ => False) (fun _ _ => True)) : Yields t W (fun _ _ => True) :=
  h.mono (fun _ _ hw => hw.elim) fun _ _ he => he

theorem Yields.and {t : Shared × Turn σ ρ} {W W' : Shared → σ → Prop} {E E' : Shared → ρ → Prop}
    (h : Yields t W E) (h' : Yields t W' E') :
    Yields t (fun sh s => W sh s ∧ W' sh s) (fun sh r => E sh r ∧ E' sh r) := by
  obtain ⟨sh, s | r⟩ := t <;> exact ⟨h, h'⟩

/-- A statement about the shared state alone holds of both halves. -/
theorem yields_of_fst {t : Shared × Turn σ ρ} {P : Shared → Prop} (h : P t.1) :
    Yields t (fun sh _ => P sh) (fun sh _ => P sh) := by
  obtain ⟨sh, s | r⟩ := t <;> exact h

theorem Yields.fst {t : Shared × Turn σ ρ} {P : Shared → Prop} (h : Yields t (fun sh _ => P sh) (fun sh _ => P sh)) :
    P t.1 := by
  obtain ⟨sh, s | r⟩ := t <;> exact h

theorem yields_of_forall (t : Shared × Turn σ ρ) {W : Shared → σ → Prop} {E : Shared → ρ → Prop}
    (hw : ∀ sh s, W sh s) (he : ∀ sh r, E sh r) : Yields t W E := by
  obtain ⟨sh, s | r⟩ := t
  · exact hw sh s
  · exact he sh r

/-- What going on after the result leaves alone, the larger turn leaves as its first part did. -/
theorem andThen_view {α : Type} (view : Shared → α) (t : Shared × Turn σ ρ) (wrap : σ → σ')
    {next : Shared → ρ → Shared × Turn σ' ρ'} (h : ∀ sh r, view (next sh r).1 = view sh) :
    view (andThen t wrap next).1 = view t.1 := by
  obtain ⟨sh, s | r⟩ := t
  · rfl
  · exact h sh r

end Turn

/-! ## Events one after another -/

namespace Listener

variable {env : Setup} {token : Token} {feed : Nat} {sh : Shared}

/-- What the taking of one event keeps holds all along the turn: where the listener waits for the
    event, where it waits for the next one, for which its token must not be cancelled, and where
    it stops. -/
theorem serve_yields {R : Shared → Prop} {W : Shared → Listener → Prop} {E : Shared → ListenerExit → Prop}
    (hstart : ∀ sh event rest, R sh →
      Turn.Yields (HeadUpdate.start env event (sh.updateFeed feed fun f => { f with queue := rest }))
        (fun sh u => W sh (.handling u)) (fun sh _ => R sh))
    (hidle : ∀ sh, R sh → ¬ sh.isCancelled token → W sh .idle)
    (hstop : ∀ sh exit, R sh → E (stop feed sh exit).1 exit) (h : R sh) (lag : Nat) (queue : List HeadEvent) :
    Turn.Yields (serve env token feed sh lag queue) W E := by
  induction queue generalizing sh lag with
  | nil =>
    unfold serve
    split
    · exact hstop sh .shutdown h
    · rename_i hnone
      split
      · rename_i hopen
        exact hidle sh h fun hc => hnone ⟨hc, Or.inl hopen⟩
      · exact hstop sh .streamClosed h
  | cons event rest ih =>
    have hs := hstart sh event rest h
    unfold serve
    split
    · exact hstop sh .shutdown h
    · split
      · rename_i he; rwa [he] at hs
      · rename_i he; rw [he] at hs; exact ih hs _

theorem serve_fst {P : Shared → Prop}
    (hstart : ∀ sh event rest, P sh →
      P (HeadUpdate.start env event (sh.updateFeed feed fun f => { f with queue := rest })).1)
    (hstop : ∀ sh exit, P sh → P (stop feed sh exit).1) (h : P sh) (lag : Nat) (queue : List HeadEvent) :
    P (serve env token feed sh lag queue).1 :=
  Turn.Yields.fst (serve_yields (fun sh event rest hsh => Turn.yields_of_fst (hstart sh event rest hsh))
    (fun _ hsh _ => hsh) hstop h lag queue)

end Listener

/-! ## The ledger -/

/-- The epoch whose commit an event tells of. -/
@[simp] def Event.committed? : Event → Option Epoch
  | .epochCommitted epoch _ => some epoch
  | _ => none

/-- Committed metadata and committees, and the epochs committed so far in order. -/
structure Ledger where
  metadata : List (String × Bytes)
  entries : List Entry
  log : List Epoch
  deriving DecidableEq, Repr

namespace Ledger

/-- The commit of a transaction that writes `epoch`. -/
def commit (l : Ledger) (epoch : Epoch) (tx : Transaction) : Ledger :=
  { metadata := tx.metadata.foldl (fun m kv => bindKey kv.1 kv.2 m) l.metadata
    entries := tx.committees.foldl (fun es c => placeEntry c es) l.entries
    log := l.log ++ [epoch] }

/-- The commit, if there is one. -/
def after (l : Ledger) : Option (Epoch × Transaction) → Ledger
  | none => l
  | some (epoch, tx) => l.commit epoch tx

@[simp] theorem after_none (l : Ledger) : l.after none = l := rfl
@[simp] theorem after_some (l : Ledger) (epoch : Epoch) (tx : Transaction) :
    l.after (some (epoch, tx)) = l.commit epoch tx := rfl

end Ledger

/-- What no write of an epoch touches. -/
structure Surroundings where
  chain : Slot → List Assignment
  serviceGate : Gate
  partsGate : Gate
  tokens : Tokens
  background : Background
  feeds : List Feed
  current : Option Nat
  now : Nat
  interrupt : Bool

namespace Shared

/-- The epochs committed so far, in order. -/
def commitLog (sh : Shared) : List Epoch := sh.events.toList.filterMap Event.committed?

def ledger (sh : Shared) : Ledger := ⟨sh.store.metadata, sh.store.entries, sh.commitLog⟩

def surroundings (sh : Shared) : Surroundings :=
  ⟨sh.chain, sh.serviceGate, sh.partsGate, sh.tokens, sh.background, sh.feeds, sh.current, sh.now, sh.interrupt⟩

theorem commitLog_log (sh : Shared) (e : Event) : (sh.log e).commitLog = sh.commitLog ++ e.committed?.toList := by
  simp only [commitLog, log, Array.toList_push, List.filterMap_append, List.filterMap_cons, List.filterMap_nil]
  cases e.committed? <;> rfl

theorem commitLog_of_ledger {sh sh' : Shared} (h : sh'.ledger = sh.ledger) : sh'.commitLog = sh.commitLog :=
  congrArg Ledger.log h

@[simp] theorem ledger_log (sh : Shared) (e : Event) (h : e.committed? = none) : (sh.log e).ledger = sh.ledger := by
  simp only [ledger, commitLog_log, h, Option.toList_none, List.append_nil]
  rfl

@[simp] theorem ledger_readClock (sh : Shared) : sh.readClock.1.ledger = sh.ledger := by
  unfold readClock; split <;> rfl

@[simp] theorem ledger_setGate (sh : Shared) (g : Guard) (gate : Gate) : (sh.setGate g gate).ledger = sh.ledger := by
  cases g <;> rfl

@[simp] theorem ledger_exit (sh : Shared) (g : Guard) : (sh.exit g).ledger = sh.ledger := ledger_setGate _ _ _

section Streams

variable {α : Type} (view : Shared → α) (hv : ∀ sh feeds current, view { sh with feeds, current } = view sh)

include hv

/-- Where the head streams do not show, neither does a sender that goes away. -/
theorem dropSender_view (sh : Shared) : view sh.dropSender = view sh := by
  unfold dropSender
  split
  · exact hv sh _ _
  · rfl

/-- Nor does an event that is sent. -/
theorem send_view (sh : Shared) (capacity : Nat) (event : HeadEvent) : view (sh.send capacity event).1 = view sh := by
  unfold send
  split
  · rfl
  · exact hv sh _ sh.current

end Streams

@[simp] theorem ledger_dropSender (sh : Shared) : sh.dropSender.ledger = sh.ledger :=
  dropSender_view ledger (fun _ _ _ => rfl) sh

@[simp] theorem ledger_openFeed (sh : Shared) : sh.openFeed.1.ledger = sh.ledger := ledger_dropSender sh

@[simp] theorem ledger_send (sh : Shared) (capacity : Nat) (event : HeadEvent) :
    (sh.send capacity event).1.ledger = sh.ledger :=
  send_view ledger (fun _ _ _ => rfl) sh capacity event

@[simp] theorem ledger_fail (sh : Shared) (context : String) (cause : Cause) :
    (sh.fail context cause).ledger = sh.ledger := by
  simp only [fail]
  by_cases h : sh.background.handler.isTriggered
  · rw [if_pos h]; rfl
  · rw [if_neg h]; exact ledger_log sh (.fatal context cause) rfl

/-- A free gate lets in. -/
theorem enter_admitted {sh : Shared} {g : Guard} (h : (sh.gate g).held = false) (denial : Event) :
    sh.enter g denial = (sh.setGate g ⟨true⟩, true) := by
  simp only [enter, Gate.enter?, h, Bool.false_eq_true, if_false]

/-- A gate that is held does not, and the denial is counted and logged. -/
theorem enter_denied {sh : Shared} {g : Guard} (h : (sh.gate g).held) (denial : Event) :
    sh.enter g denial = ((sh.count .guardDenial).log denial, false) := by
  simp only [enter, Gate.enter?, h, if_true]

theorem ledger_enter (sh : Shared) (g : Guard) (denial : Event) (h : denial.committed? = none) :
    (sh.enter g denial).1.ledger = sh.ledger := by
  unfold enter
  split
  · exact ledger_setGate _ _ _
  · exact ledger_log (sh.count .guardDenial) denial h

@[simp] theorem surroundings_readClock (sh : Shared) : sh.readClock.1.surroundings = sh.surroundings := by
  unfold readClock; split <;> rfl

end Shared

end CommitteeSync
