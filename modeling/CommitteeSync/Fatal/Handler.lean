/-
  CommitteeSync.Fatal.Handler — capture of the first unrecoverable error.

  The first trigger raises the handler's flag and captures: its cause is kept under its
  context, and both tokens of the handler are cancelled, the run's before the root's. A later
  trigger finds the flag raised and changes nothing.
-/

import CommitteeSync.Fatal.Token
import CommitteeSync.Outcome.Cause

namespace CommitteeSync

structure Handler where
  root : Token
  run : Token
  triggered : Bool
  captured : Option Cause
  /-- The flag is raised just if an error is kept. -/
  agree : triggered = captured.isSome
  deriving DecidableEq, Repr

namespace Handler

def new (root run : Token) : Handler := ⟨root, run, false, none, rfl⟩

def isTriggered (h : Handler) : Bool := h.triggered

/-- Keeps an error, unless one is kept already, and cancels both tokens. -/
def capture (h : Handler) (ts : Tokens) (error : Cause) : Handler × Tokens × Cause :=
  ({ h with triggered := true, captured := h.captured.or (some error), agree := by simp },
    (ts.cancel h.run).cancel h.root, error)

/-- The handler and the tokens after an error, and the error that the caller gets back. -/
def trigger (h : Handler) (ts : Tokens) (context : String) (cause : Cause) : Handler × Tokens × Cause :=
  if h.triggered then (h, ts, cause) else h.capture ts (.fatal context cause)

variable {h : Handler}

theorem isTriggered_eq (h : Handler) : h.isTriggered = h.captured.isSome := h.agree

theorem trigger_of_none (hc : h.captured = none) (ts : Tokens) (context : String) (cause : Cause) :
    h.trigger ts context cause = h.capture ts (.fatal context cause) := by
  rw [trigger, h.agree, hc]
  rfl

theorem trigger_of_some {error : Cause} (hc : h.captured = some error) (ts : Tokens) (context : String) (cause : Cause) :
    h.trigger ts context cause = (h, ts, cause) := by
  rw [trigger, h.agree, hc]
  rfl

theorem captured_capture (hc : h.captured = none) (ts : Tokens) (error : Cause) :
    (h.capture ts error).1.captured = some error := by
  show h.captured.or (some error) = some error
  rw [hc, Option.none_or]

end Handler

end CommitteeSync
