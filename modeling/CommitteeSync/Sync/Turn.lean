/-
  CommitteeSync.Sync.Turn — a task's turn: it runs from one wait to the next.

  A turn changes the shared state and ends either in a wait, with the state of the task to
  go on from, or with the task's result. A task that waits for a collaborator has already
  made its call; the reply decides how its next turn begins.
-/

import CommitteeSync.Sync.Shared

namespace CommitteeSync

/-- How a turn ended. -/
inductive Turn (σ ρ : Type) where
  | waits (state : σ)
  | ends (result : ρ)

/-- A collaborator's answer to a call. What a granted call does, it does when it is granted. -/
inductive Reply where
  | granted
  | failed (cause : Cause)
  deriving DecidableEq, Repr

/-- A turn that is part of a larger task: its wait is the task's wait, and after its result
    the task goes on. -/
def Turn.andThen {σ ρ σ' ρ' : Type} (t : Shared × Turn σ ρ) (wrap : σ → σ') (next : Shared → ρ → Shared × Turn σ' ρ') :
    Shared × Turn σ' ρ' :=
  match t with
  | (sh, .waits s) => (sh, .waits (wrap s))
  | (sh, .ends r) => next sh r

/-- What a waiting task waits for. -/
inductive Wait where
  /-- Its first turn. -/
  | start
  /-- The reply to a call; a token, if given, interrupts it. -/
  | reply (call : Call) (token : Option Token)
  /-- An event or the end of a head stream. -/
  | feed (id : Nat) (token : Token)
  /-- An instant, in nanoseconds since the start. -/
  | instant (due : Nat) (token : Token)
  /-- A fatal error of the background run. -/
  | fatal
  | startupEnd
  | reporterEnd
  /-- The request to stop from outside. -/
  | interrupt (token : Token)
  deriving DecidableEq, Repr

namespace Wait

/-- The time in nanoseconds. -/
def nanos (sh : Shared) : Nat := sh.now * 1000000

/-- Whether a task may go on without any reply. -/
def isReady (sh : Shared) : Wait → Bool
  | .start => true
  | .reply _ token => token.any sh.isCancelled
  | .feed id token => sh.isCancelled token || (sh.feed id).isReady
  | .instant due token => sh.isCancelled token || due ≤ nanos sh
  | .fatal => sh.captured.isSome
  | .startupEnd => sh.background.startupEnded
  | .reporterEnd => sh.background.reporterEnded
  | .interrupt token => sh.interrupt || sh.isCancelled token

end Wait

end CommitteeSync
