/-
  CommitteeSync.Fatal.Waits — a handler, its tokens, and callers that wait for its error.

  A wait looks at the handler and ends with the captured error if there is one. Otherwise it
  sleeps until the next notice to all waits, and then looks again. It takes note of how many
  notices there have been before it looks, so none can slip in between. Only the trigger that
  captures gives notice, after it has captured.

  The handler may be used through any of its clones, which are one handler.
-/

import CommitteeSync.Fatal.Handler

namespace CommitteeSync

/-- How the two tokens of a handler are related. -/
inductive Relation where
  /-- The run token is the root's child. -/
  | child
  /-- One token is both. -/
  | same
  | separate
  /-- The root token is the run's child. -/
  | parent
  deriving DecidableEq, Repr

def Relation.handler : Relation → Handler
  | .child => Handler.new (.root 0) (.child 0)
  | .same => Handler.new (.root 0) (.root 0)
  | .separate => Handler.new (.root 0) (.root 1)
  | .parent => Handler.new (.child 0) (.root 0)

/-- A wait that has not ended. -/
structure Waiter where
  id : String
  /-- How many notices there had been when it last looked; none if it has not looked yet. -/
  seen : Option Nat
  deriving DecidableEq, Repr

structure Waits where
  handler : Handler
  tokens : Tokens
  /-- How often all waits were given notice. -/
  notices : Nat
  /-- The waits that have not ended, in starting order. -/
  waiting : List Waiter
  deriving DecidableEq, Repr

namespace Waits

def start (relation : Relation) : Waits := ⟨relation.handler, Tokens.none, 0, []⟩

inductive Step where
  | trigger (context : String) (cause : Cause)
  | error
  | wait (id : String)
  | clone
  | cancelRoot
  | cancelRun
  deriving DecidableEq, Repr

/-- A step's own answer: the error given back or asked for. -/
def act (w : Waits) : Step → Waits × Option Cause
  | .trigger context cause =>
    let (handler, tokens, returned) := w.handler.trigger w.tokens context cause
    let notices := if w.handler.isTriggered then w.notices else w.notices + 1
    ({ w with handler, tokens, notices }, some returned)
  | .error => (w, w.handler.captured)
  | .wait id => ({ w with waiting := w.waiting ++ [⟨id, none⟩] }, none)
  | .clone => (w, none)
  | .cancelRoot => ({ w with tokens := w.tokens.cancel w.handler.root }, none)
  | .cancelRun => ({ w with tokens := w.tokens.cancel w.handler.run }, none)

/-- Whether a wait goes on when it gets the chance: at first, and after a notice. -/
def isReady (w : Waits) (x : Waiter) : Bool := x.seen != some w.notices

/-- The error that a wait ends with when it gets the chance to go on. -/
def endOf (w : Waits) (x : Waiter) : Option Cause := if w.isReady x then w.handler.captured else none

/-- A wait that has gone on and found nothing has seen all notices. -/
def asleep (w : Waits) (x : Waiter) : Waiter := { x with seen := some w.notices }

/-- Every wait gets the chance to go on, in starting order: the waits left, and those that ended. -/
def wake (w : Waits) : Waits × List (String × Cause) :=
  ({ w with waiting := (w.waiting.filter fun x => (w.endOf x).isNone).map w.asleep },
    w.waiting.filterMap fun x => (w.endOf x).map fun cause => (x.id, cause))

/-- A step, its own answer, and the waits that ended with it. -/
def apply (w : Waits) (s : Step) : Waits × Option Cause × List (String × Cause) :=
  let (w, result) := w.act s
  let (w, woken) := w.wake
  (w, result, woken)

end Waits

end CommitteeSync
