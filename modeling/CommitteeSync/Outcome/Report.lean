/-
  CommitteeSync.Outcome.Report — how passes over epochs and head updates end.
-/

import CommitteeSync.Outcome.Epoch

namespace CommitteeSync

/-- How a pass over a range of epochs ended. -/
inductive PassOutcome where
  /-- Every epoch of the range was committed, or the range was empty. -/
  | completed
  /-- An epoch failed; later ones were not attempted. -/
  | aborted (error : EpochError)
  | cancelled
  deriving DecidableEq, Repr

structure Report where
  resume : Epoch
  target : Epoch
  /-- The highest epoch committed. -/
  lastCommitted : Option Epoch
  processed : UInt64
  outcome : PassOutcome
  deriving DecidableEq, Repr

namespace Report

/-- Nothing done yet, nothing wrong. -/
def empty (resume target : Epoch) : Report := ⟨resume, target, none, 0, .completed⟩

def isCompleted (r : Report) : Bool :=
  match r.outcome with
  | .completed => true
  | _ => false

/-- The report of all passes so far after one more pass, which went up to `target`. -/
def extend (total : Report) (target : Epoch) (pass : Report) : Report :=
  { resume := total.resume
    target
    lastCommitted := pass.lastCommitted.or total.lastCommitted
    processed := total.processed + pass.processed
    outcome := pass.outcome }

end Report

/-- How the handling of one head event ended. -/
inductive HeadOutcome where
  /-- The event crossed into no new epoch. -/
  | ignored
  /-- Stored progress covers the epoch. -/
  | alreadyProcessed (epoch : Epoch)
  | processed (epoch : Epoch) (committees : Nat)
  /-- The missing epochs were written up to the event's own. -/
  | backfilled (first last : Epoch) (epochs : UInt64)
  /-- Another pass holds the guard; the gap is left to it or to a later event. -/
  | deferred (epoch : Epoch)
  | cancelled (epoch : Epoch)
  | failed (error : EpochError)
  deriving DecidableEq, Repr

end CommitteeSync
