/-
  CommitteeSync.Outcome.Epoch — how the work on one epoch failed, and at which stage.
-/

import CommitteeSync.Outcome.Cause

namespace CommitteeSync

/-- The step of an epoch's work that failed. -/
inductive Stage where
  | readMetadata
  | beginTx
  | fetch
  | setMetadata
  | commit
  | cancelled
  deriving DecidableEq, Repr

def Stage.name : Stage → String
  | .readMetadata => "ReadMetadata"
  | .beginTx => "BeginTx"
  | .fetch => "Fetch"
  | .setMetadata => "SetMetadata"
  | .commit => "Commit"
  | .cancelled => "Cancelled"

structure EpochError where
  epoch : Epoch
  stage : Stage
  cause : Cause
  deriving DecidableEq, Repr

namespace EpochError

def cancelled (epoch : Epoch) : EpochError := ⟨epoch, .cancelled, .interrupted⟩

def message (e : EpochError) : String :=
  "epoch " ++ Cause.number e.epoch ++ " failed at " ++ e.stage.name ++ ": " ++ e.cause.message

end EpochError

end CommitteeSync
