/-
  CommitteeSync.Telemetry.Counters — what the synchronizer counts about itself.

  Each counter is a word and wraps. The gauge of the latest epoch only moves forward, so
  processing an earlier epoch again does not lower it.
-/

import CommitteeSync.Chain.Basic

namespace CommitteeSync

structure Telemetry where
  epochsProcessed : UInt64
  epochFailures : UInt64
  catchupRuns : UInt64
  guardDenials : UInt64
  headEvents : UInt64
  latestEpoch : Epoch
  deriving DecidableEq, Repr

namespace Telemetry

def zero : Telemetry := ⟨0, 0, 0, 0, 0, 0⟩

def epochProcessed (t : Telemetry) (epoch : Epoch) : Telemetry :=
  { t with epochsProcessed := t.epochsProcessed + 1, latestEpoch := max t.latestEpoch epoch }

def epochFailure (t : Telemetry) : Telemetry := { t with epochFailures := t.epochFailures + 1 }

def catchupRun (t : Telemetry) : Telemetry := { t with catchupRuns := t.catchupRuns + 1 }

def guardDenial (t : Telemetry) : Telemetry := { t with guardDenials := t.guardDenials + 1 }

def headEvent (t : Telemetry) : Telemetry := { t with headEvents := t.headEvents + 1 }

inductive Step where
  | epochProcessed (epoch : Epoch)
  | epochFailure
  | catchupRun
  | guardDenial
  | headEvent
  deriving DecidableEq, Repr

def apply (t : Telemetry) : Step → Telemetry
  | .epochProcessed e => t.epochProcessed e
  | .epochFailure => t.epochFailure
  | .catchupRun => t.catchupRun
  | .guardDenial => t.guardDenial
  | .headEvent => t.headEvent

end Telemetry

end CommitteeSync
