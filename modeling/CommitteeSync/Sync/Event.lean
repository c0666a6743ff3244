/-
  CommitteeSync.Sync.Event — what the synchronizer logs, and the metrics it reports.

  An event has a level, a message and named fields; all three follow from what happened.
-/

import CommitteeSync.Config.Level
import CommitteeSync.Outcome.Report
import CommitteeSync.Telemetry.Counters

namespace CommitteeSync

/-- What a pass was asked for by. -/
inductive Trigger where
  | manual
  | range
  | startup
  deriving DecidableEq, Repr

def Trigger.name : Trigger → String
  | .manual => "manual"
  | .range => "range"
  | .startup => "startup"

/-- Where an epoch's failure was noticed. -/
inductive Site where
  | catchup
  | head
  deriving DecidableEq, Repr

def Site.name : Site → String
  | .catchup => "catchup"
  | .head => "head"

inductive Event where
  | epochFailed (site : Site) (error : EpochError)
  | epochCommitted (epoch : Epoch) (committees : Nat)
  | nothingToCatchUp (resume target : Epoch)
  | passStarted (resume target : Epoch)
  | passCancelled (epoch : Epoch)
  | passCompleted (resume target : Epoch) (processed : UInt64)
  | headIgnored (slot : Slot)
  | headCovered (epoch latest : Epoch)
  | headProcessed (epoch : Epoch) (committees : Nat)
  | headDeferred (resume epoch : Epoch)
  | headFillsGap (resume epoch : Epoch)
  | listening
  | listenerShutDown
  | streamClosed
  | passDenied (trigger : Trigger)
  | startupResumes (resume latest : Epoch) (startOverride : Option Epoch)
  | startupCaughtUp (report : Report)
  | fatal (context : String) (cause : Cause)
  | runnerStarted
  | runnerInterrupted
  | runnerCancelled
  deriving DecidableEq, Repr

/-- The value of a field. -/
inductive Field where
  | number (n : Nat)
  | flag (b : Bool)
  | text (s : String)
  deriving DecidableEq, Repr

namespace Event

def level : Event → Level
  | .epochFailed _ error =>
    match error.stage with
    | .cancelled => .info
    | .fetch => .warn
    | _ => .error
  | .epochCommitted _ _ | .nothingToCatchUp _ _ | .headCovered _ _ | .startupCaughtUp _ => .debug
  | .headIgnored _ => .trace
  | .headDeferred _ _ | .streamClosed | .passDenied _ => .warn
  | .fatal _ _ => .error
  | .passStarted _ _ | .passCancelled _ | .passCompleted _ _ _ | .headProcessed _ _ | .headFillsGap _ _ | .listening
  | .listenerShutDown | .startupResumes _ _ _ | .runnerStarted | .runnerInterrupted | .runnerCancelled => .info

def message : Event → String
  | .epochFailed _ error =>
    match error.stage with
    | .cancelled => "epoch processing cancelled"
    | .fetch => "failed to update beacon committees"
    | _ => "epoch transaction failed"
  | .epochCommitted _ _ => "committed epoch"
  | .nothingToCatchUp _ _ => "chain has not advanced; nothing to catch up"
  | .passStarted _ _ => "catching up from epoch"
  | .passCancelled _ => "catch-up cancelled before epoch"
  | .passCompleted _ _ _ => "catch-up complete"
  | .headIgnored _ => "head update within epoch; ignoring"
  | .headCovered _ _ => "epoch already processed"
  | .headProcessed _ _ => "processed new epoch"
  | .headDeferred _ _ => "failed to obtain activity guard; head update deferred"
  | .headFillsGap _ _ => "head is ahead of stored progress; filling gap"
  | .listening => "listening for head updates"
  | .listenerShutDown => "head listener shutting down"
  | .streamClosed => "head event stream closed"
  | .passDenied _ => "failed to obtain activity guard; catch-up deferred"
  | .startupResumes _ _ _ => "catching up from epoch"
  | .startupCaughtUp _ => "startup catch-up finished"
  | .fatal _ _ => "fatal sync error; initiating shutdown"
  | .runnerStarted => "runner started; waiting for Ctrl-C (SIGINT) to initiate shutdown"
  | .runnerInterrupted => "Ctrl-C received; shutting down runner"
  | .runnerCancelled => "runner shutdown token cancelled"

def word (n : UInt64) : Field := .number n.toNat

/-- An epoch that may be absent. -/
def optional : Option Epoch → Field
  | some e => .text ("Some(" ++ toString e.toNat ++ ")")
  | none => .text "None"

def fields : Event → List (String × Field)
  | .epochFailed site error =>
    let common := [("epoch", word error.epoch), ("context", .text site.name)]
    match error.stage with
    | .cancelled => common
    | .fetch => common ++ [("error", .text error.cause.message)]
    | stage => common ++ [("stage", .text stage.name), ("error", .text error.cause.message)]
  | .epochCommitted epoch committees | .headProcessed epoch committees =>
    [("epoch", word epoch), ("committees", .number committees)]
  | .nothingToCatchUp resume target | .passStarted resume target => [("resume", word resume), ("target", word target)]
  | .passCancelled epoch => [("epoch", word epoch)]
  | .passCompleted resume target processed =>
    [("resume", word resume), ("target", word target), ("processed", word processed)]
  | .headIgnored slot => [("slot", word slot)]
  | .headCovered epoch latest => [("epoch", word epoch), ("latest_epoch", word latest)]
  | .headDeferred resume epoch | .headFillsGap resume epoch => [("resume", word resume), ("epoch", word epoch)]
  | .passDenied trigger => [("trigger", .text trigger.name)]
  | .startupResumes resume latest startOverride =>
    [("resume", word resume), ("latest_epoch", word latest), ("start_override", optional startOverride)]
  | .startupCaughtUp report =>
    [("processed", word report.processed), ("last_committed", optional report.lastCommitted)]
  | .fatal context cause => [("context", .text context), ("error", .text cause.message)]
  | .listening | .listenerShutDown | .streamClosed | .runnerStarted | .runnerInterrupted | .runnerCancelled => []

end Event

/-- What the metrics reporter logs. -/
inductive Metrics where
  /-- Counters, throughput in epochs per second since the last report, and whether a pass is open. -/
  | snapshot (throughput : String) (telemetry : Telemetry) (active : Bool)
  | shutDown
  deriving DecidableEq, Repr

namespace Metrics

def level : Metrics → Level
  | _ => .info

def message : Metrics → String
  | .snapshot _ _ _ => "sync metrics snapshot"
  | .shutDown => "metrics reporter shutting down"

def fields : Metrics → List (String × Field)
  | .snapshot throughput t active =>
    [("throughput", .text throughput), ("processed", Event.word t.epochsProcessed),
      ("latest_epoch", Event.word t.latestEpoch), ("failures", Event.word t.epochFailures),
      ("catchup_runs", Event.word t.catchupRuns), ("guard_denials", Event.word t.guardDenials),
      ("head_events", Event.word t.headEvents), ("catchup_active", .flag active)]
  | .shutDown => []

end Metrics

end CommitteeSync
