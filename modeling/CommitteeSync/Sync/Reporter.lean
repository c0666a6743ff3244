/-
  CommitteeSync.Sync.Reporter — the periodic metrics report.

  The first report is due at once. A report that comes late by no more than the tolerance
  keeps the schedule; after a later one the next is due a whole interval from then. A report
  that is due when the token is cancelled may still be made before the reporter ends.
-/

import CommitteeSync.Sync.Turn
import CommitteeSync.Telemetry.Throughput

namespace CommitteeSync

/-- All times in nanoseconds since the start. -/
structure Reporter where
  due : Nat
  lastReport : Nat
  /-- How many epochs had been processed at the last report. -/
  lastProcessed : UInt64
  deriving DecidableEq, Repr

namespace Reporter

def waitsFor (token : Token) (r : Reporter) : Wait := .instant r.due token

/-- How late a report may be without moving the schedule. -/
def tolerance : Nat := 5000000

/-- When the next report is due. -/
def nextDue (interval due now : Nat) : Nat := if due + tolerance < now then now + interval else due + interval

/-- Epochs processed since the last report. -/
def progress (r : Reporter) (t : Telemetry) : Nat := t.epochsProcessed.toNat - r.lastProcessed.toNat

def tick (env : Setup) (sh : Shared) (r : Reporter) : Shared × Reporter :=
  let now := Wait.nanos sh
  let throughput := Throughput.render (r.progress sh.telemetry) (now - r.lastReport)
  (sh.report (.snapshot throughput sh.telemetry sh.serviceGate.held),
    ⟨nextDue env.metricsInterval.toNanos r.due now, now, sh.telemetry.epochsProcessed⟩)

/-- Ends under a cancelled token, which gives way to `lag` reports as long as they are due. -/
def windDown (env : Setup) (sh : Shared) (r : Reporter) : Nat → Shared × Turn Reporter Unit
  | 0 => (sh.report .shutDown, .ends ())
  | lag + 1 =>
    if r.due ≤ Wait.nanos sh then windDown env (r.tick env sh).1 (r.tick env sh).2 lag
    else (sh.report .shutDown, .ends ())

def resume (env : Setup) (token : Token) (sh : Shared) (r : Reporter) : Shared × Turn Reporter Unit :=
  if sh.isCancelled token then windDown env sh r (env.lag sh)
  else if r.due ≤ Wait.nanos sh then
    let (sh, r) := r.tick env sh
    (sh, .waits r)
  else (sh, .waits r)

def start (env : Setup) (token : Token) (sh : Shared) : Shared × Turn Reporter Unit :=
  resume env token sh ⟨Wait.nanos sh, Wait.nanos sh, sh.telemetry.epochsProcessed⟩

end Reporter

end CommitteeSync
