/-
  CommitteeSync.Sync.Pass — a pass over a range of epochs, in ascending order.

  Each epoch is written by itself. The first failure ends the pass, and so does the token,
  which is looked at before every epoch. Failures are logged and reported, never thrown: the
  next pass starts from what was committed.
-/

import CommitteeSync.Sync.EpochWrite

namespace CommitteeSync

structure Pass where
  /-- What is done so far. -/
  report : Report
  /-- The epoch being written. -/
  epoch : Epoch
  write : EpochWrite
  deriving DecidableEq, Repr

namespace Pass

def waitsFor (env : Setup) (token : Token) (p : Pass) : Wait := p.write.waitsFor env token p.epoch

/-- Goes on with `epoch`. -/
def enter (token : Token) (report : Report) (epoch : Epoch) (sh : Shared) : Shared × Turn Pass Report :=
  if sh.isCancelled token then (sh.log (.passCancelled epoch), .ends { report with outcome := .cancelled })
  else
    let (sh, write) := EpochWrite.begin sh
    (sh, .waits ⟨report, epoch, write⟩)

/-- The outcome of a pass whose epoch failed so. -/
def outcomeOf (error : EpochError) : PassOutcome :=
  match error.stage with
  | .cancelled => .cancelled
  | _ => .aborted error

/-- After the work on `epoch` has ended. -/
def settle (token : Token) (report : Report) (epoch : Epoch) (sh : Shared) :
    EpochWrite.Result → Shared × Turn Pass Report
  | .error error => (sh.log (.epochFailed .catchup error), .ends { report with outcome := outcomeOf error })
  | .ok _ =>
    let report := { report with lastCommitted := some epoch, processed := report.processed + 1 }
    if epoch = report.target then
      (sh.log (.passCompleted report.resume report.target report.processed), .ends report)
    else enter token report (epoch + 1) sh

/-- A pass over the epochs from `resume` up to `target`, of which there may be none. -/
def start (token : Token) (resume target : Epoch) (sh : Shared) : Shared × Turn Pass Report :=
  if resume > target then (sh.log (.nothingToCatchUp resume target), .ends (Report.empty resume target))
  else enter token (Report.empty resume target) resume ((sh.count .catchupRun).log (.passStarted resume target))

def resume (env : Setup) (token : Token) (sh : Shared) (p : Pass) (reply : Reply) : Shared × Turn Pass Report :=
  Turn.andThen (p.write.resume env token p.epoch sh reply) (fun write => { p with write })
    (settle token p.report p.epoch)

end Pass

end CommitteeSync
