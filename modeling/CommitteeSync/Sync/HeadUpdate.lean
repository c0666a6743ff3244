/-
  CommitteeSync.Sync.HeadUpdate — the handling of one head event.

  An event that crosses into no new epoch is ignored. Otherwise the stored record says where
  progress stands: an epoch below the resume point is covered already, the epoch at the
  resume point is written directly, without the guard, and an epoch further ahead is reached
  by a guarded pass over everything that is missing, so progress never moves past an epoch
  that was not written. A pass that is denied the guard is left to whoever holds it.
-/

import CommitteeSync.Progress.Reader
import CommitteeSync.Sync.Pass

namespace CommitteeSync

namespace Shared

/-- Asks for the stored record. -/
def askRecord (env : Setup) (sh : Shared) : Shared := sh.make (.metadata env.metadataKey)

/-- The stored record, once the reply to the question for it is there. -/
def readRecord (env : Setup) (sh : Shared) : Reply → Except Cause Record
  | .failed cause => .error (.readRecord cause)
  | .granted =>
    match Record.decode (sh.store.readMetadata env.metadataKey) with
    | .ok record => .ok record
    | .error flaw => .error (.decodeRecord flaw)

end Shared

inductive HeadUpdate where
  /-- Waits for the record. -/
  | reading (epoch : Epoch)
  | direct (epoch : Epoch) (write : EpochWrite)
  | filling (epoch : Epoch) (pass : Pass)
  deriving DecidableEq, Repr

namespace HeadUpdate

def waitsFor (env : Setup) (token : Token) : HeadUpdate → Wait
  | .reading _ => .reply (.metadata env.metadataKey) none
  | .direct epoch write => write.waitsFor env token epoch
  | .filling _ pass => pass.waitsFor env token

def start (env : Setup) (event : HeadEvent) (sh : Shared) : Shared × Turn HeadUpdate HeadOutcome :=
  let sh := sh.count .headEvent
  if event.transition then (sh.askRecord env, .waits (.reading (env.layout.epochOf event.slot)))
  else (sh.log (.headIgnored event.slot), .ends .ignored)

/-- After the direct write of `epoch`. -/
def finishDirect (epoch : Epoch) (sh : Shared) : EpochWrite.Result → Shared × Turn HeadUpdate HeadOutcome
  | .ok committees => (sh.log (.headProcessed epoch committees), .ends (.processed epoch committees))
  | .error error => (sh.log (.epochFailed .head error), .ends (.failed error))

/-- After the pass up to `epoch`: the guard is released, whatever came of the pass. -/
def finishFilling (guard : Guard) (epoch : Epoch) (sh : Shared) (report : Report) :
    Shared × Turn HeadUpdate HeadOutcome :=
  let outcome : HeadOutcome :=
    match report.outcome with
    | .completed => .backfilled report.resume epoch report.processed
    | .aborted error => .failed error
    | .cancelled => .cancelled epoch
  (sh.exit guard, .ends outcome)

/-- A guarded pass from `resume` up to `epoch`. -/
def fill (guard : Guard) (token : Token) (resume epoch : Epoch) (sh : Shared) : Shared × Turn HeadUpdate HeadOutcome :=
  match sh.enter guard (.headDeferred resume epoch) with
  | (sh, false) => (sh, .ends (.deferred epoch))
  | (sh, true) =>
    Turn.andThen (Pass.start token resume epoch (sh.log (.headFillsGap resume epoch))) (.filling epoch)
      (finishFilling guard epoch)

/-- Once the record is known. -/
def dispatch (guard : Guard) (token : Token) (epoch : Epoch) (sh : Shared) :
    Except Cause Record → Shared × Turn HeadUpdate HeadOutcome
  | .error cause =>
    let error : EpochError := ⟨epoch, .readMetadata, cause⟩
    ((sh.log (.epochFailed .head error)).count .epochFailure, .ends (.failed error))
  | .ok record =>
    let resume := record.resumePoint none
    if epoch < resume then (sh.log (.headCovered epoch record.latestEpoch), .ends (.alreadyProcessed epoch))
    else if resume < epoch then fill guard token resume epoch sh
    else Turn.andThen (EpochWrite.start token epoch sh) (.direct epoch) (finishDirect epoch)

def resume (env : Setup) (guard : Guard) (token : Token) (sh : Shared) (u : HeadUpdate) (reply : Reply) :
    Shared × Turn HeadUpdate HeadOutcome :=
  match u with
  | .reading epoch => dispatch guard token epoch sh (sh.readRecord env reply)
  | .direct epoch write => Turn.andThen (write.resume env token epoch sh reply) (.direct epoch) (finishDirect epoch)
  | .filling epoch pass =>
    Turn.andThen (pass.resume env token sh reply) (.filling epoch) (finishFilling guard epoch)

end HeadUpdate

end CommitteeSync
