/-
  CommitteeSync.Sync.EpochWrite — the write of one epoch.

  All of an epoch is one transaction: begin, fetch the assignments of the state at the
  epoch's first slot, stage them one by one, stage the progress record, commit. So the
  committed committees and the committed record never disagree. The token interrupts every
  wait but the last: a commit that has been asked for is waited out. Whatever goes wrong
  between begin and commit cancels the transaction; a failed commit has consumed it.

  `Staging` is the part of it that fetches and stages committees.
-/

import CommitteeSync.Sync.Turn

namespace CommitteeSync

/-! ## Staging -/

/-- Committees of an epoch on their way into a transaction. -/
inductive Staging where
  | fetching (tx : Transaction)
  /-- `next` is being put, `rest` follows. -/
  | putting (tx : Transaction) (written : Nat) (next : Assignment) (rest : List Assignment)
  deriving DecidableEq, Repr

namespace Staging

def tx : Staging → Transaction
  | .fetching tx => tx
  | .putting tx _ _ _ => tx

/-- The call that is being waited for. -/
def call (env : Setup) (epoch : Epoch) : Staging → Call
  | .fetching _ => .fetch (env.layout.firstSlot epoch)
  | .putting _ _ next _ => .put next.slot next.index

/-- The transaction, and the number of committees staged or what went wrong. -/
abbrev Result := Transaction × Except Cause Nat

def start (env : Setup) (epoch : Epoch) (tx : Transaction) (sh : Shared) : Shared × Staging :=
  (sh.make (.fetch (env.layout.firstSlot epoch)), .fetching tx)

/-- Goes on with the assignments that are left; one of another epoch is refused. -/
def advance (env : Setup) (epoch : Epoch) (tx : Transaction) (written : Nat) (sh : Shared) :
    List Assignment → Shared × Turn Staging Result
  | [] => (sh, .ends (tx, .ok written))
  | a :: rest =>
    if env.layout.epochOf a.slot = epoch then
      (sh.make (.put a.slot a.index), .waits (.putting tx written a rest))
    else (sh, .ends (tx, .error (.foreignSlot a.slot (env.layout.epochOf a.slot) epoch)))

def resume (env : Setup) (epoch : Epoch) (sh : Shared) (s : Staging) (reply : Reply) : Shared × Turn Staging Result :=
  match s, reply with
  | .fetching tx, .granted => advance env epoch tx 0 sh (sh.chain (env.layout.firstSlot epoch))
  | .fetching tx, .failed cause => (sh, .ends (tx, .error (.fetchCommittees epoch cause)))
  | .putting tx written next rest, .granted =>
    advance env epoch (tx.putCommittee (Committee.ofAssignment next)) (written + 1) sh rest
  | .putting tx _ next _, .failed cause => (sh, .ends (tx, .error (.putCommittee next.slot next.index cause)))

end Staging

/-! ## The whole epoch -/

inductive EpochWrite where
  | beginning
  | staging (s : Staging)
  | recording (tx : Transaction) (written : Nat)
  | committing (tx : Transaction) (written : Nat)
  deriving DecidableEq, Repr

namespace EpochWrite

/-- The number of committees written, or the failure. -/
abbrev Result := Except EpochError Nat

def waitsFor (env : Setup) (token : Token) (epoch : Epoch) : EpochWrite → Wait
  | .beginning => .reply .begin (some token)
  | .staging s => .reply (s.call env epoch) (some token)
  | .recording _ _ => .reply (.set ⟨epoch⟩) (some token)
  | .committing _ _ => .reply .commit none

/-- A failure is counted unless it is an interruption. -/
def fail (sh : Shared) (error : EpochError) : Shared × Turn EpochWrite Result :=
  (if error.stage = .cancelled then sh else sh.count .epochFailure, .ends (.error error))

/-- A failure while the transaction is open. -/
def abort (sh : Shared) (tx : Transaction) (error : EpochError) : Shared × Turn EpochWrite Result :=
  fail (sh.cancelTx tx) error

/-- Asks for a transaction. -/
def begin (sh : Shared) : Shared × EpochWrite := (sh.make .begin, .beginning)

/-- Starts, unless the token is cancelled already. -/
def start (token : Token) (epoch : Epoch) (sh : Shared) : Shared × Turn EpochWrite Result :=
  if sh.isCancelled token then fail sh (.cancelled epoch)
  else
    let (sh, w) := begin sh
    (sh, .waits w)

/-- After the committees are staged: stage the record. -/
def record (epoch : Epoch) (sh : Shared) : Staging.Result → Shared × Turn EpochWrite Result
  | (tx, .ok written) => (sh.make (.set ⟨epoch⟩), .waits (.recording tx written))
  | (tx, .error cause) => abort sh tx ⟨epoch, .fetch, cause⟩

/-- The transaction is committed. -/
def finish (epoch : Epoch) (sh : Shared) (tx : Transaction) (written : Nat) : Shared × Turn EpochWrite Result :=
  (((sh.commitTx tx).count (.epochProcessed epoch)).log (.epochCommitted epoch written), .ends (.ok written))

def resume (env : Setup) (token : Token) (epoch : Epoch) (sh : Shared) (w : EpochWrite) (reply : Reply) :
    Shared × Turn EpochWrite Result :=
  match w with
  | .beginning =>
    if sh.isCancelled token then fail sh (.cancelled epoch)
    else
      match reply with
      | .failed cause => fail sh ⟨epoch, .beginTx, cause⟩
      | .granted =>
        let (sh, s) := Staging.start env epoch Transaction.empty sh.beginTx
        (sh, .waits (.staging s))
  | .staging s =>
    if sh.isCancelled token then abort sh s.tx (.cancelled epoch)
    else Turn.andThen (s.resume env epoch sh reply) .staging (record epoch)
  | .recording tx written =>
    if sh.isCancelled token then abort sh tx (.cancelled epoch)
    else
      match reply with
      | .failed cause => abort sh tx ⟨epoch, .setMetadata, cause⟩
      | .granted =>
        (sh.make .commit, .waits (.committing (tx.setMetadata env.metadataKey (Record.encode ⟨epoch⟩)) written))
  | .committing tx written =>
    match reply with
    | .failed cause => fail sh ⟨epoch, .commit, cause⟩
    | .granted => finish epoch sh tx written

end EpochWrite

end CommitteeSync
