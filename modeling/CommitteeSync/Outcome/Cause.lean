/-
  CommitteeSync.Outcome.Cause — why something failed.

  A cause is what a collaborator reported, a condition of the synchronizer's own, or one of
  these under a context. Its chain is the list of messages, outermost first.
-/

import CommitteeSync.Progress.Json

namespace CommitteeSync

/-- A flaw of stored bytes is reported by its class alone. -/
def Flaw.message : Flaw → String
  | .truncated => "json:eof"
  | .malformed => "json:syntax"
  | .mismatched => "json:data"

inductive Cause where
  /-- What a collaborator said, outermost first. -/
  | reported (chain : List String)
  | readRecord (inner : Cause)
  | decodeRecord (flaw : Flaw)
  | fetchCommittees (epoch : Epoch) (inner : Cause)
  | putCommittee (slot : Slot) (index : UInt64) (inner : Cause)
  /-- A committee of another epoch than the one fetched. -/
  | foreignSlot (slot : Slot) (epoch expected : Epoch)
  | interrupted
  | streamClosed
  | alreadyRan
  /-- A fatal error under its context; the captured error repeats the context as its own text. -/
  | fatal (context : String) (inner : Cause)
  | aborted (inner : Cause)
  | unsupportedStore
  deriving DecidableEq, Repr

namespace Cause

def number (n : UInt64) : String := toString n.toNat

def chain : Cause → List String
  | .reported chain => chain
  | .readRecord inner => "failed to read progress metadata" :: inner.chain
  | .decodeRecord flaw => ["failed to decode progress metadata", flaw.message]
  | .fetchCommittees epoch inner => ("failed to fetch beacon committees for epoch " ++ number epoch) :: inner.chain
  | .putCommittee slot index inner =>
    ("failed to set beacon committee " ++ number index ++ " at slot " ++ number slot) :: inner.chain
  | .foreignSlot slot epoch expected =>
    ["committee for slot " ++ number slot ++ " belongs to epoch " ++ number epoch ++ ", expected " ++ number expected]
  | .interrupted => ["epoch processing cancelled"]
  | .streamClosed => ["head event stream closed unexpectedly"]
  | .alreadyRan => ["sync task already ran; startup happens once per runner"]
  | .fatal context inner => context :: context :: inner.chain
  | .aborted inner => "epoch sync aborted" :: inner.chain
  | .unsupportedStore => ["problem with parameters", "chain store does not support beacon committee setting"]

/-- The outermost message. -/
def message (c : Cause) : String := c.chain.headD ""

end Cause

end CommitteeSync
