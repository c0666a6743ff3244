/-
  CommitteeSync.Sync.Call — what the synchronizer asks of its collaborators.

  The chain serves committees and a stream of head events, the store runs transactions and
  keeps metadata. A call is named by its place and, where it has one, a key.
-/

import CommitteeSync.Progress.Record

namespace CommitteeSync

inductive Call where
  | begin
  | fetch (stateSlot : Slot)
  | put (slot : Slot) (index : UInt64)
  | set (record : Record)
  | commit
  | metadata (key : String)
  | subscribe
  deriving DecidableEq, Repr

namespace Call

def place : Call → String
  | .begin => "begin"
  | .fetch _ => "fetch"
  | .put _ _ => "put"
  | .set _ => "set"
  | .commit => "commit"
  | .metadata _ => "metadata"
  | .subscribe => "subscribe"

def key? : Call → Option String
  | .begin | .commit | .subscribe => none
  | .fetch stateSlot => some (toString stateSlot.toNat)
  | .put slot index => some (toString slot.toNat ++ "/" ++ toString index.toNat)
  | .set record => some (String.ofList record.render)
  | .metadata key => some key

/-- The key, empty for a call that has none. -/
def key (c : Call) : String := c.key?.getD ""

def text (c : Call) : String :=
  match c.key? with
  | none => c.place
  | some key => c.place ++ ":" ++ key

end Call

/-- One thing done with a collaborator, in the order done. -/
inductive Mark where
  | call (c : Call)
  /-- A reading of the clock. -/
  | clock (epoch : Epoch)
  /-- A transaction cancelled with so many committees staged. -/
  | cancelTx (staged : Nat)
  deriving DecidableEq, Repr

def Mark.text : Mark → String
  | .call c => c.text
  | .clock epoch => "current:" ++ toString epoch.toNat
  | .cancelTx staged => "cancel:" ++ toString staged

end CommitteeSync
