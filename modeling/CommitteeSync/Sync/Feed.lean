/-
  CommitteeSync.Sync.Feed — a bounded stream of head events.

  Events leave in the order they entered. The stream is over for its reader when it is empty
  and its sender is gone; a sender whose reader is gone sends nothing.
-/

import CommitteeSync.Chain.Basic

namespace CommitteeSync

structure Feed where
  queue : List HeadEvent
  senderOpen : Bool
  receiverOpen : Bool
  deriving DecidableEq, Repr

inductive Delivery where
  | sent
  | full
  | closed
  /-- There is no stream to send on. -/
  | noStream
  deriving DecidableEq, Repr

namespace Feed

def fresh : Feed := ⟨[], true, true⟩

def send (f : Feed) (capacity : Nat) (event : HeadEvent) : Feed × Delivery :=
  if !f.receiverOpen then (f, .closed)
  else if f.queue.length < capacity then ({ f with queue := f.queue ++ [event] }, .sent)
  else (f, .full)

def dropSender (f : Feed) : Feed := { f with senderOpen := false }

/-- What was not read is lost. -/
def dropReceiver (f : Feed) : Feed := { f with queue := [], receiverOpen := false }

/-- Whether a reader has something to see: an event or the end. -/
def isReady (f : Feed) : Bool := !f.queue.isEmpty || !f.senderOpen

end Feed

end CommitteeSync
