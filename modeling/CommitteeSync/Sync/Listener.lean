/-
  CommitteeSync.Sync.Listener — head events one after another.

  Events are handled in the order they were sent, each to its end before the next is taken,
  whatever its outcome. The listener stops when its token is cancelled or when the stream has
  ended. Before every event it waits for both at once and for either in no order: with a
  cancelled token and an event or the end of the stream, which of them it meets is up to the
  surroundings (`Setup.lag`). So it may still take events after it was cancelled, or find the
  end of the stream; with nothing in an open stream, the token is what it meets.
-/

import CommitteeSync.Sync.HeadUpdate

namespace CommitteeSync

/-- Why a listener stopped. -/
inductive ListenerExit where
  | shutdown
  | streamClosed
  deriving DecidableEq, Repr

/-- How it is logged. -/
def ListenerExit.event : ListenerExit → Event
  | .shutdown => .listenerShutDown
  | .streamClosed => .streamClosed

inductive Listener where
  | idle
  | handling (u : HeadUpdate)
  deriving DecidableEq, Repr

namespace Listener

def waitsFor (env : Setup) (token : Token) (feed : Nat) : Listener → Wait
  | .idle => .feed feed token
  | .handling u => u.waitsFor env token

/-- The listener stops and lets go of its stream. -/
def stop (feed : Nat) (sh : Shared) (exit : ListenerExit) : Shared × Turn Listener ListenerExit :=
  ((sh.log exit.event).updateFeed feed Feed.dropReceiver, .ends exit)

/-- Takes the events that are there until one has to wait. A cancelled token gives way to the
    stream `lag` times, as long as the stream has an event or its end to show. -/
def serve (env : Setup) (token : Token) (feed : Nat) (sh : Shared) (lag : Nat) :
    List HeadEvent → Shared × Turn Listener ListenerExit
  | [] =>
    if sh.isCancelled token ∧ ((sh.feed feed).senderOpen ∨ lag = 0) then stop feed sh .shutdown
    else if (sh.feed feed).senderOpen then (sh, .waits .idle)
    else stop feed sh .streamClosed
  | event :: rest =>
    if sh.isCancelled token ∧ lag = 0 then stop feed sh .shutdown
    else
      match HeadUpdate.start env event (sh.updateFeed feed fun f => { f with queue := rest }) with
      | (sh, .waits u) => (sh, .waits (.handling u))
      | (sh, .ends _) => serve env token feed sh (lag - 1) rest

/-- Takes the next events. -/
def takeNext (env : Setup) (token : Token) (feed : Nat) (sh : Shared) : Shared × Turn Listener ListenerExit :=
  serve env token feed sh (env.lag sh) (sh.feed feed).queue

def start (env : Setup) (token : Token) (feed : Nat) (sh : Shared) : Shared × Turn Listener ListenerExit :=
  takeNext env token feed (sh.log .listening)

def resume (env : Setup) (guard : Guard) (token : Token) (feed : Nat) (sh : Shared) (l : Listener) (reply : Reply) :
    Shared × Turn Listener ListenerExit :=
  match l with
  | .idle => takeNext env token feed sh
  | .handling u =>
    Turn.andThen (u.resume env guard token sh reply) .handling (fun sh _ => takeNext env token feed sh)

end Listener

end CommitteeSync
