/-
  CommitteeSync.Sync.Startup — the background task.

  It reads the stored record, catches up with the head under the guard, and then handles
  head events until it is shut down. A guard that is taken ends it quietly. Catching up may
  fail and head events are subscribed to all the same. Three conditions are fatal: a record
  that cannot be read, a subscription that fails, and a stream that ends by itself.
-/

import CommitteeSync.Sync.Follow
import CommitteeSync.Sync.Listener

namespace CommitteeSync

inductive Startup where
  /-- Waits for the record. -/
  | reading
  | following (f : Follow)
  | subscribing
  | listening (feed : Nat) (l : Listener)
  deriving DecidableEq, Repr

namespace Startup

def waitsFor (env : Setup) (token : Token) : Startup → Wait
  | .reading => .reply (.metadata env.metadataKey) none
  | .following f => f.waitsFor env token
  | .subscribing => .reply .subscribe (some token)
  | .listening feed l => l.waitsFor env token feed

def unreadable : String := "failed to obtain metadata before catch-up"

def unsubscribed : String := "failed to add beacon chain head updated handler"

def stopped : String := "beacon chain head updates stopped"

def start (env : Setup) (sh : Shared) : Shared × Turn Startup Unit := (sh.askRecord env, .waits .reading)

/-- After listening. -/
def finish (sh : Shared) : ListenerExit → Shared × Turn Startup Unit
  | .shutdown => (sh, .ends ())
  | .streamClosed => (sh.fail stopped .streamClosed, .ends ())

/-- Once subscribed. -/
def listen (env : Setup) (token : Token) (sh : Shared) : Shared × Turn Startup Unit :=
  match sh.openFeed with
  | (sh, feed) => Turn.andThen (Listener.start env token feed sh) (.listening feed) finish

/-- After catching up: the guard is released and the head subscribed to. -/
def subscribe (token : Token) (sh : Shared) (report : Report) : Shared × Turn Startup Unit :=
  let sh := (sh.exit .service).log (.startupCaughtUp report)
  if sh.isCancelled token then (sh, .ends ()) else (sh.make .subscribe, .waits .subscribing)

/-- Once the record is known. -/
def catchUp (env : Setup) (token : Token) (sh : Shared) : Except Cause Record → Shared × Turn Startup Unit
  | .error cause => (sh.fail unreadable cause, .ends ())
  | .ok record =>
    let resume := record.resumePoint env.startOverride
    match (sh.log (.startupResumes resume record.latestEpoch env.startOverride)).enter .service (.passDenied .startup) with
    | (sh, false) => (sh, .ends ())
    | (sh, true) => Turn.andThen (Follow.start token resume sh) .following (subscribe token)

def resume (env : Setup) (token : Token) (sh : Shared) (s : Startup) (reply : Reply) : Shared × Turn Startup Unit :=
  match s with
  | .reading => catchUp env token sh (sh.readRecord env reply)
  | .following f => Turn.andThen (f.resume env token sh reply) .following (subscribe token)
  | .subscribing =>
    if sh.isCancelled token then (sh, .ends ())
    else
      match reply with
      | .failed cause => (sh.fail unsubscribed cause, .ends ())
      | .granted => listen env token sh
  | .listening feed l =>
    Turn.andThen (l.resume env .service token feed sh reply) (.listening feed) finish

end Startup

end CommitteeSync
