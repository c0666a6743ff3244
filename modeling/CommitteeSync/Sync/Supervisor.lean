/-
  CommitteeSync.Sync.Supervisor — starting and stopping the background run.

  Starting is done at most once in a lifetime; while the run's handle is held, starting
  again does nothing. Stopping cancels the run, waits for startup to end, then for the
  reporter, and gives the fatal error if there was one. The supervisor may also wait to be
  interrupted, from outside or by its root token, and then stops.
-/

import CommitteeSync.Sync.Turn

namespace CommitteeSync

/-! ## Stopping -/

inductive Stopping where
  /-- Waits for startup to end. -/
  | startup
  /-- Waits for the reporter to end. -/
  | reporter (failure : Option Cause)
  deriving DecidableEq, Repr

namespace Stopping

abbrev Result := Except Cause Unit

def waitsFor : Stopping → Wait
  | .startup => .startupEnd
  | .reporter _ => .reporterEnd

def outcome : Option Cause → Result
  | none => .ok ()
  | some cause => .error (.aborted cause)

def joinReporter (failure : Option Cause) (sh : Shared) : Shared × Turn Stopping Result :=
  if sh.background.reporterEnded then (sh, .ends (outcome failure)) else (sh, .waits (.reporter failure))

def joinStartup (sh : Shared) : Shared × Turn Stopping Result :=
  if sh.background.startupEnded then joinReporter sh.captured (sh.cancel sh.runToken) else (sh, .waits .startup)

/-- Takes the handle, cancels the run and waits for it. -/
def start (sh : Shared) : Shared × Turn Stopping Result := joinStartup (sh.takeHandle.cancel sh.runToken)

def resume (sh : Shared) : Stopping → Shared × Turn Stopping Result
  | .startup => joinStartup sh
  | .reporter failure => joinReporter failure sh

end Stopping

/-! ## Supervising -/

inductive Supervisor where
  /-- Waits to be interrupted. -/
  | running
  | stopping (s : Stopping)
  deriving DecidableEq, Repr

namespace Supervisor

abbrev Result := Stopping.Result

def waitsFor (root : Token) : Supervisor → Wait
  | .running => .interrupt root
  | .stopping s => s.waitsFor

/-- Launches the run unless it is there. -/
def launch (root : Token) (sh : Shared) : Shared × Result :=
  if sh.background.held then (sh, .ok ())
  else if sh.background.launched then (sh, .error .alreadyRan)
  else (sh.launch root, .ok ())

def start (root : Token) (sh : Shared) : Shared × Turn Supervisor Result :=
  match launch root sh with
  | (sh, result) => (sh, .ends result)

/-- Cancels everything under the root; without a run there is nothing to stop. -/
def stop (root : Token) (sh : Shared) : Shared × Turn Supervisor Result :=
  if sh.background.held then Turn.andThen (Stopping.start (sh.cancel root)) .stopping (fun sh r => (sh, .ends r))
  else (sh, .ends (.ok ()))

/-- Stops as soon as there is a reason to; with two of them it meets either. -/
def watch (env : Setup) (root : Token) (sh : Shared) : Shared × Turn Supervisor Result :=
  if sh.isCancelled root ∧ (!sh.interrupt ∨ env.lag sh = 0) then stop root (sh.log .runnerCancelled)
  else if sh.interrupt then stop root (sh.log .runnerInterrupted)
  else (sh, .waits .running)

/-- Launches the run and watches it. -/
def run (env : Setup) (root : Token) (sh : Shared) : Shared × Turn Supervisor Result :=
  match launch root sh with
  | (sh, .error cause) => (sh, .ends (.error cause))
  | (sh, .ok ()) => watch env root (sh.log .runnerStarted)

def resume (env : Setup) (root : Token) (sh : Shared) : Supervisor → Shared × Turn Supervisor Result
  | .running => watch env root sh
  | .stopping s => Turn.andThen (s.resume sh) .stopping (fun sh r => (sh, .ends r))

end Supervisor

end CommitteeSync
