/-
  CommitteeSync.Sync.Work — everything that can be asked of a synchronizer, and the task
  that each request becomes.

  Some requests go to the service and share its gate; others use one part of it by itself,
  with the parts' gate where they need one. The background run is two requests, the reporter
  and startup, that are made together when it is launched. A request does nothing until its
  task has its first turn.
-/

import CommitteeSync.Sync.CatchUp
import CommitteeSync.Sync.Reporter
import CommitteeSync.Sync.Startup
import CommitteeSync.Sync.Supervisor

namespace CommitteeSync

/-- What becomes of a transaction in the end. -/
inductive TxEnd where
  | commit
  | cancel
  | drop
  deriving DecidableEq, Repr

inductive Request where
  | catchUp (token : Token)
  | range (token : Token) (resume target : Epoch)
  | head (guard : Guard) (token : Token) (event : HeadEvent)
  | latestEpoch
  | readRecord
  | writeEpoch (token : Token) (epoch : Epoch)
  /-- Stages an epoch's committees in a transaction of its own. -/
  | stage (epoch : Epoch) (ending : TxEnd)
  | pass (token : Token) (resume target : Epoch)
  /-- Listens on a stream that is open already. -/
  | listen (token : Token) (feed : Nat)
  | waitForFatal
  | stop
  | runnerStart (root : Token)
  | runnerStop (root : Token)
  | runnerRun (root : Token)
  | reporter
  | startup
  deriving DecidableEq, Repr

/-- What a task's work came to. -/
inductive Outcome where
  | catchUp (r : CatchUp.Result)
  | range (r : Option Report)
  | head (o : HeadOutcome)
  | latestEpoch (r : Except Cause Epoch)
  | record (r : Except Cause Record)
  | epoch (r : EpochWrite.Result)
  | staged (r : Except Cause Nat) (committees : Nat)
  | pass (r : Report)
  | listened (e : ListenerExit)
  | fatal (cause : Cause)
  | stopped (r : Stopping.Result)
  | startup
  | reporter
  deriving Repr

/-- A task between two turns. -/
inductive Work where
  /-- Asked for and not run yet. -/
  | asked (r : Request)
  | catchUp (token : Token) (c : CatchUp)
  | range (token : Token) (r : RangePass)
  | head (guard : Guard) (token : Token) (u : HeadUpdate)
  | latestEpoch
  | readRecord
  | writeEpoch (token : Token) (epoch : Epoch) (w : EpochWrite)
  | stage (epoch : Epoch) (ending : TxEnd) (s : Staging)
  | pass (token : Token) (p : Pass)
  | listen (token : Token) (feed : Nat) (l : Listener)
  | waitForFatal
  | stop (s : Stopping)
  | runner (root : Token) (s : Supervisor)
  | reporter (r : Reporter)
  | startup (s : Startup)
  deriving DecidableEq, Repr

namespace Work

abbrev Result := Shared × Turn Work Outcome

/-- What the task waits for. -/
def waitsFor (env : Setup) (run : Token) : Work → Wait
  | .asked _ => .start
  | .catchUp token c => c.waitsFor env token
  | .range token r => r.pass.waitsFor env token
  | .head _ token u => u.waitsFor env token
  | .latestEpoch | .readRecord => .reply (.metadata env.metadataKey) none
  | .writeEpoch token epoch w => w.waitsFor env token epoch
  | .stage epoch _ s => .reply (s.call env epoch) none
  | .pass token p => p.waitsFor env token
  | .listen token feed l => l.waitsFor env token feed
  | .waitForFatal => .fatal
  | .stop s => s.waitsFor
  | .runner root s => s.waitsFor root
  | .reporter r => r.waitsFor run
  | .startup s => s.waitsFor env run

/-! ## How each piece of work ends -/

def ending {ρ : Type} (outcome : ρ → Outcome) (sh : Shared) (r : ρ) : Result := (sh, .ends (outcome r))

/-- The transaction of a staging request ends as it was told to. -/
def endStage (ending : TxEnd) (sh : Shared) (r : Staging.Result) : Result :=
  let store :=
    match ending with
    | .commit => sh.store.commit r.1
    | .cancel => sh.store.cancel
    | .drop => sh.store
  ({ sh with store }, .ends (.staged r.2 r.1.staged))

def endStartup (sh : Shared) (_ : Unit) : Result :=
  ({ sh with background := { sh.background with startupEnded := true } }, .ends .startup)

def endReporter (sh : Shared) (_ : Unit) : Result :=
  ({ sh with background := { sh.background with reporterEnded := true } }, .ends .reporter)

/-- Ends with the fatal error once there is one. -/
def lookForFatal (sh : Shared) : Result :=
  match sh.captured with
  | some cause => (sh, .ends (.fatal cause))
  | none => (sh, .waits .waitForFatal)

/-! ## Turns -/

/-- The first turn of a request. -/
def start (env : Setup) (sh : Shared) : Request → Result
  | .catchUp token => Turn.andThen (CatchUp.start env sh) (.catchUp token) (ending .catchUp)
  | .range token resume target => Turn.andThen (RangePass.start token resume target sh) (.range token) (ending .range)
  | .head guard token event => Turn.andThen (HeadUpdate.start env event sh) (.head guard token) (ending .head)
  | .latestEpoch => (sh.askRecord env, .waits .latestEpoch)
  | .readRecord => (sh.askRecord env, .waits .readRecord)
  | .writeEpoch token epoch => Turn.andThen (EpochWrite.start token epoch sh) (.writeEpoch token epoch) (ending .epoch)
  | .stage epoch ending =>
    match Staging.start env epoch Transaction.empty sh.beginTx with
    | (sh, s) => (sh, .waits (.stage epoch ending s))
  | .pass token resume target => Turn.andThen (Pass.start token resume target sh) (.pass token) (ending .pass)
  | .listen token feed => Turn.andThen (Listener.start env token feed sh) (.listen token feed) (ending .listened)
  | .waitForFatal => lookForFatal sh
  | .stop => Turn.andThen (Stopping.start sh) .stop (ending .stopped)
  | .runnerStart root => Turn.andThen (Supervisor.start root sh) (.runner root) (ending .stopped)
  | .runnerStop root => Turn.andThen (Supervisor.stop root sh) (.runner root) (ending .stopped)
  | .runnerRun root => Turn.andThen (Supervisor.run env root sh) (.runner root) (ending .stopped)
  | .reporter => Turn.andThen (Reporter.start env sh.runToken sh) .reporter endReporter
  | .startup => Turn.andThen (Startup.start env sh) .startup endStartup

/-- The next turn of a task. The reply matters only if the task waits for one. -/
def resume (env : Setup) (sh : Shared) (w : Work) (reply : Reply) : Result :=
  match w with
  | .asked r => start env sh r
  | .catchUp token c => Turn.andThen (c.resume env token sh reply) (.catchUp token) (ending .catchUp)
  | .range token r => Turn.andThen (r.resume env token sh reply) (.range token) (ending .range)
  | .head guard token u => Turn.andThen (u.resume env guard token sh reply) (.head guard token) (ending .head)
  | .latestEpoch => (sh, .ends (.latestEpoch ((sh.readRecord env reply).map (·.latestEpoch))))
  | .readRecord => (sh, .ends (.record (sh.readRecord env reply)))
  | .writeEpoch token epoch w =>
    Turn.andThen (w.resume env token epoch sh reply) (.writeEpoch token epoch) (ending .epoch)
  | .stage epoch ending s => Turn.andThen (s.resume env epoch sh reply) (.stage epoch ending) (endStage ending)
  | .pass token p => Turn.andThen (p.resume env token sh reply) (.pass token) (ending .pass)
  | .listen token feed l =>
    Turn.andThen (l.resume env .parts token feed sh reply) (.listen token feed) (ending .listened)
  | .waitForFatal => lookForFatal sh
  | .stop s => Turn.andThen (s.resume sh) .stop (ending .stopped)
  | .runner root s => Turn.andThen (s.resume env root sh) (.runner root) (ending .stopped)
  | .reporter r => Turn.andThen (r.resume env sh.runToken sh) .reporter endReporter
  | .startup s => Turn.andThen (s.resume env sh.runToken sh reply) .startup endStartup

end Work

end CommitteeSync
