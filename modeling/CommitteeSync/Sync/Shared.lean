/-
  CommitteeSync.Sync.Shared — the state that all tasks share, and the operations on it.

  The collaborators (store, chain, clock, head streams) and the synchronizer's own state
  (telemetry, gates, tokens, the background run) are one record. Every operation here takes
  effect at once: tasks wait only between them.
-/

import CommitteeSync.Chain.Schedule
import CommitteeSync.Fatal.Handler
import CommitteeSync.Guard.Gate
import CommitteeSync.Sync.Call
import CommitteeSync.Sync.Event
import CommitteeSync.Sync.Feed

namespace CommitteeSync

/-- The background run: startup and reporter, launched at most once. -/
structure Background where
  handler : Handler
  launched : Bool
  /-- Whether someone still holds the run's handle. -/
  held : Bool
  startupEnded : Bool
  reporterEnded : Bool
  deriving DecidableEq, Repr

def Background.absent : Background := ⟨Handler.new (.root 0) (.child 0), false, false, false, false⟩

/-- Which gate guards a pass: the service's, or the one of updates handled apart from it. -/
inductive Guard where
  | service
  | parts
  deriving DecidableEq, Repr

structure Shared where
  store : Store
  /-- The assignments served for the state at a slot. -/
  chain : Slot → List Assignment
  /-- Readings to come; the last one stays. -/
  clock : List Epoch
  telemetry : Telemetry
  serviceGate : Gate
  partsGate : Gate
  tokens : Tokens
  background : Background
  feeds : List Feed
  /-- The stream whose sender the chain still has. -/
  current : Option Nat
  /-- Milliseconds since the start. -/
  now : Nat
  /-- Whether the supervisor was asked to stop from outside. -/
  interrupt : Bool
  trace : Array Mark
  events : Array Event
  metrics : Array Metrics

/-- What is fixed for the life of a synchronizer, with the choices its surroundings will make. -/
structure Setup where
  layout : Layout
  metadataKey : String
  /-- Where startup begins instead of after stored progress. -/
  startOverride : Option Epoch
  metricsInterval : Span
  /-- How many unread events a head stream holds. -/
  capacity : Nat
  /-- How often from here on the other thing a task waits for comes before its cancelled token.
      A wait for two things that are both there is free to end with either. What it ends with is
      noted, so no state is met by two such waits. -/
  lag : Shared → Nat

namespace Shared

/-! ## Notes -/

def mark (sh : Shared) (m : Mark) : Shared := { sh with trace := sh.trace.push m }

/-- Notes that a call was made. -/
def make (sh : Shared) (c : Call) : Shared := sh.mark (.call c)

def log (sh : Shared) (e : Event) : Shared := { sh with events := sh.events.push e }

def report (sh : Shared) (m : Metrics) : Shared := { sh with metrics := sh.metrics.push m }

def count (sh : Shared) (s : Telemetry.Step) : Shared := { sh with telemetry := sh.telemetry.apply s }

/-! ## Tokens -/

def isCancelled (sh : Shared) (t : Token) : Bool := sh.tokens.isCancelled t

def cancel (sh : Shared) (t : Token) : Shared := { sh with tokens := sh.tokens.cancel t }

/-! ## Clock -/

/-- The next reading of the clock. -/
def readClock (sh : Shared) : Shared × Epoch :=
  match sh.clock with
  | [] => (sh.mark (.clock 0), 0)
  | [e] => (sh.mark (.clock e), e)
  | e :: later => ({ sh with clock := later }.mark (.clock e), e)

/-! ## Store -/

def beginTx (sh : Shared) : Shared := { sh with store := sh.store.begin }

def commitTx (sh : Shared) (tx : Transaction) : Shared := { sh with store := sh.store.commit tx }

def cancelTx (sh : Shared) (tx : Transaction) : Shared :=
  { sh with store := sh.store.cancel }.mark (.cancelTx tx.staged)

/-! ## Gates -/

def gate (sh : Shared) : Guard → Gate
  | .service => sh.serviceGate
  | .parts => sh.partsGate

def setGate (sh : Shared) (g : Guard) (gate : Gate) : Shared :=
  match g with
  | .service => { sh with serviceGate := gate }
  | .parts => { sh with partsGate := gate }

/-- Admission through a gate; a denial is counted and logged. -/
def enter (sh : Shared) (g : Guard) (denial : Event) : Shared × Bool :=
  match (sh.gate g).enter? with
  | some entered => (sh.setGate g entered, true)
  | none => ((sh.count .guardDenial).log denial, false)

def exit (sh : Shared) (g : Guard) : Shared := sh.setGate g (sh.gate g).exit

/-! ## Head streams -/

def feed (sh : Shared) (id : Nat) : Feed := (sh.feeds[id]?).getD ⟨[], false, false⟩

def updateFeed (sh : Shared) (id : Nat) (f : Feed → Feed) : Shared := { sh with feeds := sh.feeds.modify id f }

/-- The sender of the current stream goes away. -/
def dropSender (sh : Shared) : Shared :=
  match sh.current with
  | some id => { sh.updateFeed id Feed.dropSender with current := none }
  | none => sh

/-- A new stream takes the place of the current one. -/
def openFeed (sh : Shared) : Shared × Nat :=
  let sh := sh.dropSender
  ({ sh with feeds := sh.feeds ++ [Feed.fresh], current := some sh.feeds.length }, sh.feeds.length)

/-- Sends on the current stream. -/
def send (sh : Shared) (capacity : Nat) (event : HeadEvent) : Shared × Delivery :=
  match sh.current with
  | none => (sh, .noStream)
  | some id =>
    let (feed, delivery) := (sh.feed id).send capacity event
    (sh.updateFeed id fun _ => feed, delivery)

/-! ## The background run -/

/-- The child of a root token. -/
def childOf : Token → Token
  | .root n => .child n
  | .child n => .child n

/-- The run token of the background run. -/
def runToken (sh : Shared) : Token := sh.background.handler.run

/-- A background run under `root` comes to life. -/
def launch (sh : Shared) (root : Token) : Shared :=
  { sh with background := ⟨Handler.new root (childOf root), true, true, false, false⟩ }

/-- The run's handle goes to the one who stops the run. -/
def takeHandle (sh : Shared) : Shared := { sh with background := { sh.background with held := false } }

def captured (sh : Shared) : Option Cause := sh.background.handler.captured

/-- An error that the run cannot recover from; only the first one counts and is logged. -/
def fail (sh : Shared) (context : String) (cause : Cause) : Shared :=
  let (handler, tokens, _) := sh.background.handler.trigger sh.tokens context cause
  let sh := if sh.background.handler.isTriggered then sh else sh.log (.fatal context cause)
  { sh with tokens, background := { sh.background with handler } }

end Shared

end CommitteeSync
