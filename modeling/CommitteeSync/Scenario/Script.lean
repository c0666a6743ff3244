/-
  CommitteeSync.Scenario.Script — the commands of a script, and what can be seen after each.

  A request is answered when it is made only by the fact that it was made; its outcome is
  seen after the command in which its task ends. Every command also shows the calls made,
  the stored record, the counters and the tokens cancelled so far.
-/

import CommitteeSync.Config.Basic
import CommitteeSync.Scenario.World

namespace CommitteeSync.Scenario

/-! ## Opening -/

/-- What a scenario starts from. -/
structure Opening where
  config : Config
  layout : Layout
  /-- How many slots of an epoch have committees unless the script says otherwise. -/
  slotsServed : Nat
  /-- How many committees each of these slots has. -/
  perSlot : Nat
  capacity : Nat
  /-- Whether the store can keep committees at all. -/
  setter : Bool
  metadata : List (String × Bytes)
  clock : List Epoch
  /-- Whether a supervisor runs the service. -/
  runner : Bool

/-- Up to `n` slots from `first` on; there is none after the last. -/
def slotsFrom (first : Slot) : Nat → List Slot
  | 0 => []
  | n + 1 => first :: if first = lastWord then [] else slotsFrom (first + 1) n

/-- The committees that are served by default: each one's validators are its slot and index. -/
def servedByDefault (slots perSlot : Nat) (stateSlot : Slot) : List Assignment :=
  (slotsFrom stateSlot slots).flatMap fun slot =>
    (List.range perSlot).map fun index => ⟨slot, UInt64.ofNat index, [slot, UInt64.ofNat index]⟩

/-- The script's name for the supervisor's root token. -/
def runnerName : String := "runner"

/-- The script's name for the token of a spawned run. -/
def handleName : String := "handle"

namespace Opening

def shared (o : Opening) : Shared :=
  { store := o.metadata.foldl (fun s kv => s.putMetadata kv.1 kv.2) Store.empty
    chain := servedByDefault o.slotsServed o.perSlot
    clock := o.clock
    telemetry := Telemetry.zero
    serviceGate := Gate.free
    partsGate := Gate.free
    tokens := Tokens.none
    background := Background.absent
    feeds := []
    current := none
    now := 0
    interrupt := false
    trace := #[]
    events := #[]
    metrics := #[] }

def setup (o : Opening) : Setup :=
  { layout := o.layout
    metadataKey := o.config.metadataKey
    startOverride := o.config.startEpoch
    metricsInterval := o.config.metricsInterval
    capacity := o.capacity
    -- No script has a cancelled token and the other thing there at once.
    lag := fun _ => 0 }

/-- The world before the first command; a store that cannot keep committees is refused. -/
def world (o : Opening) : Except Cause World :=
  if o.setter then
    .ok
      { env := o.setup
        system := ⟨o.shared, []⟩
        closed := []
        held := []
        faults := []
        ready := []
        since := []
        waits := 0
        tokens := if o.runner then [(runnerName, .root 0)] else []
        roots := 1
        requests := []
        runner := if o.runner then some (.root 0) else none
        watching := none
        permit := false }
  else .error .unsupportedStore

end Opening

/-! ## Commands -/

inductive Command where
  | setClock (readings : List Epoch)
  | serve (stateSlot : Slot) (assignments : List Assignment)
  | seed (value : Bytes)
  | addFault (f : Fault)
  | heal
  | close (gate : String)
  | openGate (gate : String)
  | pass (gate : String) (n : Nat)
  | cancel (token : String)
  | advance (milliseconds : Nat)
  | observe
  | committees
  | catchUp (id token : String)
  | range (id token : String) (resume target : Epoch)
  | head (id token : String) (event : HeadEvent)
  | latestEpoch (id : String)
  | spawn (token : String)
  | push (events : List HeadEvent)
  | closeStream
  | finished
  | fatalError
  | waitForFatal (id : String)
  | stop (id : String)
  | runnerStart (id : String)
  | runnerStop (id : String)
  | runnerRun (id : String)
  | interrupt
  | writeEpoch (id token : String) (epoch : Epoch)
  | stage (id : String) (epoch : Epoch) (ending : TxEnd)
  | readRecord (id : String)
  | runPass (id token : String) (resume target : Epoch)
  | partHead (id token : String) (event : HeadEvent)
  | listen (id token : String)
  | enter
  | exit
  | guardActive
  deriving Repr

/-- What a command says at once. -/
inductive Response where
  | ok
  /-- A request was made. -/
  | called
  | spawned
  | noTask
  | noHandle
  | inUse
  | noRunner
  | nothing
  | flag (b : Bool)
  | count (n : Nat)
  | deliveries (ds : List Delivery)
  | error (cause : Cause)
  | entries (es : List Entry)
  deriving Repr

namespace World

def say (r : Response) (w : World) : World × Response := (w, r)

/-- A request with a token. -/
def requestUnder (w : World) (id token : String) (r : Token → Request) : World × Response :=
  match w.token token with
  | (w, t) => (w.request id (r t)).say .called

/-- Whether the script holds the handle of a run that it spawned. -/
def holdsHandle (w : World) : Bool := w.runner.isNone && w.shared.background.held

def hasWork (w : World) (p : Work → Bool) : Bool :=
  w.system.tasks.any fun t =>
    match t with
    | .active work => p work
    | .ended _ => false

def isWaitingForFatal : Work → Bool
  | .waitForFatal => true
  | _ => false

def isSupervising : Work → Bool
  | .runner _ _ => true
  | _ => false

/-- A request to the supervisor, which takes one at a time. -/
def requestRunner (w : World) (id : String) (r : Token → Request) : World × Response :=
  match w.runner with
  | none => w.say .noRunner
  | some root => if w.hasWork isSupervising then w.say .inUse else (w.request id (r root)).say .called

/-- Sends events on the current stream. -/
def sendAll (capacity : Nat) : List HeadEvent → Shared → Shared × List Delivery
  | [], sh => (sh, [])
  | e :: rest, sh =>
    match sh.send capacity e with
    | (sh, d) =>
      match sendAll capacity rest sh with
      | (sh, ds) => (sh, d :: ds)

def serve (stateSlot : Slot) (assignments : List Assignment) (sh : Shared) : Shared :=
  { sh with chain := fun s => if s = stateSlot then assignments else sh.chain s }

def spawn (w : World) (token : String) : World × Response :=
  if w.runner.isSome || w.shared.background.launched then w.say .noTask
  else
    match w.token token with
    | (w, root) =>
      let w := { w with system := w.system.launch root }
      ((w.nameToken handleName w.shared.runToken).collect.drain).say .spawned

/-- A listener on a new stream; whoever listened on the current one sees its end first. -/
def listen (w : World) (id token : String) : World × Response :=
  match w.shared.openFeed with
  | (sh, feed) => ((w.change fun _ => sh).collect).requestUnder id token (.listen · feed)

/-- Tries the parts' gate for the script itself. -/
def enter (w : World) : World × Response :=
  match w.shared.partsGate.enter? with
  | none => w.say (.flag false)
  | some gate => ({ w with permit := true }.change fun sh => { sh with partsGate := gate }).say (.flag true)

/-- Gives the script's permit back. -/
def exit (w : World) : World × Response :=
  if w.permit then ({ w with permit := false }.change fun sh => sh.exit .parts).say (.flag true)
  else w.say (.flag false)

/-- Asks the supervisor to stop, if it is running until interrupted. -/
def interrupt (w : World) : World × Response :=
  if w.watching.any w.isActive then (w.disturb fun sh => { sh with interrupt := true }).say (.flag true)
  else w.say (.flag false)

def perform (w : World) : Command → World × Response
  | .setClock readings => (w.change fun sh => { sh with clock := readings }).say .ok
  | .serve stateSlot assignments => (w.change (serve stateSlot assignments)).say .ok
  | .seed value => (w.change fun sh => { sh with store := sh.store.putMetadata w.env.metadataKey value }).say .ok
  | .addFault f => { w with faults := w.faults ++ [f] }.say .ok
  | .heal => { w with faults := [] }.say .ok
  | .close gate => (w.closeGate gate).say .ok
  | .openGate gate =>
    match w.openGate gate with
    | (w, n) => w.say (.count n)
  | .pass gate n =>
    match release gate n w with
    | (w, released) => w.say (.count released)
  | .cancel token =>
    match w.token token with
    | (w, t) => (w.disturb (·.cancel t)).say .ok
  | .advance milliseconds => (w.disturb fun sh => { sh with now := sh.now + milliseconds }).say .ok
  | .observe => w.say .nothing
  | .committees => w.say (.entries w.shared.store.entries)
  | .catchUp id token => w.requestUnder id token .catchUp
  | .range id token resume target => w.requestUnder id token (.range · resume target)
  | .head id token event => w.requestUnder id token (.head .service · event)
  | .latestEpoch id => (w.request id .latestEpoch).say .called
  | .spawn token => w.spawn token
  | .push events =>
    match sendAll w.env.capacity events w.shared with
    | (sh, deliveries) => (w.disturb fun _ => sh).say (.deliveries deliveries)
  | .closeStream => (w.disturb Shared.dropSender).say (.flag w.shared.current.isSome)
  | .finished => w.say (if w.holdsHandle then .flag w.shared.background.startupEnded else .nothing)
  | .fatalError =>
    w.say (match if w.holdsHandle then w.shared.captured else none with
      | some cause => .error cause
      | none => .nothing)
  | .waitForFatal id => if w.holdsHandle then (w.request id .waitForFatal).say .called else w.say .noHandle
  | .stop id =>
    if !w.holdsHandle then w.say .noHandle
    else if w.hasWork isWaitingForFatal then w.say .inUse
    else (w.request id .stop).say .called
  | .runnerStart id => w.requestRunner id .runnerStart
  | .runnerStop id => w.requestRunner id .runnerStop
  | .runnerRun id =>
    let task := w.system.tasks.length
    match w.requestRunner id .runnerRun with
    | (w, .called) => { w with watching := some task }.say .called
    | answered => answered
  | .interrupt => w.interrupt
  | .writeEpoch id token epoch => w.requestUnder id token (.writeEpoch · epoch)
  | .stage id epoch ending => (w.request id (.stage epoch ending)).say .called
  | .readRecord id => (w.request id .readRecord).say .called
  | .runPass id token resume target => w.requestUnder id token (.pass · resume target)
  | .partHead id token event => w.requestUnder id token (.head .parts · event)
  | .listen id token => w.listen id token
  | .enter => w.enter
  | .exit => w.exit
  | .guardActive => w.say (.flag w.shared.partsGate.held)

/-! ## Observations -/

end World

/-- What can be seen after a command. -/
structure Observation where
  response : Response
  /-- Requests that ended with this command, by name. -/
  ended : List (String × Outcome)
  /-- What was done with collaborators during the command. -/
  trace : List Mark
  /-- The stored bytes of the record. -/
  record : Option Bytes
  store : Store
  telemetry : Telemetry
  catchingUp : Bool
  /-- The names of the tokens that are cancelled, sorted. -/
  cancelled : List String
  events : List Event
  metrics : List Metrics

/-- Pairs in increasing order of their names. -/
def sortByName {α : Type} (l : List (String × α)) : List (String × α) := l.mergeSort fun a b => !(b.1 < a.1)

namespace World

def outcomes (w : World) : List (String × Outcome) :=
  w.requests.filterMap fun r => (w.system.outcome? r.1).map fun o => (r.2, o)

/-- The names of requests that have not ended, sorted. -/
def pending (w : World) : List String :=
  (sortByName ((w.requests.filter fun r => w.isActive r.1).map fun r => (r.2, ()))).map (·.1)

def observation (w : World) (response : Response) : Observation :=
  { response
    ended := sortByName w.outcomes
    trace := w.shared.trace.toList
    record := w.shared.store.readMetadata w.env.metadataKey
    store := w.shared.store
    telemetry := w.shared.telemetry
    catchingUp := w.shared.serviceGate.held
    cancelled := (sortByName (w.tokens.filter fun t => w.shared.isCancelled t.2)).map (·.1)
    events := w.shared.events.toList
    metrics := w.shared.metrics.toList }

/-- Forgets what has been seen. -/
def clear (w : World) : World :=
  { w with requests := w.requests.filter fun r => w.isActive r.1 }.change fun sh =>
    { sh with trace := #[], events := #[], metrics := #[] }

/-- One command and what is seen after it. -/
def step (w : World) (c : Command) : World × Observation :=
  match w.perform c with
  | (w, response) => (w.clear, w.observation response)

/-- A whole script. -/
def run (w : World) : List Command → World × List Observation
  | [] => (w, [])
  | c :: rest =>
    match w.step c with
    | (w, seen) =>
      match run w rest with
      | (w, more) => (w, seen :: more)

end World

end CommitteeSync.Scenario
