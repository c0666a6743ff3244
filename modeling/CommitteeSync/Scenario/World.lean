/-
  CommitteeSync.Scenario.World — a synchronizer whose surroundings follow a script.

  Calls may be held at named gates and may be failed by rules; otherwise they are granted.
  Tasks take turns in the order in which they became ready, and one that is granted its call
  goes on at once. Tasks that become ready in the same turn go by the token that readied
  them, child tokens before roots, and then in the order in which they began to wait; a put
  keeps the place of the fetch before it, since one interruptible wait covers both.
-/

import CommitteeSync.Scenario.Fault
import CommitteeSync.Sync.System

namespace CommitteeSync.Scenario

/-- A task whose turn it is. -/
structure Ready where
  task : Nat
  /-- Whether the call it waits for has been let through its gate. -/
  released : Bool
  deriving DecidableEq, Repr

/-- A task whose call is held at a gate. -/
structure Held where
  gate : String
  task : Nat
  deriving DecidableEq, Repr

structure World where
  env : Setup
  system : System
  closed : List String
  /-- In order of arrival. -/
  held : List Held
  faults : List Fault
  ready : List Ready
  /-- When each task began to wait, as a place in the order of all waits. -/
  since : List (Nat × Nat)
  waits : Nat
  tokens : List (String × Token)
  roots : Nat
  /-- Requests whose end has not been seen, by task. -/
  requests : List (Nat × String)
  /-- The root token of the supervisor, if there is one. -/
  runner : Option Token
  /-- The last request to run until interrupted. -/
  watching : Option Nat
  /-- Whether the script itself holds the permit of the parts' gate. -/
  permit : Bool

namespace World

def shared (w : World) : Shared := w.system.shared

def waitsFor? (w : World) (task : Nat) : Option Wait := w.system.waitsFor? w.env task

def isActive (w : World) (task : Nat) : Bool := (w.system.work? task).isSome

/-- Changes the shared state from outside of all tasks. -/
def change (w : World) (f : Shared → Shared) : World := { w with system := { w.system with shared := f w.system.shared } }

/-! ## Readiness -/

/-- Tasks readied by one turn go in the order of these ranks. -/
def rank : Wait → Nat
  | .reply _ (some token) | .feed _ token | .instant _ token | .interrupt token =>
    match token with
    | .child _ => 0
    | .root _ => 1
  | .reply _ none | .start | .fatal => 2
  | .startupEnd | .reporterEnd => 3

def waitsSince (w : World) (task : Nat) : Nat := (w.since.lookup task).getD 0

/-- Notes when a task began to wait. -/
def register (w : World) (task : Nat) : World :=
  match w.waitsFor? task with
  | none => w
  | some (.reply (.put _ _) _) => w
  | some _ =>
    { w with since := (task, w.waits) :: w.since.filter (fun s => s.1 != task), waits := w.waits + 1 }

/-- Whether a task can go on by itself: it has a call to be decided, or nothing to wait for. -/
def canGoOn (w : World) (task : Nat) : Bool :=
  match w.waitsFor? task with
  | none => false
  | some (.reply _ _) => true
  | some a => a.isReady w.shared

/-- Tasks that are ready and not yet queued, in the order they are queued. -/
def newlyReady (w : World) : List Nat :=
  let ids := (List.range w.system.tasks.length).filter fun task =>
    !(w.ready.any (·.task == task)) && (w.waitsFor? task).any (·.isReady w.shared)
  let key (task : Nat) : Nat × Nat := (((w.waitsFor? task).map rank).getD 0, w.waitsSince task)
  ids.mergeSort fun a b => (key a).1 < (key b).1 || ((key a).1 == (key b).1 && (key a).2 ≤ (key b).2)

/-- Queues what has become ready; it is held at no gate any more. -/
def collect (w : World) : World :=
  let ids := w.newlyReady
  { w with
    ready := w.ready ++ ids.map fun task => ⟨task, false⟩
    held := w.held.filter fun h => !ids.contains h.task }

/-- After a turn of `task`: it goes first if it can go on, and whatever it readied goes last. -/
def settle (w : World) (task : Nat) : World :=
  let w := w.register task
  (if w.canGoOn task then { w with ready := ⟨task, false⟩ :: w.ready } else w).collect

/-! ## Turns -/

/-- The gate that holds a call: the one with its key if that is closed, else the one of its place. -/
def gateFor (w : World) (c : Call) : Option String :=
  let keyed := c.place ++ ":" ++ c.key
  if w.closed.contains keyed then some keyed
  else if w.closed.contains c.place then some c.place
  else none

/-- Lets the rules decide on a call. -/
def judge (w : World) (c : Call) : World × Reply :=
  match Fault.consult c w.faults with
  | (faults, none) => ({ w with faults }, .granted)
  | (faults, some chain) => ({ w with faults }, .failed (.reported chain))

def resume (w : World) (task : Nat) (reply : Reply) : World :=
  { w with system := w.system.resume w.env task reply }.settle task

/-- The turn of a queued task. -/
def turn (w : World) (r : Ready) : World :=
  match w.waitsFor? r.task with
  | none => w
  | some wait =>
    if wait.isReady w.shared then w.resume r.task .granted
    else
      match wait with
      | .reply call _ =>
        match if r.released then none else w.gateFor call with
        | some gate => { w with held := w.held ++ [⟨gate, r.task⟩] }
        | none =>
          match w.judge call with
          | (w, reply) => w.resume r.task reply
      | _ => w

/-- Takes turns until every task waits, at most `turns` of them. -/
def drainWithin : Nat → World → World
  | 0, w => w
  | turns + 1, w =>
    match w.ready with
    | [] => w
    | r :: rest => drainWithin turns ({ w with ready := rest }.turn r)

/-- More turns than anyone will see taken. -/
def turnLimit : Nat := 1 <<< 62

/-- Takes turns until every task waits. -/
def drain (w : World) : World := drainWithin turnLimit w

/-! ## From outside -/

/-- Changes the shared state and lets the tasks take turns. -/
def disturb (w : World) (f : Shared → Shared) : World := (w.change f).collect.drain

/-- Makes a request under a name; its task's first turn comes after those of all tasks ready now. -/
def request (w : World) (name : String) (r : Request) : World :=
  let task := w.system.tasks.length
  ({ w with
    system := w.system.request r
    requests := w.requests ++ [(task, name)]
    ready := w.ready ++ [⟨task, false⟩] } : World).drain

/-- Lets the first waiter at a gate through. -/
def releaseOne (w : World) (gate : String) : Option World :=
  match w.held.find? (·.gate == gate) with
  | none => none
  | some h => some ({ w with held := w.held.erase h, ready := w.ready ++ [⟨h.task, true⟩] } : World).drain

/-- Lets up to `n` waiters through, one after another, and counts them. -/
def release (gate : String) : Nat → World → World × Nat
  | 0, w => (w, 0)
  | n + 1, w =>
    match w.releaseOne gate with
    | none => (w, 0)
    | some w =>
      match release gate n w with
      | (w, released) => (w, released + 1)

/-- The gate holds no call from now on. -/
def openGate (w : World) (gate : String) : World × Nat :=
  release gate w.held.length { w with closed := w.closed.filter (· != gate) }

def closeGate (w : World) (gate : String) : World := { w with closed := gate :: w.closed }

/-- The token of a name, which is a new root if the name is new. -/
def token (w : World) (name : String) : World × Token :=
  match w.tokens.lookup name with
  | some t => (w, t)
  | none => ({ w with tokens := (name, .root w.roots) :: w.tokens, roots := w.roots + 1 }, .root w.roots)

/-- Binds a name to a token. -/
def nameToken (w : World) (name : String) (t : Token) : World :=
  { w with tokens := (name, t) :: w.tokens.filter (fun n => n.1 != name) }

end World

end CommitteeSync.Scenario
