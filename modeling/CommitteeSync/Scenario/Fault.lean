/-
  CommitteeSync.Scenario.Fault — scripted failures of collaborators.

  Rules are tried in the order they were added. A rule that matches a call first uses up its
  skips, one per call, and lets the next rules decide; after that it fails calls for as
  long as it lasts.
-/

import CommitteeSync.Sync.Call

namespace CommitteeSync.Scenario

structure Fault where
  place : String
  /-- Only calls with this key, if given. -/
  key : Option String
  skip : Nat
  /-- How many calls are failed; none means all. -/
  times : Option Nat
  /-- What the collaborator says, outermost first. -/
  chain : List String
  deriving DecidableEq, Repr

namespace Fault

def covers (f : Fault) (c : Call) : Bool := f.place == c.place && f.key.all (· == c.key)

/-- The rules after a call was decided, and what it fails with if it fails. -/
def consult (c : Call) : List Fault → List Fault × Option (List String)
  | [] => ([], none)
  | f :: rest =>
    if f.covers c then
      match f.skip, f.times with
      | skip + 1, _ => next { f with skip } (consult c rest)
      | 0, none => (f :: rest, some f.chain)
      | 0, some (times + 1) => ({ f with times := some times } :: rest, some f.chain)
      | 0, some 0 => next f (consult c rest)
    else next f (consult c rest)
where
  next (f : Fault) (decided : List Fault × Option (List String)) : List Fault × Option (List String) :=
    (f :: decided.1, decided.2)

end Fault

end CommitteeSync.Scenario
