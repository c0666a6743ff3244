/-
  CommitteeSync.Guard.Registry — named handles on gates, and named permits.

  Handles made from one another stand for one gate. A permit is the proof that its holder
  was admitted; giving it back, or admitting its holder elsewhere under the same name,
  releases the gate it came from. Forgetting a handle touches no gate and no permit.
-/

import CommitteeSync.Guard.Gate

namespace CommitteeSync

structure Registry where
  gates : List Gate
  /-- The gate each handle stands for. -/
  handles : List (String × Nat)
  /-- The gate each outstanding permit came from. -/
  permits : List (String × Nat)
  deriving DecidableEq, Repr

namespace Registry

/-- One free gate under the handle `name`. -/
def single (name : String) : Registry := ⟨[Gate.free], [(name, 0)], []⟩

inductive Step where
  | enter (permit handle : String)
  | release (permit : String)
  | active (handle : String)
  | clone (copy handle : String)
  | fresh (handle : String)
  | forget (handle : String)
  deriving DecidableEq, Repr

inductive Answer where
  | admitted
  | denied
  | released
  | notHeld
  | active (b : Bool)
  | done
  deriving DecidableEq, Repr

def bindName (name : String) (id : Nat) (names : List (String × Nat)) : List (String × Nat) :=
  (name, id) :: names.filter (fun n => n.1 != name)

def gateOf? (r : Registry) (handle : String) : Option (Nat × Gate) :=
  match r.handles.lookup handle with
  | some id => r.gates[id]?.map fun g => (id, g)
  | none => none

/-- Gives a permit back, if it is outstanding. -/
def giveBack (r : Registry) (permit : String) : Registry :=
  match r.permits.lookup permit with
  | some id =>
    { r with gates := r.gates.modify id Gate.exit, permits := r.permits.filter (fun p => p.1 != permit) }
  | none => r

def apply (r : Registry) : Step → Registry × Answer
  | .enter permit handle =>
    match r.gateOf? handle with
    | none => (r, .denied)
    | some (id, gate) =>
      match gate.enter? with
      | none => (r, .denied)
      | some entered =>
        let r := (r.giveBack permit)
        ({ r with gates := r.gates.set id entered, permits := bindName permit id r.permits }, .admitted)
  | .release permit => (r.giveBack permit, if (r.permits.lookup permit).isSome then .released else .notHeld)
  | .active handle => (r, .active ((r.gateOf? handle).any fun g => g.2.held))
  | .clone copy handle =>
    match r.handles.lookup handle with
    | some id => ({ r with handles := bindName copy id r.handles }, .done)
    | none => (r, .done)
  | .fresh handle =>
    ({ r with gates := r.gates ++ [Gate.free], handles := bindName handle r.gates.length r.handles }, .done)
  | .forget handle => ({ r with handles := r.handles.filter fun h => h.1 != handle }, .done)

end Registry

end CommitteeSync
