/-
  CommitteeSync.Guard.Gate — single-flight admission: a gate lets one section in at a time.

  Entering never waits. A denied entry is a normal outcome, after which the caller drops
  what it wanted to do.
-/

namespace CommitteeSync

/-- A gate, and whether a section admitted through it is open. -/
structure Gate where
  held : Bool
  deriving DecidableEq, Repr

namespace Gate

def free : Gate := ⟨false⟩

/-- Admission: the gate with the section open, or nothing if one is open already. -/
def enter? (g : Gate) : Option Gate := if g.held then none else some ⟨true⟩

/-- The open section ends. -/
def exit (_ : Gate) : Gate := free

end Gate

end CommitteeSync
