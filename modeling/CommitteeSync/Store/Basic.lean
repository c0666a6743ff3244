/-
  CommitteeSync.Store.Basic — the transactional store.

  A transaction is a list of staged writes. Committing it applies the whole list at once;
  anything else leaves the committed state as it was. The committed committees are kept as
  one entry per (slot, index), in increasing order of that key, with the number of writes
  that reached it; the metadata is a map from keys to bytes.
-/

import CommitteeSync.Chain.Basic

namespace CommitteeSync

abbrev Bytes := List UInt8

/-- A committee as the store keeps it. -/
structure Committee where
  slot : Slot
  index : UInt64
  members : List UInt64
  deriving DecidableEq, Repr

/-- An assignment is stored field by field. -/
def Committee.ofAssignment (a : Assignment) : Committee := ⟨a.slot, a.index, a.validators⟩

/-- What a committee is stored under. -/
abbrev CommitteeKey := Slot × UInt64

def Committee.key (c : Committee) : CommitteeKey := (c.slot, c.index)

/-- Slots first, then indices. -/
def CommitteeKey.lt (a b : CommitteeKey) : Bool := a.1 < b.1 || (a.1 == b.1 && a.2 < b.2)

/-- Writes staged and not yet committed, each list in staging order. -/
structure Transaction where
  metadata : List (String × Bytes)
  committees : List Committee
  deriving DecidableEq, Repr

namespace Transaction

def empty : Transaction := ⟨[], []⟩

def setMetadata (tx : Transaction) (key : String) (value : Bytes) : Transaction :=
  { tx with metadata := tx.metadata ++ [(key, value)] }

def putCommittee (tx : Transaction) (c : Committee) : Transaction :=
  { tx with committees := tx.committees ++ [c] }

/-- How many committees are staged. -/
def staged (tx : Transaction) : Nat := tx.committees.length

end Transaction

/-- A committed committee and the number of committed writes of its key. -/
structure Entry where
  committee : Committee
  writes : Nat
  deriving DecidableEq, Repr

/-- Writes one committee into entries kept in increasing key order. -/
def placeEntry (c : Committee) : List Entry → List Entry
  | [] => [⟨c, 1⟩]
  | e :: es =>
    if CommitteeKey.lt c.key e.committee.key then ⟨c, 1⟩ :: e :: es
    else if c.key = e.committee.key then ⟨c, e.writes + 1⟩ :: es
    else e :: placeEntry c es

/-- Binds `key` to `value`, replacing what it was bound to. -/
def bindKey (key : String) (value : Bytes) (m : List (String × Bytes)) : List (String × Bytes) :=
  (key, value) :: m.filter (fun kv => kv.1 != key)

/-- The committed state, and counts of what happened to transactions. -/
structure Store where
  metadata : List (String × Bytes)
  entries : List Entry
  begun : Nat
  commits : Nat
  cancellations : Nat
  deriving DecidableEq, Repr

namespace Store

def empty : Store := ⟨[], [], 0, 0, 0⟩

/-- Sets metadata outside of any transaction. -/
def putMetadata (s : Store) (key : String) (value : Bytes) : Store :=
  { s with metadata := bindKey key value s.metadata }

def readMetadata (s : Store) (key : String) : Option Bytes := s.metadata.lookup key

/-- The committed committees in increasing order of slot and index. -/
def committees (s : Store) : List Committee := s.entries.map (·.committee)

/-- How many committed writes the committee of this key has seen. -/
def writeCount (s : Store) (key : CommitteeKey) : Nat :=
  match s.entries.find? (fun e => e.committee.key == key) with
  | some e => e.writes
  | none => 0

def begin (s : Store) : Store := { s with begun := s.begun + 1 }

/-- Applies all staged writes in staging order. -/
def commit (s : Store) (tx : Transaction) : Store :=
  { s with
    metadata := tx.metadata.foldl (fun m kv => bindKey kv.1 kv.2 m) s.metadata
    entries := tx.committees.foldl (fun es c => placeEntry c es) s.entries
    commits := s.commits + 1 }

/-- Discards a transaction. -/
def cancel (s : Store) : Store := { s with cancellations := s.cancellations + 1 }

end Store

end CommitteeSync
