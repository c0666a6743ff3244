/-
  CommitteeSync.Chain.Basic — what the chain is made of: slots, epochs (a fixed number of
  slots each), committee assignments as the node serves them, and head events.

  Both numbers are 64-bit words. Where an operation would leave the range it stays at the
  last word (`nextEpoch`, `Layout.firstSlot`), so the last epoch is its own successor.
-/

namespace CommitteeSync

/-- Sequentially numbered unit of chain time. -/
abbrev Epoch := UInt64

/-- Slot number within the chain; a fixed number of slots makes one epoch. -/
abbrev Slot := UInt64

/-- The last 64-bit word, the largest epoch and slot. -/
def lastWord : UInt64 := 18446744073709551615

/-- The epoch after `e`, or `e` itself when there is none. -/
def nextEpoch (e : Epoch) : Epoch := if e = lastWord then e else e + 1

/-- One committee as the node reports it: the validators of committee `index` at `slot`. -/
structure Assignment where
  slot : Slot
  index : UInt64
  validators : List UInt64
  deriving DecidableEq, Repr

/-- Notice that the chain tip moved to `slot`; `transition` says that it crossed into a new epoch. -/
structure HeadEvent where
  slot : Slot
  transition : Bool
  deriving DecidableEq, Repr

/-- How many slots make an epoch; never none. -/
structure Layout where
  slotsPerEpoch : UInt64
  pos : slotsPerEpoch ≠ 0 := by decide

namespace Layout

/-- The epoch a slot belongs to. -/
def epochOf (l : Layout) (slot : Slot) : Epoch := slot / l.slotsPerEpoch

/-- The first slot of an epoch; an epoch that starts past the last slot gets the last slot. -/
def firstSlot (l : Layout) (epoch : Epoch) : Slot :=
  UInt64.ofNat (min (epoch.toNat * l.slotsPerEpoch.toNat) lastWord.toNat)

end Layout

end CommitteeSync
