/-
  CommitteeSync.Chain.Schedule — wall-clock time to slots and epochs.

  An instant is a signed number of seconds around the common epoch of clocks plus
  nanoseconds; a span is unsigned. A schedule has a genesis instant, a slot duration and a
  layout; before genesis the chain is in slot 0. The slot is the whole quotient of the
  elapsed nanoseconds by the slot duration, of which the low 64 bits are kept.
-/

import CommitteeSync.Chain.Basic

namespace CommitteeSync

/-- Nanoseconds below one second. -/
abbrev Subsecond := Fin 1000000000

/-- A length of time. -/
structure Span where
  seconds : UInt64
  nanos : Subsecond
  deriving DecidableEq, Repr

namespace Span

def toNanos (d : Span) : Nat := d.seconds.toNat * 1000000000 + d.nanos.val

def ofSeconds (n : UInt64) : Span := ⟨n, 0⟩

def isZero (d : Span) : Bool := d.seconds == 0 && d.nanos == 0

end Span

/-- A point in time: `seconds` from the common epoch of clocks, and `nanos` after that. -/
structure Instant where
  seconds : Int64
  nanos : Subsecond
  deriving DecidableEq, Repr

def Instant.toNanos (t : Instant) : Int := t.seconds.toInt * 1000000000 + (t.nanos.val : Int)

/-- The genesis instant and slot schedule of a chain. -/
structure Schedule extends Layout where
  genesis : Instant
  slotDuration : Span
  ticks : slotDuration.toNanos ≠ 0

inductive ScheduleError where
  | zeroSlotDuration
  | zeroSlotsPerEpoch
  deriving DecidableEq, Repr

def ScheduleError.message : ScheduleError → String
  | .zeroSlotDuration => "slot_duration must be greater than 0"
  | .zeroSlotsPerEpoch => "slots_per_epoch must be greater than 0"

namespace Schedule

/-- A schedule needs slots that last and epochs that have slots; the duration is checked first. -/
def make? (genesis : Instant) (slotDuration : Span) (slotsPerEpoch : UInt64) : Except ScheduleError Schedule :=
  if ticks : slotDuration.toNanos = 0 then .error .zeroSlotDuration
  else if pos : slotsPerEpoch = 0 then .error .zeroSlotsPerEpoch
  else .ok { slotsPerEpoch, pos, genesis, slotDuration, ticks }

/-- The slot active at `now`; anything before genesis is slot 0. -/
def slotAt (s : Schedule) (now : Instant) : Slot :=
  let elapsed := now.toNanos - s.genesis.toNanos
  if elapsed < 0 then 0 else UInt64.ofNat (elapsed.toNat / s.slotDuration.toNanos)

def epochAt (s : Schedule) (now : Instant) : Epoch := s.epochOf (s.slotAt now)

end Schedule

end CommitteeSync
