/-
  CommitteeSync.Proofs.EpochSpans — the slots of an epoch, and its time on the clock.

  The epoch of a slot and the slot of an instant are truncated quotients, and the first slot of
  an epoch is a product that stops at the last word. All of them are words. Over unbounded
  numbers, with `p` slots an epoch and `d` nanoseconds a slot:

  (1) The slots of epoch `e` are those from `e * p` up to `(e + 1) * p` (`Layout.epochOf_eq_iff`).
      Its first slot is the least of them just if `e * p` is a word
      (`Layout.isLeast_firstSlot_iff`); an epoch past that has no slots at all
      (`Layout.epochOf_ne`).
  (2) With slots of a second or more the quotient that gives the slot is a word for any two
      instants, the earliest and the latest included (`Schedule.slots_elapsed_lt`). So epoch
      `e` begins `e * p * d` nanoseconds after genesis and ends where the next one begins
      (`Schedule.epochs_partition_time`).
-/

import CommitteeSync.Chain.Schedule
import CommitteeSync.Proofs.EpochOrder
import Mathlib.Algebra.Group.Nat.Defs
import Mathlib.Order.Bounds.Basic

namespace CommitteeSync

/-- A truncated quotient is `y` from one multiple to the next. -/
theorem quotient_eq_iff {k x y : Nat} (hk : 0 < k) : x / k = y ↔ y * k ≤ x ∧ x < (y + 1) * k := by
  rw [Nat.div_eq_iff hk, Nat.succ_mul]
  omega

/-! ## Slots -/

namespace Layout

variable (l : Layout) {s : Slot} {e : Epoch}

theorem slotsPerEpoch_pos : 0 < l.slotsPerEpoch.toNat := Nat.pos_of_ne_zero fun h => l.pos (UInt64.toNat_inj.1 h)

theorem toNat_epochOf (s : Slot) : (l.epochOf s).toNat = s.toNat / l.slotsPerEpoch.toNat := UInt64.toNat_div s l.slotsPerEpoch

/-- The slots of an epoch. -/
theorem epochOf_eq_iff : l.epochOf s = e ↔
    e.toNat * l.slotsPerEpoch.toNat ≤ s.toNat ∧ s.toNat < (e.toNat + 1) * l.slotsPerEpoch.toNat := by
  rw [← UInt64.toNat_inj, toNat_epochOf, quotient_eq_iff l.slotsPerEpoch_pos]

theorem toNat_firstSlot (e : Epoch) : (l.firstSlot e).toNat = min (e.toNat * l.slotsPerEpoch.toNat) lastWord.toNat :=
  UInt64.toNat_ofNat_of_lt' (Nat.lt_of_le_of_lt (Nat.min_le_right _ _) (by decide))

/-- The product saturates. -/
theorem firstSlot_eq_lastWord (h : lastWord.toNat ≤ e.toNat * l.slotsPerEpoch.toNat) : l.firstSlot e = lastWord :=
  UInt64.toNat_inj.1 ((l.toNat_firstSlot e).trans (Nat.min_eq_right h))

/-- An epoch that starts past the last slot has no slots. -/
theorem epochOf_ne (h : lastWord.toNat < e.toNat * l.slotsPerEpoch.toNat) (s : Slot) : l.epochOf s ≠ e := by
  intro hs
  have hle : s.toNat ≤ lastWord.toNat := toNat_le_lastWord s
  exact Nat.not_le.2 h (Nat.le_trans (l.epochOf_eq_iff.1 hs).1 hle)

/-- Any other epoch starts with its first slot. -/
theorem isLeast_firstSlot (h : e.toNat * l.slotsPerEpoch.toNat ≤ lastWord.toNat) :
    IsLeast {s | l.epochOf s = e} (l.firstSlot e) := by
  have hfirst : (l.firstSlot e).toNat = e.toNat * l.slotsPerEpoch.toNat := (l.toNat_firstSlot e).trans (Nat.min_eq_left h)
  constructor
  · refine l.epochOf_eq_iff.2 ⟨Nat.le_of_eq hfirst.symm, ?_⟩
    rw [hfirst]
    exact Nat.mul_lt_mul_of_pos_right (Nat.lt_succ_self _) l.slotsPerEpoch_pos
  · intro s hs
    rw [UInt64.le_iff_toNat_le, hfirst]
    exact (l.epochOf_eq_iff.1 hs).1

theorem epochOf_firstSlot_iff : l.epochOf (l.firstSlot e) = e ↔ e.toNat * l.slotsPerEpoch.toNat ≤ lastWord.toNat :=
  ⟨fun h => Nat.not_lt.1 fun hlt => l.epochOf_ne hlt _ h, fun h => (l.isLeast_firstSlot h).1⟩

theorem isLeast_firstSlot_iff : IsLeast {s | l.epochOf s = e} (l.firstSlot e) ↔
    e.toNat * l.slotsPerEpoch.toNat ≤ lastWord.toNat :=
  ⟨fun h => l.epochOf_firstSlot_iff.1 h.1, l.isLeast_firstSlot⟩

end Layout

/-! ## Time -/

namespace Instant

/-- Nanoseconds between the earliest instant and the one after the latest. -/
def span : Nat := 2 ^ 64 * 1000000000

/-- However far apart, two instants are less than that apart. -/
theorem sub_lt_span (t u : Instant) : t.toNanos - u.toNanos < span := by
  have ht := Int64.toInt_lt t.seconds
  have hu := Int64.le_toInt u.seconds
  have hn := t.nanos.isLt
  unfold toNanos span
  omega

end Instant

namespace Schedule

variable (s : Schedule)

/-- The nanoseconds since genesis; none before it. -/
def elapsed (t : Instant) : Nat := (t.toNanos - s.genesis.toNanos).toNat

/-- The whole slots since genesis are a word if a slot takes a second or more. -/
theorem slots_elapsed_lt (hd : 1000000000 ≤ s.slotDuration.toNanos) (t : Instant) :
    s.elapsed t / s.slotDuration.toNanos < 2 ^ 64 := by
  have hspan := Instant.sub_lt_span t s.genesis
  refine Nat.div_lt_of_lt_mul ?_
  calc s.elapsed t < 2 ^ 64 * 1000000000 := by
        unfold elapsed
        unfold Instant.span at hspan
        omega
    _ ≤ s.slotDuration.toNanos * 2 ^ 64 := by
        rw [Nat.mul_comm]
        exact Nat.mul_le_mul_right _ hd

theorem toNat_slotAt (hd : 1000000000 ≤ s.slotDuration.toNanos) (t : Instant) :
    (s.slotAt t).toNat = s.elapsed t / s.slotDuration.toNanos := by
  unfold slotAt
  dsimp only
  split
  · rename_i hbefore
    rw [elapsed, Int.toNat_of_nonpos (Int.le_of_lt hbefore), Nat.zero_div]
    rfl
  · exact UInt64.toNat_ofNat_of_lt' (s.slots_elapsed_lt hd t)

/-- The two quotients are one. -/
theorem toNat_epochAt (hd : 1000000000 ≤ s.slotDuration.toNanos) (t : Instant) :
    (s.epochAt t).toNat = s.elapsed t / (s.slotDuration.toNanos * s.slotsPerEpoch.toNat) := by
  rw [epochAt, Layout.toNat_epochOf, s.toNat_slotAt hd, Nat.div_div_eq_div_mul]

/-- When an epoch begins, over unbounded numbers. -/
def begins (e : Nat) : Int := s.genesis.toNanos + e * s.slotsPerEpoch.toNat * s.slotDuration.toNanos

theorem begins_eq (e : Nat) :
    s.begins e = s.genesis.toNanos + (e * (s.slotDuration.toNanos * s.slotsPerEpoch.toNat) : Nat) := by
  rw [begins, Nat.mul_comm s.slotDuration.toNanos, ← Nat.mul_assoc, Int.natCast_mul, Int.natCast_mul]

/-- From genesis on, an epoch lasts until the next one begins. -/
theorem epochAt_eq_iff (hd : 1000000000 ≤ s.slotDuration.toNanos) {t : Instant} (ht : s.genesis.toNanos ≤ t.toNanos)
    (e : Epoch) : s.epochAt t = e ↔ s.begins e.toNat ≤ t.toNanos ∧ t.toNanos < s.begins (e.toNat + 1) := by
  have hpos : 0 < s.slotDuration.toNanos * s.slotsPerEpoch.toNat := Nat.mul_pos (by omega) s.slotsPerEpoch_pos
  have helapsed : (s.elapsed t : Int) = t.toNanos - s.genesis.toNanos := Int.toNat_of_nonneg (by omega)
  rw [← UInt64.toNat_inj, s.toNat_epochAt hd, quotient_eq_iff hpos, begins_eq, begins_eq]
  omega

/-- Epochs follow each other on the clock without gaps, the first one from genesis on. -/
structure Partitions : Prop where
  /-- The quotient that gives the slot is a word. -/
  fits : ∀ t, s.elapsed t / s.slotDuration.toNanos < 2 ^ 64
  before : ∀ t : Instant, t.toNanos < s.genesis.toNanos → s.epochAt t = 0
  during : ∀ t : Instant, s.genesis.toNanos ≤ t.toNanos → ∀ e : Epoch,
    s.epochAt t = e ↔ s.begins e.toNat ≤ t.toNanos ∧ t.toNanos < s.begins (e.toNat + 1)
  monotone : ∀ t u : Instant, t.toNanos ≤ u.toNanos → s.epochAt t ≤ s.epochAt u

theorem partitions (hd : 1000000000 ≤ s.slotDuration.toNanos) : s.Partitions := by
  refine ⟨s.slots_elapsed_lt hd, fun t ht => ?_, fun t ht e => s.epochAt_eq_iff hd ht e, fun t u htu => ?_⟩
  · rw [← UInt64.toNat_inj, s.toNat_epochAt hd, elapsed, Int.toNat_of_nonpos (by omega), Nat.zero_div]
    rfl
  · rw [UInt64.le_iff_toNat_le, s.toNat_epochAt hd, s.toNat_epochAt hd]
    refine Nat.div_le_div_right ?_
    unfold elapsed
    omega

/-- With slots of a second or more, and one slot an epoch or more, there is a schedule, and its
    epochs partition the time from genesis on. -/
theorem epochs_partition_time (genesis : Instant) (slotDuration : Span) (slotsPerEpoch : UInt64)
    (hd : 1000000000 ≤ slotDuration.toNanos) (hp : 1 ≤ slotsPerEpoch) :
    ∃ s, make? genesis slotDuration slotsPerEpoch = .ok s ∧ s.genesis = genesis ∧ s.slotDuration = slotDuration ∧
      s.slotsPerEpoch = slotsPerEpoch ∧ s.Partitions := by
  have hticks : slotDuration.toNanos ≠ 0 := by omega
  have hpos : slotsPerEpoch ≠ 0 := by
    rintro rfl
    exact absurd hp (by decide)
  refine ⟨{ slotsPerEpoch, pos := hpos, genesis, slotDuration, ticks := hticks }, ?_, rfl, rfl, rfl, partitions _ hd⟩
  rw [make?, dif_neg hticks, dif_neg hpos]

/-- Genesis at the earliest instant and slots of a second: the latest instant is in the last
    slot that there is. -/
theorem epochs_partition_all_time :
    ∃ s, make? ⟨Int64.minValue, 0⟩ (.ofSeconds 1) 1 = .ok s ∧ s.Partitions ∧
      s.epochAt ⟨Int64.maxValue, 999999999⟩ = lastWord := by
  obtain ⟨s, hs, hgenesis, hduration, hslots, hpartitions⟩ :=
    epochs_partition_time ⟨Int64.minValue, 0⟩ (.ofSeconds 1) 1 (by decide) (by decide)
  refine ⟨s, hs, hpartitions, (hpartitions.during _ ?_ lastWord).2 ?_⟩
  · rw [hgenesis]
    decide
  · rw [begins, begins, hgenesis, hduration, hslots]
    decide

end Schedule

end CommitteeSync
