/-
  CommitteeSync.Proofs.EpochOrder — epochs as numbers.

  Questions about the order of epochs are settled on the numbers behind the words: the
  successor of the last epoch is that epoch itself, and below it successors are plain.
-/

import CommitteeSync.Progress.Record

namespace CommitteeSync

theorem toNat_lastWord : lastWord.toNat = 1 <<< 64 - 1 := rfl

theorem toNat_le_lastWord (e : Epoch) : e.toNat ≤ 1 <<< 64 - 1 := Nat.le_of_lt_succ (UInt64.toNat_lt e)

theorem ne_lastWord_of_lt {e f : Epoch} (h : e < f) : e ≠ lastWord := by
  intro he
  have hf := toNat_le_lastWord f
  rw [he, UInt64.lt_iff_toNat_lt, toNat_lastWord] at h
  omega

theorem toNat_lt_of_ne_lastWord {e : Epoch} (h : e ≠ lastWord) : e.toNat < 1 <<< 64 - 1 := by
  have hle := toNat_le_lastWord e
  have hne : e.toNat ≠ 1 <<< 64 - 1 := fun he => h (UInt64.toNat_inj.1 he)
  omega

theorem toNat_succ {e : Epoch} (h : e ≠ lastWord) : (e + 1).toNat = e.toNat + 1 := by
  have hlt := toNat_lt_of_ne_lastWord h
  rw [UInt64.toNat_add, UInt64.toNat_one]
  omega

/-- The distance of two epochs as a word. -/
theorem ofNat_sub_toNat {e f : Epoch} (h : e ≤ f) : UInt64.ofNat (f.toNat - e.toNat) = f - e := by
  rw [UInt64.ofNat_sub (UInt64.le_iff_toNat_le.1 h), UInt64.ofNat_toNat, UInt64.ofNat_toNat]

theorem nextEpoch_of_ne {e : Epoch} (h : e ≠ lastWord) : nextEpoch e = e + 1 := if_neg h

theorem toNat_nextEpoch (e : Epoch) : (nextEpoch e).toNat = min (e.toNat + 1) (1 <<< 64 - 1) := by
  by_cases h : e = lastWord
  · rw [h]; rfl
  · have hlt := toNat_lt_of_ne_lastWord h
    rw [nextEpoch_of_ne h, toNat_succ h]
    omega

theorem toNat_max (a b : Epoch) : (max a b).toNat = max a.toNat b.toNat := by
  rw [show max a b = if a ≤ b then b else a from rfl]
  by_cases h : a ≤ b
  · rw [if_pos h]
    rw [UInt64.le_iff_toNat_le] at h
    omega
  · rw [if_neg h]
    rw [UInt64.le_iff_toNat_le] at h
    omega

/-- A resume point without override is the record's epoch or, past epoch 0, the one after it. -/
theorem toNat_resumePoint (r : Record) :
    (r.resumePoint none).toNat = if r.latestEpoch = 0 then 0 else min (r.latestEpoch.toNat + 1) (1 <<< 64 - 1) := by
  by_cases h : r.latestEpoch = 0
  · simp [Record.resumePoint, h]
  · simp [Record.resumePoint, h, toNat_nextEpoch]

theorem le_resumePoint (r : Record) : r.latestEpoch ≤ r.resumePoint none := by
  have hle := toNat_le_lastWord r.latestEpoch
  rw [UInt64.le_iff_toNat_le, toNat_resumePoint]
  split
  · rename_i h; rw [h]; exact Nat.le_refl 0
  · omega

end CommitteeSync
