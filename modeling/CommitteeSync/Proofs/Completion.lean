/-
  CommitteeSync.Proofs.Completion — how far a completed pass has got.

  A pass is complete when its last epoch was committed, or when its range was empty. While it
  follows the head, passes are put one after another; together they are complete when the
  last of them is, and then the clock was read after that one and was not past its target.

  Proved, layer by layer: what the report of an ended pass says about the epochs committed
  and about the clock (`Follow.Ends`, `Follow.resume_completion`), and that the target of a
  pass that goes on only moves forward.
-/

import CommitteeSync.Proofs.CommitLog
import CommitteeSync.Proofs.Effects
import CommitteeSync.Proofs.NoGaps

namespace CommitteeSync

open Turn

variable (env : Setup) {token : Token}

/-! ## Reports -/

/-- A completed pass has committed its target, unless its range was empty. -/
def Report.Reached (log : List Epoch) (r : Report) : Prop := r.isCompleted → r.target < r.resume ∨ r.target ∈ log

theorem Shared.readings_of_trace {sh sh' : Shared} (h : sh.trace.toList <+: sh'.trace.toList) : sh.readings <+: sh'.readings :=
  h.filterMap _

/-- Where there are no gaps, a completed pass has left none up to its target: what lies below
    its first epoch had been committed before. -/
theorem Report.Reached.mem {found : Option Bytes} {first epoch e : Epoch} {st : Standing} {log : List Epoch} {r : Report}
    (h : r.Reached st.log) (hg : Gapless found first st) (hc : r.isCompleted) (hlog : ∀ d ∈ log, d ∈ st.log)
    (hr : Reaches first log epoch) (hle : r.resume ≤ epoch) (hf : first ≤ e) (he : e ≤ r.target) : e ∈ st.log := by
  rcases h hc with hempty | hm
  · exact hlog e (hr.2 e hf (UInt64.lt_of_le_of_lt he (UInt64.lt_of_lt_of_le hempty hle)))
  · by_cases heq : e = r.target
    · rw [heq]
      exact hm
    · exact (hg.reaches _ hm).2 e hf (UInt64.lt_of_le_of_ne he heq)

/-- A completed pass has committed its target, or what it set out from had been reached before. -/
theorem Report.Reached.target_mem {first epoch : Epoch} {log log' : List Epoch} {r : Report} (h : r.Reached log')
    (hc : r.isCompleted) (hlog : log ⊆ log') (hr : Reaches first log epoch) (hle : r.resume ≤ epoch) (hf : first ≤ r.target) :
    r.target ∈ log' := by
  rcases h hc with hempty | hm
  · exact hlog (hr.2 _ hf (UInt64.lt_of_lt_of_le hempty hle))
  · exact hm

/-! ## One epoch and one pass -/

/-- A write that ends well has committed its epoch. -/
theorem EpochWrite.resume_logs (token : Token) (epoch : Epoch) (sh : Shared) (w : EpochWrite) (reply : Reply) :
    Yields (w.resume env token epoch sh reply) (fun _ _ => True) (fun sh' r => ∀ n, r = .ok n → epoch ∈ sh'.commitLog) := by
  by_cases hw : ∃ tx written, w = .committing tx written
  · obtain ⟨tx, written, rfl⟩ := hw
    cases reply with
    | granted =>
      intro n _
      have hlog : (finish epoch sh tx written).1.commitLog = sh.commitLog ++ [epoch] :=
        congrArg Ledger.log (finish_writes epoch sh tx written).ledger
      have hm : epoch ∈ (finish epoch sh tx written).1.commitLog := by
        rw [hlog]
        exact List.mem_append_right _ (List.mem_singleton.2 rfl)
      exact hm
    | failed cause => intro n hn; cases hn
  · have hf := resume_fails env token epoch sh w reply fun tx written he => hw ⟨tx, written, he⟩
    exact hf.mono_ends fun _ r hr n hn => absurd hn (hr n)

namespace Pass

theorem enter_completion (report : Report) (epoch : Epoch) (sh : Shared) :
    Yields (enter token report epoch sh) (fun _ p => p.report = report)
      (fun _ r => r.resume = report.resume ∧ r.target = report.target ∧ r.isCompleted = false) := by
  unfold enter
  split
  · exact ⟨rfl, rfl, rfl⟩
  · rfl

/-- A pass that ends at once is complete only if its range was empty. -/
theorem start_completion (token : Token) (resume target : Epoch) (sh : Shared) :
    Yields (start token resume target sh) (fun _ p => p.report = Report.empty resume target)
      (fun _ r => r.resume = resume ∧ r.target = target ∧ (r.isCompleted → target < resume)) := by
  unfold start
  split
  · rename_i h
    exact ⟨rfl, rfl, fun _ => h⟩
  · refine (enter_completion _ _ _).mono_ends fun _ r hr => ⟨hr.1, hr.2.1, fun hc => ?_⟩
    rw [hr.2.2] at hc
    cases hc

theorem outcomeOf_ne (error : EpochError) : outcomeOf error ≠ .completed := by
  unfold outcomeOf
  split <;> simp

theorem settle_completion {report : Report} {epoch : Epoch} {sh : Shared} {r : EpochWrite.Result}
    (hlog : ∀ n, r = .ok n → epoch ∈ sh.commitLog) :
    Yields (settle token report epoch sh r)
      (fun _ p => p.report.resume = report.resume ∧ p.report.target = report.target)
      (fun sh' r => r.resume = report.resume ∧ r.target = report.target ∧ (r.isCompleted → r.target ∈ sh'.commitLog)) := by
  cases r with
  | error error =>
    refine ⟨rfl, rfl, fun hc => ?_⟩
    simp only [Report.isCompleted] at hc
    split at hc
    · rename_i h; exact absurd h (outcomeOf_ne error)
    · cases hc
  | ok n =>
    simp only [settle]
    split
    · rename_i he
      refine ⟨rfl, rfl, fun _ => ?_⟩
      rw [Shared.commitLog_of_ledger (Shared.ledger_log sh _ rfl)]
      show report.target ∈ sh.commitLog
      rw [← he]
      exact hlog n rfl
    · refine (enter_completion _ _ sh).mono (fun _ p hp => ?_) fun _ r hr => ⟨hr.1, hr.2.1, fun hc => ?_⟩
      · rw [hp]
        exact ⟨rfl, rfl⟩
      · rw [hr.2.2] at hc
        cases hc

/-- A pass that goes on and completes has committed its target. -/
theorem resume_completion (token : Token) (sh : Shared) (p : Pass) (reply : Reply) :
    Yields (p.resume env token sh reply)
      (fun _ p' => p'.report.resume = p.report.resume ∧ p'.report.target = p.report.target)
      (fun sh' r => r.resume = p.report.resume ∧ r.target = p.report.target ∧ (r.isCompleted → r.target ∈ sh'.commitLog)) :=
  (yields_andThen ..).2 ((EpochWrite.resume_logs env token p.epoch sh p.write reply).mono (fun _ _ _ => ⟨rfl, rfl⟩)
    fun _ _ hr => settle_completion hr)

end Pass

/-! ## Following the head -/

namespace Follow

/-- How following the head from `resume` on ended, where it had set out for `target` before. -/
structure Ends (resume target : Epoch) (sh sh' : Shared) (r : Report) : Prop where
  resume : r.resume = resume
  target : target ≤ r.target
  reached : r.Reached sh'.commitLog
  /-- The clock was read on the way, and was not past the target. -/
  looked : r.isCompleted → ∃ new, sh'.readings = sh.readings ++ new ∧ ∃ e ∈ new, e ≤ r.target

theorem Ends.of_readings {resume target target' : Epoch} {a b c : Shared} {r : Report} (h : Ends resume target b c r)
    (ht : target' ≤ target) {read : List Epoch} (hr : b.readings = a.readings ++ read) : Ends resume target' a c r := by
  refine ⟨h.resume, UInt64.le_trans ht h.target, h.reached, fun hc => ?_⟩
  obtain ⟨new, hnew, e, he, hle⟩ := h.looked hc
  exact ⟨read ++ new, by rw [hnew, hr, List.append_assoc], e, List.mem_append_right _ he, hle⟩

/-- A reading past `target` and still below where the next pass would start is below the first resume point. -/
theorem lt_resume {first target reading : Epoch} (hr : target < reading) (hlt : reading < max first (nextEpoch target)) :
    reading < first := by
  have hl := toNat_le_lastWord reading
  rw [UInt64.lt_iff_toNat_lt] at hr ⊢
  rw [UInt64.lt_iff_toNat_lt, toNat_max, toNat_nextEpoch] at hlt
  omega

theorem lookAgain_completion {total : Report} {sh : Shared} (h : total.Reached sh.commitLog) :
    Yields (lookAgain token total sh)
      (fun _ f => f.total.resume = total.resume ∧ total.target ≤ f.pass.report.target)
      (fun sh' r => Ends total.resume total.target sh sh' r) := by
  fun_induction lookAgain token total sh with
  | case1 total sh hc hahead after pass hp =>
    have hs := Pass.start_completion token (max total.resume (nextEpoch total.target)) sh.readClock.2 sh.readClock.1
    rw [hp] at hs
    refine ⟨rfl, ?_⟩
    rw [show pass.report = _ from hs]
    exact UInt64.le_of_lt hahead
  | case2 total sh hc hahead after report hp ih =>
    have hs := Pass.start_completion token (max total.resume (nextEpoch total.target)) sh.readClock.2 sh.readClock.1
    have hread := Pass.start_readings token (max total.resume (nextEpoch total.target)) sh.readClock.2 sh.readClock.1
    rw [hp] at hs hread
    have hle : total.target ≤ sh.readClock.2 := UInt64.le_of_lt hahead
    have hreached : (total.extend sh.readClock.2 report).Reached after.commitLog :=
      fun hcr => Or.inl (lt_resume hahead (hs.2.2 hcr))
    refine (ih hreached).mono (fun _ f hf => ⟨hf.1, UInt64.le_trans hle hf.2⟩) fun _ r hr => ?_
    exact Ends.of_readings hr hle (hread.trans (Shared.readClock_readings sh))
  | case3 total sh hc hahead =>
    refine ⟨rfl, UInt64.le_refl _, ?_, fun _ => ⟨_, Shared.readClock_readings sh, _, List.mem_singleton.2 rfl, ?_⟩⟩
    · rw [Shared.commitLog_of_ledger (Shared.ledger_readClock sh)]
      exact h
    · exact UInt64.not_lt.1 hahead
  | case4 total sh hc =>
    exact ⟨rfl, UInt64.le_refl _, fun hcr => absurd hcr hc, fun hcr => absurd hcr hc⟩

theorem start_completion (token : Token) (resume : Epoch) (sh : Shared) :
    Yields (start token resume sh) (fun _ f => f.total.resume = resume)
      (fun sh' r => r.resume = resume ∧ r.Reached sh'.commitLog) := by
  have hs := Pass.start_completion token resume sh.readClock.2 sh.readClock.1
  unfold start
  split
  · rfl
  · rename_i after report hp
    rw [hp] at hs
    have hreached : ((Report.empty resume sh.readClock.2).extend sh.readClock.2 report).Reached after.commitLog :=
      fun hcr => Or.inl (hs.2.2 hcr)
    exact (lookAgain_completion hreached).mono (fun _ _ hf => hf.1) fun _ _ hr => ⟨hr.resume, hr.reached⟩

/-- The target only moves forward, and the report of a completed pass has reached it. -/
theorem resume_completion (token : Token) (sh : Shared) (f : Follow) (reply : Reply) :
    Yields (f.resume env token sh reply)
      (fun _ f' => f'.total.resume = f.total.resume ∧ f.pass.report.target ≤ f'.pass.report.target)
      (fun sh' r => Ends f.total.resume f.pass.report.target sh sh' r) := by
  have hp := Pass.resume_completion env token sh f.pass reply
  have ht := yields_of_fst (P := fun sh' => sh.readings <+: sh'.readings)
    (Shared.readings_of_trace (Pass.resume_effects (k := .catchUp) env token sh f.pass reply).trace)
  refine (yields_andThen ..).2 ((hp.and ht).mono (fun _ p hp => ?_) fun sh' r hr => ?_)
  · exact ⟨rfl, by rw [hp.1.2]; exact UInt64.le_refl _⟩
  · obtain ⟨⟨-, htarget, hmem⟩, read, hread⟩ := hr
    have hreached : (f.total.extend f.pass.report.target r).Reached sh'.commitLog := by
      intro hcr
      have hm := hmem hcr
      rw [htarget] at hm
      exact Or.inr hm
    exact (lookAgain_completion hreached).mono_ends fun _ _ h => h.of_readings (UInt64.le_refl _) hread.symm

end Follow

end CommitteeSync
