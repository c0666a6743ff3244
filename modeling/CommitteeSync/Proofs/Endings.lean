/-
  CommitteeSync.Proofs.Endings — a task that gets its turns comes to an end.

  A schedule is a run without an end. A task that always gets another turn in it is over some
  time, whatever the other actions are and whatever is replied, if each of its turns comes
  down a well-founded order (`System.ends_of_falls`).

  Proved: the turns of a write of an epoch come down (phase, assignments left), those of a
  pass (epochs left, phase, assignments left), which those of a head update join once they
  know the record, and those that follow the head (epochs beyond the target, epochs left,
  phase, assignments left). The target of a pass may be the last epoch that there is.
-/

import CommitteeSync.Proofs.Completion
import CommitteeSync.Proofs.TaskCalls
import Mathlib.Data.Nat.Find

namespace CommitteeSync

open Turn

variable (env : Setup)

/-! ## The write of an epoch -/

/-- The order in which first parts are compared first. -/
def Below : Nat × Nat → Nat × Nat → Prop := Prod.Lex (· < ·) (· < ·)

theorem below_wf : WellFounded Below := WellFounded.prod_lex Nat.lt_wfRel.wf Nat.lt_wfRel.wf

namespace EpochWrite

/-- The phases that are left, and the assignments. -/
def left : EpochWrite → Nat × Nat
  | .beginning => (4, 0)
  | .staging (.fetching _) => (3, 0)
  | .staging (.putting _ _ _ rest) => (2, rest.length)
  | .recording _ _ => (1, 0)
  | .committing _ _ => (0, 0)

theorem advance_falls (epoch : Epoch) (tx : Transaction) (written : Nat) (sh : Shared) (rest : List Assignment)
    {bound : Nat × Nat} (hput : ∀ n < rest.length, Below (2, n) bound) (hrecord : Below (1, 0) bound) :
    Yields (andThen (Staging.advance env epoch tx written sh rest) .staging (record epoch))
      (fun _ w => Below w.left bound) (fun _ _ => True) := by
  cases rest with
  | nil => exact hrecord
  | cons a later =>
    simp only [Staging.advance]
    split
    · exact hput later.length (Nat.lt_succ_self _)
    · trivial

/-- Every turn of a write that goes on leaves less to do. -/
theorem resume_falls (token : Token) (epoch : Epoch) (sh : Shared) (w : EpochWrite) (reply : Reply) :
    Yields (w.resume env token epoch sh reply) (fun _ w' => Below w'.left w.left) (fun _ _ => True) := by
  cases w with
  | beginning =>
    simp only [resume]
    split
    · trivial
    · cases reply with
      | failed cause => trivial
      | granted => exact .left _ _ (by decide)
  | staging s =>
    unfold resume
    dsimp only
    split
    · trivial
    · cases reply with
      | failed cause => cases s <;> trivial
      | granted =>
        cases s with
        | fetching tx =>
          exact advance_falls env epoch tx 0 sh _ (fun _ _ => .left _ _ (by decide)) (.left _ _ (by decide))
        | putting tx written next rest =>
          exact advance_falls env epoch _ _ sh rest (fun _ hn => .right _ hn) (.left _ _ (by decide))
  | recording tx written =>
    simp only [resume]
    split
    · trivial
    · cases reply with
      | failed cause => trivial
      | granted => exact .left _ _ (by decide)
  | committing tx written => cases reply <;> trivial

end EpochWrite

/-! ## A pass -/

/-- Epochs first, then the write. -/
def PassBelow : Nat × Nat × Nat → Nat × Nat × Nat → Prop := Prod.Lex (· < ·) Below

theorem passBelow_wf : WellFounded PassBelow := WellFounded.prod_lex Nat.lt_wfRel.wf below_wf

namespace Pass

/-- The epochs that are left after this one, and what is left of this one. -/
def left (p : Pass) : Nat × Nat × Nat := (p.report.target.toNat - p.epoch.toNat, p.write.left)

theorem enter_falls (token : Token) (report : Report) (epoch : Epoch) (sh : Shared) :
    Yields (enter token report epoch sh) (fun _ p => p.report = report ∧ p.epoch = epoch) (fun _ _ => True) := by
  unfold enter
  split
  · trivial
  · exact ⟨rfl, rfl⟩

/-- Every turn of a pass that goes on leaves less to do, up to the same target. -/
theorem resume_falls (token : Token) (sh : Shared) (p : Pass) (reply : Reply) (h : p.epoch ≤ p.report.target) :
    Yields (p.resume env token sh reply)
      (fun _ p' => p'.epoch ≤ p'.report.target ∧ p'.report.target = p.report.target ∧ PassBelow p'.left p.left)
      (fun _ _ => True) := by
  refine (yields_andThen ..).2 ((p.write.resume_falls env token p.epoch sh reply).mono ?_ ?_)
  · intro sh' w' hw
    exact ⟨h, rfl, .right _ hw⟩
  · intro sh' r _
    cases r with
    | error error => trivial
    | ok n =>
      simp only [settle]
      split
      · trivial
      · rename_i hne
        have hlt := UInt64.lt_of_le_of_ne h hne
        refine (enter_falls token _ _ sh').mono ?_ fun _ _ _ => trivial
        rintro _ p' ⟨hreport, hepoch⟩
        have hsucc := toNat_succ (ne_lastWord_of_lt hlt)
        rw [UInt64.lt_iff_toNat_lt] at hlt
        rw [left, hreport, hepoch]
        refine ⟨?_, rfl, .left _ _ ?_⟩
        · rw [UInt64.le_iff_toNat_le, hsucc]
          exact hlt
        · show p.report.target.toNat - (p.epoch + 1).toNat < _
          omega

/-- A pass that waits after its first turn is at its first epoch. -/
theorem start_within (token : Token) (resume target : Epoch) (sh : Shared) :
    Yields (start token resume target sh) (fun _ p => p.report.target = target ∧ p.epoch = resume ∧ resume ≤ target)
      (fun _ _ => True) := by
  unfold start
  split
  · trivial
  · rename_i hle
    refine (enter_falls token _ _ _).mono ?_ fun _ _ _ => trivial
    rintro _ p ⟨hreport, hepoch⟩
    exact ⟨by rw [hreport]; rfl, hepoch, UInt64.not_lt.1 hle⟩

end Pass

/-! ## The handling of a head event -/

namespace HeadUpdate

/-- Before the record is known there is more left than any pass leaves. -/
def left : HeadUpdate → Nat × Nat × Nat
  | .reading _ => (lastWord.toNat + 1, 0, 0)
  | .direct _ write => (0, write.left)
  | .filling _ pass => pass.left

/-- A pass that fills a gap is not past its target. -/
def InRange : HeadUpdate → Prop
  | .filling _ pass => pass.epoch ≤ pass.report.target
  | _ => True

/-- What the record is followed by has less to do than the look at the record. -/
theorem dispatch_falls (guard : Guard) (token : Token) (epoch : Epoch) (sh : Shared) (r : Except Cause Record) :
    Yields (dispatch guard token epoch sh r) (fun _ u => u.InRange ∧ PassBelow u.left (lastWord.toNat + 1, 0, 0))
      (fun _ _ => True) := by
  cases r with
  | error cause => trivial
  | ok record =>
    simp only [dispatch]
    split
    · trivial
    · split
      · unfold fill
        split
        · trivial
        · refine (yields_andThen ..).2 ((Pass.start_within token _ epoch _).mono ?_ fun _ _ _ => trivial)
          rintro _ p ⟨htarget, hepoch, hle⟩
          refine ⟨?_, .left _ _ ?_⟩
          · show p.epoch ≤ p.report.target
            rw [hepoch, htarget]
            exact hle
          · have hlast := toNat_le_lastWord p.report.target
            rw [toNat_lastWord]
            omega
      · refine (yields_andThen ..).2 (yields_of_forall _ (fun _ _ => ⟨trivial, .left _ _ (Nat.succ_pos _)⟩) fun _ r => ?_)
        cases r <;> trivial

/-- Every turn of a head update that goes on leaves less to do. -/
theorem resume_falls (guard : Guard) (token : Token) (sh : Shared) (u : HeadUpdate) (reply : Reply) (h : u.InRange) :
    Yields (u.resume env guard token sh reply) (fun _ u' => u'.InRange ∧ PassBelow u'.left u.left) (fun _ _ => True) := by
  cases u with
  | reading epoch => exact dispatch_falls guard token epoch sh _
  | direct epoch write =>
    refine (yields_andThen ..).2 ((write.resume_falls env token epoch sh reply).mono ?_ fun _ r _ => ?_)
    · exact fun _ _ hw => ⟨trivial, .right _ hw⟩
    · cases r <;> trivial
  | filling epoch pass =>
    exact (yields_andThen ..).2 ((pass.resume_falls env token sh reply h).mono (fun _ _ hp => ⟨hp.1, hp.2.2⟩)
      fun _ _ _ => trivial)

end HeadUpdate

/-! ## Following the head -/

/-- Targets first, then the pass. -/
def FollowBelow : Nat × Nat × Nat × Nat → Nat × Nat × Nat × Nat → Prop := Prod.Lex (· < ·) PassBelow

theorem followBelow_wf : WellFounded FollowBelow := WellFounded.prod_lex Nat.lt_wfRel.wf passBelow_wf

namespace Follow

/-- The epochs past the present target, and what is left of the pass up to it. -/
def left (f : Follow) : Nat × Nat × Nat × Nat := (lastWord.toNat - f.pass.report.target.toNat, f.pass.left)

/-- Whoever looks again and goes on has a target further on. -/
theorem lookAgain_falls (token : Token) (total : Report) (sh : Shared) :
    Yields (lookAgain token total sh) (fun _ f => total.target < f.pass.report.target ∧ f.pass.epoch ≤ f.pass.report.target)
      (fun _ _ => True) := by
  fun_induction lookAgain token total sh with
  | case1 total sh hc hahead after pass hp =>
    have hstart := Pass.start_within token (max total.resume (nextEpoch total.target)) sh.readClock.2 sh.readClock.1
    rw [hp] at hstart
    obtain ⟨htarget, hepoch, hle⟩ := hstart
    exact ⟨htarget ▸ hahead, by rw [hepoch, htarget]; exact hle⟩
  | case2 total sh hc hahead after report hp ih =>
    exact ih.mono (fun _ f hf => ⟨UInt64.lt_trans hahead hf.1, hf.2⟩) fun _ _ _ => trivial
  | case3 => trivial
  | case4 => trivial

theorem start_within (token : Token) (resume : Epoch) (sh : Shared) :
    Yields (start token resume sh) (fun _ f => f.pass.epoch ≤ f.pass.report.target) (fun _ _ => True) := by
  have hstart := Pass.start_within token resume sh.readClock.2 sh.readClock.1
  unfold start
  split
  · rename_i after pass hp
    rw [hp] at hstart
    obtain ⟨htarget, hepoch, hle⟩ := hstart
    show pass.epoch ≤ pass.report.target
    rw [hepoch, htarget]
    exact hle
  · exact (lookAgain_falls token _ _).mono (fun _ _ hf => hf.2) fun _ _ _ => trivial

/-- Every turn leaves less to do up to the same target, or moves the target on. -/
theorem resume_falls (token : Token) (sh : Shared) (f : Follow) (reply : Reply) (h : f.pass.epoch ≤ f.pass.report.target) :
    Yields (f.resume env token sh reply)
      (fun _ f' => f'.pass.epoch ≤ f'.pass.report.target ∧ FollowBelow f'.left f.left) (fun _ _ => True) := by
  refine (yields_andThen ..).2 ((f.pass.resume_falls env token sh reply h).mono ?_ ?_)
  · rintro _ p ⟨hle, htarget, hbelow⟩
    refine ⟨hle, ?_⟩
    show FollowBelow (lastWord.toNat - p.report.target.toNat, p.left) _
    rw [htarget]
    exact .right _ hbelow
  · intro sh' r _
    refine (lookAgain_falls token _ sh').mono ?_ fun _ _ _ => trivial
    rintro _ f' ⟨hlt, hle⟩
    refine ⟨hle, .left _ _ ?_⟩
    have hlt : f.pass.report.target < f'.pass.report.target := hlt
    have hlast := toNat_le_lastWord f'.pass.report.target
    rw [UInt64.lt_iff_toNat_lt] at hlt
    rw [toNat_lastWord]
    omega

end Follow

/-! ## Schedules -/

namespace System

variable {s : System} {id : Nat}

/-- The first `n` actions of a schedule. -/
def first (schedule : Nat → Action) (n : Nat) : List Action := (List.range n).map schedule

theorem first_succ (schedule : Nat → Action) (n : Nat) : first schedule (n + 1) = first schedule n ++ [schedule n] := by
  rw [first, List.range_succ, List.map_append]
  rfl

/-- Task `id` always gets another turn. -/
def Often (id : Nat) (schedule : Nat → Action) : Prop := ∀ n, ∃ m, n ≤ m ∧ ∃ reply, schedule m = .turn id reply

/-- Until its next turn a task stays as it is. -/
theorem work?_until {schedule : Nat → Action} {w : Work} {n m : Nat} (hnm : n ≤ m)
    (hw : (run env s (first schedule n)).work? id = some w)
    (hnone : ∀ k, n ≤ k → k < m → ∀ reply, schedule k ≠ .turn id reply) :
    (run env s (first schedule m)).work? id = some w := by
  induction m, hnm using Nat.le_induction with
  | base => exact hw
  | succ m hnm ih =>
    rw [first_succ, run_snoc]
    exact work?_kept env (ih fun k hk hlt => hnone k hk (Nat.lt_succ_of_lt hlt)) (hnone m hnm (Nat.lt_succ_self m))

/-- From any time on at which the task is not over there is a next turn. -/
theorem next_turn {schedule : Nat → Action} {w : Work} {n : Nat} (ho : Often id schedule)
    (hw : (run env s (first schedule n)).work? id = some w) :
    ∃ m reply, schedule m = .turn id reply ∧ (run env s (first schedule m)).work? id = some w := by
  classical
  have hex := ho n
  obtain ⟨hle, reply, hr⟩ := Nat.find_spec hex
  refine ⟨Nat.find hex, reply, hr, work?_until env hle hw fun k hk hlt reply' he => ?_⟩
  exact Nat.find_min hex hlt ⟨hk, reply', he⟩

/-- A task whose turns come down a well-founded order ends, if it always gets another turn. -/
theorem ends_of_falls {α : Type} {lt : α → α → Prop} (wf : WellFounded lt) (rank : Work → α) (P : Work → Prop)
    (hfalls : ∀ sh w reply, P w →
      Yields (w.resume env sh reply) (fun _ w' => P w' ∧ lt (rank w') (rank w)) (fun _ _ => True))
    {w : Work} (hw : s.work? id = some w) (hp : P w) {schedule : Nat → Action} (ho : Often id schedule) :
    ∃ n, (run env s (first schedule n)).work? id = none := by
  have hfrom : ∀ n w, (run env s (first schedule n)).work? id = some w → P w →
      ∃ n, (run env s (first schedule n)).work? id = none := by
    intro n w
    induction hr : rank w using wf.induction generalizing n w with
    | _ x ih =>
      subst hr
      intro hw hp
      obtain ⟨m, reply, hm, hw'⟩ := next_turn env ho hw
      have hstep := hfalls (run env s (first schedule m)).shared w reply hp
      have hafter := work?_turn env reply hw'
      rw [← hm, ← run_snoc, ← first_succ] at hafter
      rcases hr : w.resume env (run env s (first schedule m)).shared reply with ⟨sh', w' | o⟩
      · rw [hr] at hstep hafter
        exact ih _ hstep.2 (m + 1) w' rfl hafter hstep.1
      · rw [hr] at hafter
        exact ⟨m + 1, hafter⟩
  exact hfrom 0 w hw hp

theorem outcome?_of_over (hid : id < s.tasks.length) (h : s.work? id = none) : ∃ o, s.outcome? id = some o := by
  cases ht : s.tasks[id] with
  | active w =>
    rw [work?_eq_some.2 ((List.getElem?_eq_getElem hid).trans (by rw [ht]))] at h
    cases h
  | ended o => exact ⟨o, by rw [outcome?, List.getElem?_eq_getElem hid, ht]⟩

end System

/-! ## Writes, passes and head updates as tasks -/

namespace Work

/-- Before its first turn a task has more to do than any pass, and than a look at the record. -/
def left : Work → Nat × Nat × Nat
  | .asked _ => (lastWord.toNat + 2, 0, 0)
  | .writeEpoch _ _ w => (0, w.left)
  | .pass _ p => p.left
  | .head _ _ u => u.left
  | _ => (0, 0, 0)

/-- A write, a head update or a pass, where a pass is not past its target. -/
def InRange : Work → Prop
  | .asked (.writeEpoch _ _) | .asked (.pass _ _ _) | .asked (.head _ _ _) | .writeEpoch _ _ _ => True
  | .pass _ p => p.epoch ≤ p.report.target
  | .head _ _ u => u.InRange
  | _ => False

theorem resume_falls (sh : Shared) (w : Work) (reply : Reply) (h : w.InRange) :
    Yields (w.resume env sh reply) (fun _ w' => w'.InRange ∧ PassBelow w'.left w.left) (fun _ _ => True) := by
  cases w with
  | writeEpoch token epoch w =>
    exact (yields_andThen ..).2 ((w.resume_falls env token epoch sh reply).mono (fun _ _ hw => ⟨trivial, .right _ hw⟩)
      fun _ _ _ => trivial)
  | pass token p =>
    exact (yields_andThen ..).2 ((p.resume_falls env token sh reply h).mono (fun _ _ hp => ⟨hp.1, hp.2.2⟩)
      fun _ _ _ => trivial)
  | head guard token u =>
    exact (yields_andThen ..).2 ((u.resume_falls env guard token sh reply h).mono (fun _ _ hu => hu) fun _ _ _ => trivial)
  | asked r =>
    cases r with
    | head guard token event =>
      refine (yields_andThen ..).2 ?_
      unfold HeadUpdate.start
      split
      · exact ⟨trivial, .left _ _ (Nat.lt_succ_self _)⟩
      · trivial
    | writeEpoch token epoch =>
      exact (yields_andThen ..).2 (yields_of_forall _ (fun _ _ => ⟨trivial, .left _ _ (Nat.succ_pos _)⟩)
        fun _ _ => trivial)
    | pass token resume target =>
      refine (yields_andThen ..).2 ((Pass.start_within token resume target sh).mono ?_ fun _ _ _ => trivial)
      rintro _ p ⟨htarget, hepoch, hle⟩
      refine ⟨?_, .left _ _ ?_⟩
      · show p.epoch ≤ p.report.target
        rw [hepoch, htarget]
        exact hle
      · have hlast := toNat_le_lastWord p.report.target
        rw [toNat_lastWord]
        omega
    | _ => exact h.elim
  | _ => exact h.elim

end Work

end CommitteeSync
