/-
  CommitteeSync.Proofs.Targets — the passes that following a moving head starts.

  The start of a pass is told of with its range. Whoever follows the head reads the clock for
  each pass, and once more after a pass that completed.

  Proved for any beats (`Follow.drive_targets`): the first pass starts at the resume point and
  each later one after the one before it, but not below the resume point. The targets are the
  readings of the clock; they strictly increase, so there are finitely many passes. A reading
  that starts no pass is the last one, ends a completed report and is not past its target.
-/

import CommitteeSync.Proofs.Alike
import CommitteeSync.Proofs.Driven
import CommitteeSync.Proofs.Endings
import CommitteeSync.Proofs.Reckoning

namespace CommitteeSync

open Turn

variable (env : Setup)

/-! ## Ranges and readings -/

namespace Shared

/-- The passes started and the readings of the clock. -/
def outlook (sh : Shared) : List (Epoch × Epoch) × List Epoch := (sh.ranges, sh.readings)

theorem outlook_log (sh : Shared) (e : Event) : (sh.log e).outlook = (sh.ranges ++ e.range?.toList, sh.readings) := by
  rw [outlook, ranges_log]
  rfl

theorem outlook_quiet (sh : Shared) {e : Event} (h : e.range? = none) : (sh.log e).outlook = sh.outlook := by
  rw [outlook_log, h, Option.toList_none, List.append_nil]
  rfl

theorem outlook_make (sh : Shared) (call : Call) : (sh.make call).outlook = sh.outlook := by
  simp [outlook, ranges, readings, make, mark]

theorem outlook_readClock (sh : Shared) : sh.readClock.1.outlook = (sh.ranges, sh.readings ++ [sh.readClock.2]) := by
  rw [← readClock_readings, outlook]
  congr 1
  unfold readClock
  split <;> rfl

theorem overlooks_outlook : Overlooks outlook where
  make := outlook_make
  count _ := rfl
  beginTx _ := rfl
  cancelTx sh tx := by simp [outlook, ranges, readings, cancelTx, mark]
  commitTx _ _ _ _ := outlook_quiet _ rfl

theorem outlook_change (c : Change) (sh : Shared) : (c.apply env sh).outlook = sh.outlook := by
  cases c with
  | send event => exact Shared.send_view Shared.outlook (fun _ _ _ => rfl) sh _ event
  | endStream => exact Shared.dropSender_view Shared.outlook (fun _ _ _ => rfl) sh
  | _ => rfl

theorem outlook_meets (b : Beat) (sh : Shared) : (b.meets env sh).outlook = sh.outlook := by
  unfold Beat.meets
  induction b.changes generalizing sh with
  | nil => rfl
  | cons c changes ih => exact (ih _).trans (outlook_change env c sh)

end Shared

namespace Pass

theorem enter_outlook (token : Token) (report : Report) (epoch : Epoch) (sh : Shared) :
    (enter token report epoch sh).1.outlook = sh.outlook := by
  unfold enter
  split
  · exact Shared.outlook_quiet sh rfl
  · exact Shared.outlook_make sh _

theorem start_outlook (token : Token) (resume target : Epoch) (sh : Shared) :
    (start token resume target sh).1.outlook = (sh.ranges ++ [(resume, target)], sh.readings) := by
  unfold start
  split
  · exact Shared.outlook_log sh _
  · rw [enter_outlook]
    exact Shared.outlook_log _ _

theorem resume_outlook (token : Token) (sh : Shared) (p : Pass) (reply : Reply) :
    (p.resume env token sh reply).1.outlook = sh.outlook := by
  rw [resume, andThen_view Shared.outlook _ _ fun sh r => ?_]
  · exact EpochWrite.resume_overlooked env Shared.overlooks_outlook token p.epoch sh p.write reply
  · cases r with
    | error error => exact Shared.outlook_quiet sh rfl
    | ok n =>
      simp only [settle]
      split
      · exact Shared.outlook_quiet sh rfl
      · exact enter_outlook token _ _ sh

end Pass

/-! ## One pass after another -/

namespace Follow

/-- The next pass goes further, and starts after the one before it but not below `first`. -/
def Onward (first : Epoch) (a b : Epoch × Epoch) : Prop := a.2 < b.2 ∧ b.1 = max first (nextEpoch a.2)

/-- The passes started since `sh₀`, the last of them up to `target`. Their targets were all
    that was read from the clock, but for a `last?` reading. -/
structure Ranged (first target : Epoch) (sh₀ sh : Shared) (ranges : List (Epoch × Epoch)) (last? : Option Epoch) : Prop where
  started : sh.ranges = sh₀.ranges ++ ranges
  read : sh.readings = sh₀.readings ++ ranges.map Prod.snd ++ last?.toList
  head : ranges.head?.map Prod.fst = some first
  chain : ranges.IsChain (Onward first)
  last : ranges.getLast?.map Prod.snd = some target

variable {token : Token} {first target head : Epoch} {sh₀ sh sh' : Shared} {ranges : List (Epoch × Epoch)}

theorem Ranged.of_outlook {last? : Option Epoch} (h : Ranged first target sh₀ sh ranges last?) (ho : sh'.outlook = sh.outlook) :
    Ranged first target sh₀ sh' ranges last? :=
  ⟨(congrArg Prod.fst ho).trans h.started, (congrArg Prod.snd ho).trans h.read, h.head, h.chain, h.last⟩

/-- Another pass, up to a reading past the last target. -/
theorem Ranged.snoc (h : Ranged first target sh₀ sh ranges none) (hlt : target < head)
    (ho : sh'.outlook = (sh.ranges ++ [(max first (nextEpoch target), head)], sh.readings ++ [head])) :
    Ranged first head sh₀ sh' (ranges ++ [(max first (nextEpoch target), head)]) none := by
  obtain ⟨a, hlast, ha⟩ := Option.map_eq_some_iff.1 h.last
  obtain ⟨b, hhead, hb⟩ := Option.map_eq_some_iff.1 h.head
  constructor
  · rw [← List.append_assoc, ← h.started]
    exact congrArg Prod.fst ho
  · have hread := h.read
    rw [Option.toList_none, List.append_nil] at hread ⊢
    rw [List.map_append, ← List.append_assoc, ← hread]
    exact congrArg Prod.snd ho
  · rw [List.head?_append, hhead]
    exact congrArg some hb
  · rw [List.isChain_append]
    refine ⟨h.chain, .singleton _, ?_⟩
    rintro x hx y hy
    rw [Option.mem_def, hlast] at hx
    cases hx
    cases hy
    rw [← ha] at hlt ⊢
    exact ⟨hlt, rfl⟩
  · rw [List.getLast?_concat]
    rfl

/-- The passes that were started since `sh₀`, when following the head has got this far. A
    completed report comes with one more reading, which is not past its target. -/
def Targets (first : Epoch) (sh₀ : Shared) (t : Shared × Turn Follow Report) : Prop :=
  Yields t (fun sh f => f.total.resume = first ∧ ∃ ranges, Ranged first f.pass.report.target sh₀ sh ranges none)
    (fun sh r => ∃ ranges last?, Ranged first r.target sh₀ sh ranges last? ∧ last?.isSome = r.isCompleted ∧
      ∀ e ∈ last?, e ≤ r.target)

/-- The start of a pass up to the next reading of the clock. -/
theorem next_outlook (token : Token) (next : Epoch) (sh : Shared) :
    (Pass.start token next sh.readClock.2 sh.readClock.1).1.outlook =
      (sh.ranges ++ [(next, sh.readClock.2)], sh.readings ++ [sh.readClock.2]) := by
  have hclock := Shared.outlook_readClock sh
  rw [Pass.start_outlook, show sh.readClock.1.ranges = _ from congrArg Prod.fst hclock,
    show sh.readClock.1.readings = _ from congrArg Prod.snd hclock]

theorem lookAgain_targets {total : Report} (hr : Ranged first total.target sh₀ sh ranges none) (hf : total.resume = first) :
    Targets first sh₀ (lookAgain token total sh) := by
  subst hf
  fun_induction lookAgain token total sh generalizing ranges with
  | case1 total sh hc hahead after pass hp =>
    have hstart := Pass.start_within token (max total.resume (nextEpoch total.target)) sh.readClock.2 sh.readClock.1
    have ho := next_outlook token (max total.resume (nextEpoch total.target)) sh
    rw [hp] at hstart ho
    obtain ⟨htarget, -, -⟩ := hstart
    have hnext := hr.snoc hahead ho
    rw [← htarget] at hnext
    exact ⟨rfl, _, hnext⟩
  | case2 total sh hc hahead after report hp ih =>
    have ho := next_outlook token (max total.resume (nextEpoch total.target)) sh
    rw [hp] at ho
    exact ih (hr.snoc hahead ho)
  | case3 total sh hc hahead =>
    have hclock := Shared.outlook_readClock sh
    have hread := hr.read
    rw [Option.toList_none, List.append_nil] at hread
    refine ⟨ranges, some sh.readClock.2, ⟨?_, ?_, hr.head, hr.chain, hr.last⟩, by simp [hc], ?_⟩
    · exact (congrArg Prod.fst hclock).trans hr.started
    · rw [← hread]
      exact congrArg Prod.snd hclock
    · rintro e he
      cases he
      exact UInt64.not_lt.1 hahead
  | case4 total sh hc => exact ⟨ranges, none, hr, by simpa using hc, fun _ he => by cases he⟩

theorem start_targets (token : Token) (resume : Epoch) (sh : Shared) : Targets resume sh (start token resume sh) := by
  have hstart := Pass.start_within token resume sh.readClock.2 sh.readClock.1
  have ho := next_outlook token resume sh
  have hfirst : ∀ sh' : Shared, sh'.outlook = (sh.ranges ++ [(resume, sh.readClock.2)], sh.readings ++ [sh.readClock.2]) →
      Ranged resume sh.readClock.2 sh sh' [(resume, sh.readClock.2)] none := by
    intro sh' ho
    refine ⟨congrArg Prod.fst ho, ?_, rfl, .singleton _, rfl⟩
    rw [Option.toList_none, List.append_nil]
    exact congrArg Prod.snd ho
  unfold start
  split
  · rename_i after pass hp
    rw [hp] at hstart ho
    obtain ⟨htarget, -, -⟩ := hstart
    have hranged := hfirst after ho
    rw [← htarget] at hranged
    exact ⟨rfl, _, hranged⟩
  · rename_i after report hp
    rw [hp] at ho
    have htotal : Ranged resume ((Report.empty resume sh.readClock.2).extend sh.readClock.2 report).target sh after _ none :=
      hfirst after ho
    exact lookAgain_targets htotal rfl

theorem resume_targets {f : Follow} (hr : Ranged f.total.resume f.pass.report.target sh₀ sh ranges none) (reply : Reply) :
    Targets f.total.resume sh₀ (f.resume env token sh reply) := by
  have hp := Pass.resume_completion env token sh f.pass reply
  have ho := yields_of_fst (P := fun sh' => sh'.outlook = sh.outlook) (Pass.resume_outlook env token sh f.pass reply)
  refine (yields_andThen ..).2 ((hp.and ho).mono ?_ ?_)
  · rintro sh' p ⟨⟨-, htarget⟩, ho⟩
    refine ⟨rfl, ranges, ?_⟩
    show Ranged _ p.report.target sh₀ sh' ranges none
    rw [htarget]
    exact hr.of_outlook ho
  · rintro sh' r ⟨-, ho⟩
    have htotal : Ranged f.total.resume (f.total.extend f.pass.report.target r).target sh₀ sh' ranges none := hr.of_outlook ho
    exact lookAgain_targets htotal rfl

/-! ## Along all beats -/

theorem beat_targets {t : Shared × Turn Follow Report} (h : Targets first sh₀ t) (b : Beat) :
    Targets first sh₀ (beat env (Follow.resume env token) t b) := by
  obtain ⟨sh, f | r⟩ := t
  · obtain ⟨rfl, ranges, hr⟩ := h
    exact resume_targets env (hr.of_outlook (Shared.outlook_meets env b sh)) b.reply
  · obtain ⟨ranges, last?, hr, hlast⟩ := h
    exact ⟨ranges, last?, hr.of_outlook (Shared.outlook_meets env b sh), hlast⟩

theorem drive_targets (token : Token) (resume : Epoch) (sh : Shared) (beats : List Beat) :
    Targets resume sh (drive env (Follow.resume env token) (start token resume sh) beats) :=
  drive_induction env (start_targets token resume sh) (fun _ b h => beat_targets env h b) beats

/-! ## The last target is the largest -/

theorem Ranged.le_last {last? : Option Epoch} (h : Ranged first target sh₀ sh ranges last?) {e : Epoch}
    (he : e ∈ ranges.map Prod.snd) : e ≤ target := by
  obtain ⟨a, hlast, rfl⟩ := Option.map_eq_some_iff.1 h.last
  have hchain := h.chain
  clear h
  induction ranges generalizing e with
  | nil => cases he
  | cons b ranges ih =>
    cases ranges with
    | nil =>
      cases hlast
      rw [List.map_cons, List.map_nil, List.mem_singleton] at he
      rw [he]
      exact UInt64.le_refl _
    | cons c ranges =>
      obtain ⟨hbc, hrest⟩ := List.isChain_cons_cons.1 hchain
      rw [List.getLast?_cons_cons] at hlast
      rw [List.map_cons] at he
      rcases List.mem_cons.1 he with rfl | he
      · exact UInt64.le_of_lt (UInt64.lt_of_lt_of_le hbc.1 (ih List.mem_cons_self hlast hrest))
      · exact ih he hlast hrest

/-- If the reading that started no pass is not past it, the last target is the largest of all. -/
theorem Ranged.largest {last? : Option Epoch} (h : Ranged first target sh₀ sh ranges last?) (hlast : ∀ e ∈ last?, e ≤ target) :
    ∃ read, sh.readings = sh₀.readings ++ read ∧ target ∈ read ∧ ∀ e ∈ read, e ≤ target := by
  refine ⟨ranges.map Prod.snd ++ last?.toList, by rw [← List.append_assoc, h.read], ?_, ?_⟩
  · obtain ⟨a, ha, rfl⟩ := Option.map_eq_some_iff.1 h.last
    exact List.mem_append_left _ (List.mem_map_of_mem (List.mem_of_getLast? ha))
  · intro e he
    rcases List.mem_append.1 he with he | he
    · exact h.le_last he
    · exact hlast e (Option.mem_toList.1 he)

end Follow

end CommitteeSync
