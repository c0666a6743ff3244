/-
  CommitteeSync.Proofs.SingleGate — a gate that is the only one.

  At a gate there are attempts to enter, questions whether a section is open, and sections
  that end. Of the attempts from the beginning or one end to the next end, the first is
  admitted and no other (`attempts_between`): it finds the gate free, and all later ones find
  it held.
-/

import CommitteeSync.Guard.Registry

namespace CommitteeSync

namespace Gate

/-! ## Uses and their record -/

/-- What is done at a gate. -/
inductive Use where
  | attempt
  | ask
  | giveBack
  deriving DecidableEq

def use (g : Gate) : Use → Gate × Registry.Answer
  | .attempt =>
    match g.enter? with
    | some entered => (entered, .admitted)
    | none => (g, .denied)
  | .ask => (g, .active g.held)
  | .giveBack => (g.exit, .released)

theorem use_attempt (g : Gate) : g.use .attempt = if g.held then (g, .denied) else (⟨true⟩, .admitted) := by
  unfold use enter?
  cases g.held <;> rfl

/-- The gate after these uses. -/
def after (g : Gate) (us : List Use) : Gate := us.foldl (fun g u => (g.use u).1) g

/-- The uses, each with its answer. -/
def record (g : Gate) : List Use → List (Use × Registry.Answer)
  | [] => []
  | u :: us => (u, (g.use u).2) :: record (g.use u).1 us

/-- The answers to the attempts among the uses. -/
def attempts (log : List (Use × Registry.Answer)) : List Registry.Answer :=
  (log.filter fun use => use.1 = .attempt).map (·.2)

theorem after_append (g : Gate) (us vs : List Use) : g.after (us ++ vs) = (g.after us).after vs :=
  List.foldl_append

theorem record_append (g : Gate) (us vs : List Use) : g.record (us ++ vs) = g.record us ++ (g.after us).record vs := by
  induction us generalizing g with
  | nil => rfl
  | cons u us ih =>
    rw [List.cons_append, record, ih]
    rfl

theorem map_record (g : Gate) (us : List Use) : (g.record us).map (·.1) = us := by
  induction us generalizing g with
  | nil => rfl
  | cons u us ih =>
    rw [record, List.map_cons, ih]

/-! ## Attempts -/

/-- While nothing is given back, a gate that is held denies every attempt. -/
theorem attempts_held {g : Gate} (hg : g.held = true) {us : List Use} (hus : .giveBack ∉ us) :
    ∃ n, attempts (g.record us) = List.replicate n .denied := by
  induction us with
  | nil => exact ⟨0, rfl⟩
  | cons u us ih =>
    obtain ⟨hu, hrest⟩ := not_or.1 (mt List.mem_cons.2 hus)
    obtain ⟨n, hn⟩ := ih hrest
    cases u with
    | attempt =>
      refine ⟨n + 1, ?_⟩
      have huse : g.use .attempt = (g, .denied) := by rw [use_attempt, if_pos hg]
      rw [record, huse, List.replicate_succ, ← hn]
      rfl
    | ask => exact ⟨n, hn⟩
    | giveBack => exact absurd rfl hu

/-- So a free gate admits the first attempt only. -/
theorem attempts_free {us : List Use} (hus : .giveBack ∉ us) :
    attempts (free.record us) = [] ∨ ∃ n, attempts (free.record us) = .admitted :: List.replicate n .denied := by
  induction us with
  | nil => exact Or.inl rfl
  | cons u us ih =>
    obtain ⟨hu, hrest⟩ := not_or.1 (mt List.mem_cons.2 hus)
    cases u with
    | attempt =>
      obtain ⟨n, hn⟩ := @attempts_held ⟨true⟩ rfl us hrest
      refine Or.inr ⟨n, ?_⟩
      rw [← hn]
      rfl
    | ask => exact ih hrest
    | giveBack => exact absurd rfl hu

/-- Each part of a record is the record of its own uses, from where the part before it led. -/
theorem record_split {g : Gate} {us : List Use} {before rest : List (Use × Registry.Answer)}
    (h : g.record us = before ++ rest) :
    before = g.record (before.map (·.1)) ∧ rest = (g.after (before.map (·.1))).record (rest.map (·.1)) := by
  have hus : us = before.map (·.1) ++ rest.map (·.1) := by rw [← map_record g us, h, List.map_append]
  rw [hus, record_append] at h
  have hlength : (g.record (before.map (·.1))).length = before.length := by
    rw [← List.length_map (fun use : Use × Registry.Answer => use.1), map_record, List.length_map]
  obtain ⟨hbefore, hrest⟩ := List.append_inj h hlength
  exact ⟨hbefore.symm, hrest.symm⟩

/-- Of the attempts from the beginning or a release up to the next release, the first is
    admitted and no other. -/
theorem attempts_between {us : List Use} {before stretch rest : List (Use × Registry.Answer)}
    (h : free.record us = before ++ stretch ++ rest)
    (hbefore : before = [] ∨ ∃ a, before.getLast? = some (.giveBack, a)) (hstretch : ∀ use ∈ stretch, use.1 ≠ .giveBack) :
    attempts stretch = [] ∨ ∃ n, attempts stretch = .admitted :: List.replicate n .denied := by
  have hfree : free.after (before.map (·.1)) = free := by
    rcases hbefore with rfl | ⟨a, ha⟩
    · rfl
    · obtain ⟨earlier, rfl⟩ := List.getLast?_eq_some_iff.1 ha
      rw [List.map_append, after_append]
      rfl
  obtain ⟨hleft, -⟩ := record_split h
  obtain ⟨-, hright⟩ := record_split hleft.symm
  rw [hright, hfree]
  refine attempts_free fun hmem => ?_
  obtain ⟨use, huse, hgive⟩ := List.mem_map.1 hmem
  exact hstretch use huse hgive

end Gate

end CommitteeSync
