/-
  CommitteeSync.Proofs.Background — the background run beside everything else.

  The background run is launched once, by itself or by a supervisor, and brings the reporter
  and one startup with it. Its handler has the tokens it was launched with from then on, and
  only its startup captures an error.

  Proved, for any action and any run:
  (1) Cancelling is for good (`System.isCancelled_run`).
  (2) After the launch the tokens of the run stay the same, and no other task captures an
      error (`System.launched_act`, `System.runs_act`, `System.captured_act`).
  (3) If startups come by launching only, there are none before the launch and at most one
      after it (`System.Spawned`, `System.spawned_run`).
-/

import CommitteeSync.Proofs.Effects

namespace CommitteeSync

open Turn

variable (env : Setup)

namespace System

variable {s s₀ : System} {acts : List Action} {a : Action} {id : Nat} {w w' : Work}

/-! ## Tokens and the handler -/

theorem change_background (c : Change) (sh : Shared) : (c.apply env sh).background = sh.background := by
  cases c with
  | send event => exact Shared.send_view Shared.background (fun _ _ _ => rfl) sh _ event
  | endStream => exact Shared.dropSender_view Shared.background (fun _ _ _ => rfl) sh
  | _ => rfl

theorem change_cancelled {t : Token} {sh : Shared} (c : Change) (h : sh.isCancelled t) :
    (c.apply env sh).isCancelled t := by
  cases c with
  | cancel token => exact Tokens.isCancelled_cancel h
  | send event => exact (Shared.send_view (Shared.isCancelled · t) (fun _ _ _ => rfl) sh _ event).trans h
  | endStream => exact (Shared.dropSender_view (Shared.isCancelled · t) (fun _ _ _ => rfl) sh).trans h
  | _ => exact h

theorem isCancelled_act {t : Token} (h : s.shared.isCancelled t) (a : Action) : (act env s a).shared.isCancelled t := by
  cases a with
  | request r => exact h
  | launch root => simp only [act]; split <;> exact h
  | turn id reply =>
    cases hw : s.work? id with
    | none => rwa [turn_of_none env reply hw]
    | some w => exact (turn_effects env reply hw).cancelled h
  | change c => exact change_cancelled env c h

theorem isCancelled_run {t : Token} (h : (run env s₀ acts).shared.isCancelled t) (since : List Action) :
    (run env s₀ (acts ++ since)).shared.isCancelled t := by
  induction since using List.reverseRecOn with
  | nil => rwa [List.append_nil]
  | append_singleton since a ih =>
    rw [← List.append_assoc, run_snoc]
    exact isCancelled_act env ih a

theorem launched_act (h : s.shared.background.launched) : (act env s a).shared.background.launched := by
  cases a with
  | request r => exact h
  | launch root => simp only [act, h, if_true]
  | turn id reply =>
    cases hw : s.work? id with
    | none => rwa [turn_of_none env reply hw]
    | some w => exact (turn_effects env reply hw).stays_launched h
  | change c => rwa [show (act env s (.change c)).shared.background = _ from change_background env c s.shared]

/-- The background run stays under the tokens it was launched with. -/
theorem runs_act (h : s.shared.background.launched) (a : Action) :
    (act env s a).shared.runToken = s.shared.runToken ∧
    (act env s a).shared.background.handler.root = s.shared.background.handler.root := by
  cases a with
  | request r => exact ⟨rfl, rfl⟩
  | launch root => simp only [act, h, if_true, and_self]
  | turn id reply =>
    cases hw : s.work? id with
    | none => rw [turn_of_none env reply hw]; exact ⟨rfl, rfl⟩
    | some w => exact (turn_effects env reply hw).runs h
  | change c =>
    have hb : (act env s (.change c)).shared.background = s.shared.background := change_background env c s.shared
    rw [Shared.runToken, hb]
    exact ⟨rfl, rfl⟩

/-- Along any run. -/
theorem runs_run (h : s.shared.background.launched) (acts : List Action) :
    (run env s acts).shared.background.launched ∧ (run env s acts).shared.runToken = s.shared.runToken ∧
    (run env s acts).shared.background.handler.root = s.shared.background.handler.root := by
  induction acts using List.reverseRecOn with
  | nil => exact ⟨h, rfl, rfl⟩
  | append_singleton acts a ih =>
    obtain ⟨hl, hrun, hroot⟩ := ih
    obtain ⟨hrun', hroot'⟩ := runs_act env hl a
    rw [run_snoc]
    exact ⟨launched_act env hl, hrun'.trans hrun, hroot'.trans hroot⟩

/-- Only a turn of a startup captures an error, and none is captured at the launch. -/
theorem captured_act (h : s.shared.background.launched → s.shared.captured = none)
    (hk : ∀ id reply w, a = .turn id reply → s.work? id = some w → w.kind ≠ .startup)
    (hl : (act env s a).shared.background.launched) : (act env s a).shared.captured = none := by
  cases a with
  | request r => exact h hl
  | launch root =>
    simp only [act] at hl ⊢
    split
    · rename_i hb
      exact h hb
    · rfl
  | turn id reply =>
    cases hw : s.work? id with
    | none =>
      rw [turn_of_none env reply hw] at hl ⊢
      exact h hl
    | some w => exact (turn_effects env reply hw).captured_none (hk id reply w rfl hw) h hl
  | change c =>
    have hb : (act env s (.change c)).shared.background = s.shared.background := change_background env c s.shared
    rw [hb] at hl
    rw [Shared.captured, hb]
    exact h hl

/-- A captured error stays, but for a turn of a startup. -/
theorem captured_kept (h : s.shared.background.launched)
    (hk : ∀ id reply w, a = .turn id reply → s.work? id = some w → w.kind ≠ .startup) :
    (act env s a).shared.captured = s.shared.captured := by
  cases a with
  | request r => rfl
  | launch root => simp only [act, h, if_true]
  | turn id reply =>
    cases hw : s.work? id with
    | none => rw [turn_of_none env reply hw]
    | some w => exact (turn_effects env reply hw).captured (hk id reply w rfl hw) h
  | change c =>
    have hb : (act env s (.change c)).shared.background = s.shared.background := change_background env c s.shared
    rw [Shared.captured, hb]
    rfl

/-! ## One startup -/

theorem of_launched {before after : Shared} {i : Nat} (h : (launched before after)[i]? = some (.active w)) :
    before.background.launched = false ∧ after.background.launched ∧
      (w = .asked .reporter ∨ w = .asked .startup ∧ i = 1) := by
  unfold launched at h
  split at h
  · rename_i hl
    rw [Bool.and_eq_true, Bool.not_eq_true'] at hl
    refine ⟨hl.2, hl.1, ?_⟩
    match i, h with
    | 0, h => cases h; exact Or.inl rfl
    | 1, h => cases h; exact Or.inr ⟨rfl, rfl⟩
  · cases h

/-- The tasks that an action adds are the one that was asked for, or those of a background run. -/
theorem asked_act (hid : s.tasks.length ≤ id) (h : (act env s a).work? id = some w) :
    (∃ r, a = .request r ∧ w = .asked r) ∨
    (s.shared.background.launched = false ∧ (act env s a).shared.background.launched ∧
      (w = .asked .reporter ∨ w = .asked .startup ∧ id = s.tasks.length + 1)) := by
  have hnone : s.tasks[id]? = none := List.getElem?_eq_none hid
  have hnew : ∀ {tasks : List Task} {after : Shared}, tasks.length = s.tasks.length →
      (tasks ++ launched s.shared after)[id]? = some (.active w) → s.shared.background.launched = false ∧
        after.background.launched ∧ (w = .asked .reporter ∨ w = .asked .startup ∧ id = s.tasks.length + 1) := by
    intro tasks after hlen h
    rw [List.getElem?_append_right (by omega), hlen] at h
    obtain ⟨hb, ha, hw⟩ := of_launched h
    exact ⟨hb, ha, hw.imp (fun hw => hw) fun hw => ⟨hw.1, by omega⟩⟩
  rw [work?_eq_some] at h
  cases a with
  | request r =>
    simp only [act, request, List.getElem?_append_right hid] at h
    have hm := List.mem_of_getElem? h
    simp only [List.mem_singleton, Task.active.injEq] at hm
    exact Or.inl ⟨r, rfl, hm⟩
  | launch root =>
    simp only [act] at h ⊢
    split at h
    · rw [hnone] at h
      cases h
    · rename_i hl
      rw [if_neg hl]
      exact Or.inr (hnew rfl h)
  | turn task reply =>
    cases hw : s.work? task with
    | none =>
      rw [turn_of_none env reply hw, hnone] at h
      cases h
    | some v =>
      rw [turn_of_some env reply hw] at h ⊢
      exact Or.inr (hnew (by simp) h)
  | change c =>
    rw [show (act env s (.change c)).tasks = s.tasks from rfl, hnone] at h
    cases h

/-- A task that was there before the action is of the kind it was of. -/
theorem kind_before (hid : id < s.tasks.length) (h : (act env s a).work? id = some w') :
    ∃ w, s.work? id = some w ∧ w'.kind = w.kind := by
  by_cases ha : ∃ reply, a = .turn id reply
  · obtain ⟨reply, rfl⟩ := ha
    obtain ⟨w, hw, hr⟩ := work?_turn_eq_some env h
    have hk := w.resume_kind env s.shared reply
    rw [hr] at hk
    exact ⟨w, hw, hk⟩
  · have hne : ∀ reply, a ≠ .turn id reply := fun reply he => ha ⟨reply, he⟩
    refine ⟨w', ?_, rfl⟩
    rw [work?_eq_some] at h ⊢
    rw [← tasks_kept env hid hne, h]

/-- Startups come with the launch: none is there before it, and there is only one. -/
structure Spawned (s : System) : Prop where
  launched : ∀ id w, s.work? id = some w → w.kind = .startup → s.shared.background.launched
  one : ∀ id id' w w', s.work? id = some w → s.work? id' = some w' → w.kind = .startup → w'.kind = .startup → id = id'

/-- Where a startup after an action comes from, if none was asked for. -/
theorem startup_came (ha : ∀ r, a = .request r → r.kind ≠ .startup) (h : (act env s a).work? id = some w')
    (hk : w'.kind = .startup) :
    (∃ w, s.work? id = some w ∧ w.kind = .startup) ∨
    (s.shared.background.launched = false ∧ (act env s a).shared.background.launched ∧ w' = .asked .startup ∧
      id = s.tasks.length + 1) := by
  by_cases hid : id < s.tasks.length
  · obtain ⟨w, hw, hkind⟩ := kind_before env hid h
    exact Or.inl ⟨w, hw, by rw [← hkind, hk]⟩
  · rcases asked_act env (Nat.not_lt.1 hid) h with ⟨r, hr, rfl⟩ | ⟨hb, hb', rfl | ⟨rfl, hlast⟩⟩
    · exact absurd hk (ha r hr)
    · cases hk
    · exact Or.inr ⟨hb, hb', rfl, hlast⟩

theorem Spawned.act (h : Spawned s) (ha : ∀ r, a = .request r → r.kind ≠ .startup) : Spawned (act env s a) := by
  constructor
  · intro id w' hw' hk
    rcases startup_came env ha hw' hk with ⟨w, hw, hs⟩ | ⟨-, hl, -⟩
    · exact launched_act env (h.launched id w hw hs)
    · exact hl
  · intro id id' w w' hw hw' hk hk'
    rcases startup_came env ha hw hk with ⟨v, hv, hs⟩ | ⟨hb, -, -, hid⟩
    · rcases startup_came env ha hw' hk' with ⟨v', hv', hs'⟩ | ⟨hb, -⟩
      · exact h.one id id' v v' hv hv' hs hs'
      · rw [h.launched id v hv hs] at hb
        cases hb
    · rcases startup_came env ha hw' hk' with ⟨v', hv', hs'⟩ | ⟨-, -, -, hid'⟩
      · rw [h.launched id' v' hv' hs'] at hb
        cases hb
      · rw [hid, hid']

/-- Requests of this run do not ask for a startup; those come by launching. -/
theorem spawned_run (hs : s₀.Idle) (h : Only (fun k => k ≠ .startup) acts) : Spawned (run env s₀ acts) := by
  induction acts using List.reverseRecOn with
  | nil =>
    have hnone : ∀ {id w}, (run env s₀ []).work? id ≠ some w := by
      intro id w hw
      rw [run_nil, hs.work?] at hw
      cases hw
    exact ⟨fun _ _ hw => absurd hw hnone, fun _ _ _ _ hw => absurd hw hnone⟩
  | append_singleton acts a ih =>
    rw [run_snoc]
    refine (ih h.of_snoc).act env fun r hr => ?_
    simpa using h.last r hr

end System

end CommitteeSync
