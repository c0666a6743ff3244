/-
  CommitteeSync.Proofs.Driven — a piece of work by itself.

  Where no other task is about, what a piece of work meets with is a list of beats: before
  each of its turns things change around it, and the turn brings it a reply.

  Proved:
  (1) Driven by beats it does what a task does that is alone (`run_alone`).
  (2) It ends in every endless row of beats, if each of its turns comes down a well-founded
      order (`drive_ends`).
-/

import CommitteeSync.Proofs.TaskCalls

namespace CommitteeSync

open Turn

variable (env : Setup)

/-! ## Beats -/

/-- What changes before a turn, and the reply that the turn brings. -/
structure Beat where
  changes : List Change
  reply : Reply

namespace Beat

/-- The state that the turn finds. -/
def meets (b : Beat) (sh : Shared) : Shared := b.changes.foldl (Change.apply env) sh

/-- The same as actions, where task `id` has the turn. -/
def acts (id : Nat) (b : Beat) : List Action := b.changes.map .change ++ [.turn id b.reply]

end Beat

section Drive

variable {σ ρ : Type} (next : Shared → σ → Reply → Shared × Turn σ ρ)

/-- What waits goes on; what has ended stays so, whatever changes. -/
def beat (t : Shared × Turn σ ρ) (b : Beat) : Shared × Turn σ ρ :=
  match t with
  | (sh, .waits s) => next (b.meets env sh) s b.reply
  | (sh, .ends r) => (b.meets env sh, .ends r)

def drive (t : Shared × Turn σ ρ) (beats : List Beat) : Shared × Turn σ ρ := beats.foldl (beat env next) t

variable {next}

theorem drive_snoc (t : Shared × Turn σ ρ) (beats : List Beat) (b : Beat) :
    drive env next t (beats ++ [b]) = beat env next (drive env next t beats) b := by
  simp only [drive, List.foldl_append, List.foldl_cons, List.foldl_nil]

/-- What the changes and the turns keep holds of all that is driven. -/
theorem drive_induction {P : Shared × Turn σ ρ → Prop} {t : Shared × Turn σ ρ} (ht : P t)
    (hbeat : ∀ t b, P t → P (beat env next t b)) (beats : List Beat) : P (drive env next t beats) := by
  induction beats using List.reverseRecOn with
  | nil => exact ht
  | append_singleton beats b ih =>
    rw [drive_snoc]
    exact hbeat _ b ih

/-- Work whose turns come down a well-founded order comes to an end. -/
theorem drive_ends {α : Type} {lt : α → α → Prop} (wf : WellFounded lt) (rank : σ → α) (P : σ → Prop)
    (hfalls : ∀ sh s reply, P s →
      Yields (next sh s reply) (fun _ s' => P s' ∧ lt (rank s') (rank s)) (fun _ _ => True))
    {t : Shared × Turn σ ρ} (ht : Yields t (fun _ s => P s) (fun _ _ => True)) (beats : Nat → Beat) :
    ∃ n r, (drive env next t ((List.range n).map beats)).2 = .ends r := by
  obtain ⟨sh, s | r⟩ := t
  · induction hr : rank s using wf.induction generalizing sh s beats with
    | _ x ih =>
      subst hr
      have hstep := hfalls ((beats 0).meets env sh) s (beats 0).reply ht
      -- The rest of the beats drive on what the first one leaves.
      have hrest : ∀ n, drive env next (sh, .waits s) ((List.range (n + 1)).map beats) =
          drive env next (next ((beats 0).meets env sh) s (beats 0).reply) ((List.range n).map fun k => beats (k + 1)) := by
        intro n
        rw [List.range_succ_eq_map, List.map_cons, List.map_map]
        rfl
      rcases hn : next ((beats 0).meets env sh) s (beats 0).reply with ⟨sh', s' | r⟩
      · rw [hn] at hstep
        obtain ⟨n, r, hends⟩ := ih _ hstep.2 (fun k => beats (k + 1)) sh' s' hstep.1 rfl
        exact ⟨n + 1, r, by rw [hrest, hn, hends]⟩
      · exact ⟨1, r, by rw [hrest, hn]; rfl⟩
  · exact ⟨0, r, rfl⟩

end Drive

/-! ## A task alone -/

namespace System

/-- A system with one task. -/
def alone (t : Work.Result) : System := ⟨t.1, [taskOf t.2]⟩

theorem launched_of_kind {k : Kind} {sh sh' : Shared} (h : Effects k sh sh') (hk : k ≠ .aside) : launched sh sh' = [] := by
  rw [launched, h.launched hk, Bool.and_not_self]
  rfl

theorem run_changes (s : System) (changes : List Change) :
    run env s (changes.map .change) = { s with shared := changes.foldl (Change.apply env) s.shared } := by
  induction changes generalizing s with
  | nil => rfl
  | cons c changes ih => exact ih { s with shared := c.apply env s.shared }

/-- The task does in its turns what the work does that is driven by the same beats. -/
theorem run_alone {σ ρ : Type} {next : Shared → σ → Reply → Shared × Turn σ ρ} {wrap : σ → Work} {out : ρ → Outcome}
    (hresume : ∀ sh s reply, (wrap s).resume env sh reply = Turn.andThen (next sh s reply) wrap (Work.ending out))
    (hkind : ∀ s, (wrap s).kind ≠ .aside) (t : Shared × Turn σ ρ) (beats : List Beat) :
    run env (alone (Turn.andThen t wrap (Work.ending out))) (beats.flatMap (Beat.acts 0)) =
      alone (Turn.andThen (drive env next t beats) wrap (Work.ending out)) := by
  induction beats using List.reverseRecOn with
  | nil => rfl
  | append_singleton beats b ih =>
    rw [List.flatMap_append, run_append, ih, drive_snoc, List.flatMap_singleton, Beat.acts, run_append, run_changes]
    obtain ⟨sh, s | r⟩ := drive env next t beats
    · have hw : System.work? ⟨b.meets env sh, [.active (wrap s)]⟩ 0 = some (wrap s) := rfl
      have heffects := Work.resume_effects env (b.meets env sh) (wrap s) b.reply
      have hnone := launched_of_kind heffects (hkind s)
      show act env ⟨b.meets env sh, [.active (wrap s)]⟩ (.turn 0 b.reply) = _
      rw [turn_of_some env b.reply hw]
      dsimp only
      rw [hnone, hresume]
      rfl
    · rfl

end System

end CommitteeSync
