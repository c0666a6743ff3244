/-
  CommitteeSync.Proofs.PastLastSlot — epochs that would start past the last slot.

  The first slot of an epoch is asked for of any epoch, also of one whose slots are no words.
  What is fetched for such an epoch is then of the state at the last slot, and no assignment
  there can be of the epoch. So:
  (1) Staging the epoch refuses the first assignment of any answer, before anything is put
      (`Staging.resume_slotless`), and the write of the epoch fails (`EpochWrite.resume_slotless`).
  (2) The write of the epoch commits only after an empty answer, and so leaves the committed
      committees alone whatever happens beside it (`System.entries_turn_slotless`).
  Slots and epochs agree on all other epochs (`slots_and_epochs_agree`).
-/

import CommitteeSync.Proofs.EpochSpans
import CommitteeSync.Proofs.Staged

namespace CommitteeSync

variable (env : Setup) {epoch : Epoch}

/-- A fetch of an epoch without slots that is answered with anything is refused. -/
theorem Staging.resume_slotless (hno : ∀ s, env.layout.epochOf s ≠ epoch) (tx : Transaction) (found : Shared) (reply : Reply)
    (hne : found.chain (env.layout.firstSlot epoch) ≠ []) :
    ∃ cause, (Staging.fetching tx).resume env epoch found reply = (found, .ends (tx, .error cause)) := by
  cases reply with
  | failed cause => exact ⟨_, rfl⟩
  | granted =>
    obtain ⟨a, rest, has⟩ := List.exists_cons_of_ne_nil hne
    refine ⟨.foreignSlot a.slot (env.layout.epochOf a.slot) epoch, ?_⟩
    rw [resume, has, advance, if_neg (hno a.slot)]

/-- So the write that fetched fails. -/
theorem EpochWrite.resume_slotless (hno : ∀ s, env.layout.epochOf s ≠ epoch) (token : Token) (tx : Transaction)
    (found : Shared) (reply : Reply) (hne : found.chain (env.layout.firstSlot epoch) ≠ []) :
    ∃ sh error, (EpochWrite.staging (.fetching tx)).resume env token epoch found reply = (sh, .ends (.error error)) := by
  simp only [resume]
  split
  · exact ⟨_, _, rfl⟩
  · obtain ⟨cause, hrefused⟩ := Staging.resume_slotless env hno tx found reply hne
    rw [hrefused]
    exact ⟨_, _, rfl⟩

/-- A write of an epoch without slots that commits has staged no committee. -/
theorem EpochWrite.Stages.no_committees (hno : ∀ s, env.layout.epochOf s ≠ epoch) {as : List Assignment} {tx : Transaction}
    {written : Nat} (h : (EpochWrite.committing tx written).Stages env epoch as) : tx.committees = [] := by
  obtain ⟨rfl, hof⟩ := h
  cases as with
  | nil => rfl
  | cons a as => exact absurd (hof a List.mem_cons_self) (hno a.slot)

namespace System

variable {s₀ : System} {acts : List Action} {id : Nat} {w : EpochWrite}

/-- A task that writes an epoch without slots changes no committee in any of its turns. -/
theorem entries_turn_slotless (hno : ∀ s, env.layout.epochOf s ≠ epoch) (hs : s₀.Idle)
    (hw : (run env s₀ acts).write? id = some (epoch, w)) (reply : Reply) :
    (act env (run env s₀ acts) (.turn id reply)).shared.store.entries = (run env s₀ acts).shared.store.entries := by
  obtain ⟨k, hk, hkw⟩ := write?_eq_some.1 hw
  have hkind : k.kind ≠ .stage := fun h => by
    rw [Work.write?_of_stage h] at hkw
    cases hkw
  have hledger := Work.resume_ledger env (run env s₀ acts).shared k reply hkind
  rw [← shared_turn env reply hk] at hledger
  cases hc : commitOf k.write? reply with
  | none =>
    rw [hc] at hledger
    exact congrArg Ledger.entries hledger
  | some et =>
    obtain ⟨epoch', tx⟩ := et
    obtain ⟨-, written, hopen⟩ := commitOf_eq_some.1 hc
    cases hkw.symm.trans hopen
    rw [hc, Ledger.after_some] at hledger
    rcases fresh_or_fetched env hs hw with hfresh | ⟨as, hfetched⟩
    · exact hfresh.elim
    · obtain ⟨w, hw', hstages⟩ := hfetched.stages
      cases hw.symm.trans hw'
      refine (congrArg Ledger.entries hledger).trans ?_
      rw [Ledger.commit, hstages.no_committees env hno]
      rfl

end System

/-- What becomes of an epoch that would start past the last slot. -/
structure Slotless (epoch : Epoch) : Prop where
  saturates : env.layout.firstSlot epoch = lastWord
  noSlot : ∀ s, env.layout.epochOf s ≠ epoch
  /-- Staging its committees fails on any answer that is not empty, and stages nothing of it. -/
  refused : ∀ (tx : Transaction) (asked found : Shared) (reply : Reply), found.chain (env.layout.firstSlot epoch) ≠ [] →
    ∃ cause, (Staging.start env epoch tx asked).2.resume env epoch found reply = (found, .ends (tx, .error cause))
  /-- The write that fetched for it fails on any such answer. -/
  failed : ∀ (token : Token) (tx : Transaction) (found : Shared) (reply : Reply), found.chain (env.layout.firstSlot epoch) ≠ [] →
    ∃ sh error, (EpochWrite.staging (.fetching tx)).resume env token epoch found reply = (sh, .ends (.error error))
  /-- No turn of a task that writes it changes a committee, in any interleaving. -/
  unstored : ∀ (s₀ : System) (acts : List Action) (id : Nat) (w : EpochWrite) (reply : Reply), s₀.Idle →
    (System.run env s₀ acts).write? id = some (epoch, w) →
    (System.run env s₀ (acts ++ [.turn id reply])).shared.store.committees = (System.run env s₀ acts).shared.store.committees

theorem slotless (h : lastWord.toNat < epoch.toNat * env.layout.slotsPerEpoch.toNat) : Slotless env epoch := by
  have hno := env.layout.epochOf_ne h
  refine ⟨env.layout.firstSlot_eq_lastWord (Nat.le_of_lt h), hno, ?_, ?_, ?_⟩
  · intro tx asked found reply hne
    exact Staging.resume_slotless env hno tx found reply hne
  · intro token tx found reply hne
    exact EpochWrite.resume_slotless env hno token tx found reply hne
  · intro s₀ acts id w reply hs hw
    rw [System.run_snoc, Store.committees, System.entries_turn_slotless env hno hs hw reply, Store.committees]

/-- An epoch's slots are the words from one multiple of its length to the next; it has a first
    one, and that one is of the epoch, just if the multiple is a word; and an epoch without slots
    gets no committees. -/
theorem slots_and_epochs_agree (epoch : Epoch) :
    let p := env.layout.slotsPerEpoch.toNat
    (∀ s, env.layout.epochOf s = epoch ↔ epoch.toNat * p ≤ s.toNat ∧ s.toNat < (epoch.toNat + 1) * p) ∧
    (env.layout.epochOf (env.layout.firstSlot epoch) = epoch ↔ epoch.toNat * p ≤ 2 ^ 64 - 1) ∧
    (IsLeast {s | env.layout.epochOf s = epoch} (env.layout.firstSlot epoch) ↔ epoch.toNat * p ≤ 2 ^ 64 - 1) ∧
    (2 ^ 64 - 1 < epoch.toNat * p → Slotless env epoch) :=
  ⟨fun _ => env.layout.epochOf_eq_iff, env.layout.epochOf_firstSlot_iff, env.layout.isLeast_firstSlot_iff, slotless env⟩

/-- An epoch of four slots right past the last slot: the last slot's committee is refused, and the
    write that fetched it fails. -/
theorem slots_and_epochs_agree_past_last :
    let s₀ := System.opened [] (fun _ => [⟨lastWord, 0, [7]⟩]) []
    let acts := [.request (.writeEpoch (.root 0) 4611686018427387904), .turn 0 .granted, .turn 0 .granted]
    Slotless .plain 4611686018427387904 ∧
    (System.run .plain s₀ acts).write? 0 = some (4611686018427387904, .staging (.fetching .empty)) ∧
    (System.run .plain s₀ (acts ++ [.turn 0 .granted])).outcome? 0 =
      some (.epoch (.error ⟨4611686018427387904, .fetch, .foreignSlot lastWord 4611686018427387903 4611686018427387904⟩)) ∧
    (System.run .plain s₀ (acts ++ [.turn 0 .granted])).shared.store.committees = [] := by
  have hslotless := (slots_and_epochs_agree .plain 4611686018427387904).2.2.2 (by decide)
  refine ⟨hslotless, by decide +kernel, rfl, ?_⟩
  exact hslotless.unstored _ _ 0 (.staging (.fetching .empty)) .granted (System.opened_idle _ _ _) (by decide +kernel)

end CommitteeSync
