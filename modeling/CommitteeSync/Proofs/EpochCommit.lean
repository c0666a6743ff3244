/-
  CommitteeSync.Proofs.EpochCommit — the record and the committees move together.

  Committed state changes in one way only: a task's write of an epoch is granted its commit.
  Such a commit sets the record to the epoch and stores all of one answer of the chain for
  the epoch's first slot, every part of which is of the epoch (`store_changes_by_epoch`).
  This holds for whatever tasks are about, in any interleaving, with any calls failing and
  any tokens cancelled. Only a transaction that a script stages by itself, without a record,
  is not the write of an epoch.
-/

import CommitteeSync.Proofs.Committed
import CommitteeSync.Proofs.Staged

namespace CommitteeSync

variable (env : Setup)

/-- From `before` to `after` the answer `as` to the fetch for `epoch` was committed, and the
    record with it. -/
structure CommitsEpoch (before after : Store) (epoch : Epoch) (as : List Assignment) : Prop where
  ofEpoch : ∀ a ∈ as, env.layout.epochOf a.slot = epoch
  record : after.readMetadata env.metadataKey = some (Record.encode ⟨epoch⟩)
  otherMetadata : ∀ key, key ≠ env.metadataKey → after.readMetadata key = before.readMetadata key
  /-- Of several committees of one key the last one counts. -/
  committee : ∀ key, after.committee? key =
    ((as.map Committee.ofAssignment).findRev? fun c => c.key = key).or (before.committee? key)
  otherEpochs : ∀ key, env.layout.epochOf key.1 ≠ epoch → after.committee? key = before.committee? key

theorem commitsEpoch_of_ledger {before after : Shared} {epoch : Epoch} {as : List Assignment} {tx : Transaction}
    (htx : tx = ⟨[(env.metadataKey, Record.encode ⟨epoch⟩)], as.map Committee.ofAssignment⟩)
    (hof : ∀ a ∈ as, env.layout.epochOf a.slot = epoch) (h : after.ledger = before.ledger.commit epoch tx) :
    CommitsEpoch env before.store after.store epoch as := by
  subst htx
  have hm : after.store.metadata = bindKey env.metadataKey (Record.encode ⟨epoch⟩) before.store.metadata :=
    congrArg Ledger.metadata h
  have he : after.store.entries =
      (as.map Committee.ofAssignment).foldl (fun es c => placeEntry c es) before.store.entries :=
    congrArg Ledger.entries h
  have hc : ∀ key, after.store.committee? key =
      ((as.map Committee.ofAssignment).findRev? fun c => c.key = key).or (before.store.committee? key) := fun key => by
    unfold Store.committee?
    rw [he, committeeAt_placed]
  refine ⟨hof, ?_, fun key hk => ?_, hc, fun key hk => ?_⟩
  · rw [Store.readMetadata, hm, lookup_bindKey, if_pos rfl]
  · rw [Store.readMetadata, hm, lookup_bindKey, if_neg hk, Store.readMetadata]
  · rw [hc, findRev?_key, Option.none_or]
    intro c hm hck
    obtain ⟨a, ha, rfl⟩ := List.mem_map.1 hm
    exact hk (by rw [← hck]; exact hof a ha)

namespace System

variable {s₀ : System} {acts : List Action}

/-- Every action leaves the committed state alone, or it is the reply that grants a commit to
    the write of an epoch, and then just that epoch is committed. -/
theorem store_changes_by_epoch (hs : s₀.Idle) (h : Only (fun k => k ≠ .stage) acts) (a : Action) :
    let s := run env s₀ acts
    let s' := run env s₀ (acts ++ [a])
    (s'.shared.store.metadata = s.shared.store.metadata ∧ s'.shared.store.entries = s.shared.store.entries ∧
      s'.shared.commitLog = s.shared.commitLog) ∨
    ∃ id epoch tx written as, a = .turn id .granted ∧ s.write? id = some (epoch, .committing tx written) ∧
      Fetched env s₀ acts id epoch as ∧ CommitsEpoch env s.shared.store s'.shared.store epoch as ∧
      s'.shared.commitLog = s.shared.commitLog ++ [epoch] := by
  dsimp only
  have hk : ∀ id w, (run env s₀ acts).work? id = some w → w.kind ≠ .stage := fun id w hw => by
    simpa using kinds_run env (by decide) hs h hw
  have hl := act_ledger env hk a
  rw [run_snoc]
  cases hc : (run env s₀ acts).commits? a with
  | none =>
    rw [hc, Ledger.after_none] at hl
    exact Or.inl ⟨congrArg Ledger.metadata hl, congrArg Ledger.entries hl, congrArg Ledger.log hl⟩
  | some et =>
    obtain ⟨epoch, tx⟩ := et
    rw [hc, Ledger.after_some] at hl
    obtain ⟨id, written, ha, hw⟩ := commits?_eq_some.1 hc
    rcases fresh_or_fetched env hs hw with hf | ⟨as, hf⟩
    · exact hf.elim
    · obtain ⟨w, hw', hst⟩ := hf.stages
      cases hw.symm.trans hw'
      obtain ⟨htx, hof⟩ := hst
      exact Or.inr ⟨id, epoch, tx, written, as, ha, hw, hf, commitsEpoch_of_ledger env htx hof hl, congrArg Ledger.log hl⟩

/-- One head event of epoch 0, up to the commit that it asks for. -/
def headAsksCommit : List Action := .request (.head .service (.root 0) ⟨0, true⟩) :: List.replicate 7 (.turn 0 .granted)

/-- Two committees under one key on an empty store. -/
theorem store_changes_by_head_event :
    let s := run .plain (opened [] (fun _ => [⟨3, 0, [7]⟩, ⟨3, 0, [8]⟩]) []) headAsksCommit
    let s' := run .plain (opened [] (fun _ => [⟨3, 0, [7]⟩, ⟨3, 0, [8]⟩]) []) (headAsksCommit ++ [.turn 0 .granted])
    ∃ epoch as, CommitsEpoch .plain s.shared.store s'.shared.store epoch as ∧
      s'.shared.commitLog = s.shared.commitLog ++ [epoch] := by
  rcases store_changes_by_epoch .plain (opened_idle [] (fun _ => [⟨3, 0, [7]⟩, ⟨3, 0, [8]⟩]) [])
    (by decide : Only _ headAsksCommit) (.turn 0 .granted) with ⟨_, _, hlog⟩ | ⟨_, epoch, _, _, as, _, _, _, hc, hlog⟩
  · exact absurd hlog (by decide +kernel)
  · exact ⟨epoch, as, hc, hlog⟩

end System

end CommitteeSync
