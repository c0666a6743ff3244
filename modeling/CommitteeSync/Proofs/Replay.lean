/-
  CommitteeSync.Proofs.Replay — the store as the replay of its commits.

  As long as the chain serves the same, an epoch is committed with the same committees every
  time. So the committed committees are those found in the beginning with the commits since
  then replayed on them, and the record is the last epoch committed (`Replayed`,
  `replayed_run`). This holds for whatever tasks are about, in any interleaving.

  Epochs committed in order come to the same as each of them committed once: an epoch that
  is committed again goes right after itself and leaves no trace (`replay_inOrder`).
-/

import CommitteeSync.Proofs.CommitLog
import CommitteeSync.Proofs.Effects
import CommitteeSync.Proofs.Placing

namespace CommitteeSync

variable (env : Setup) {chain : Slot → List Assignment}

/-! ## Replays -/

/-- The committees that the chain serves for an epoch. -/
def served (chain : Slot → List Assignment) (epoch : Epoch) : List Committee :=
  (chain (env.layout.firstSlot epoch)).map Committee.ofAssignment

/-- Commits these epochs one after another. -/
def replay (chain : Slot → List Assignment) (epochs : List Epoch) (cs : List Committee) : List Committee :=
  epochs.foldl (fun cs epoch => placeAll (served env chain epoch) cs) cs

/-- `first` and the `n` epochs after it. -/
def ascending (first : Epoch) : Nat → List Epoch
  | 0 => [first]
  | n + 1 => first :: ascending (first + 1) n

/-- The epochs from `first` up to `last`, of which there may be none. -/
def upTo (first last : Epoch) : List Epoch := if last < first then [] else ascending first (last.toNat - first.toNat)

theorem replay_cons (epoch : Epoch) (epochs : List Epoch) (cs : List Committee) :
    replay env chain (epoch :: epochs) cs = replay env chain epochs (placeAll (served env chain epoch) cs) := rfl

theorem replay_snoc (epochs : List Epoch) (epoch : Epoch) (cs : List Committee) :
    replay env chain (epochs ++ [epoch]) cs = placeAll (served env chain epoch) (replay env chain epochs cs) := by
  rw [replay, List.foldl_append]
  rfl

/-- An epoch committed twice in a row might as well be committed once. -/
theorem replay_again (epoch : Epoch) (epochs : List Epoch) (cs : List Committee) :
    replay env chain (epoch :: epoch :: epochs) cs = replay env chain (epoch :: epochs) cs := by
  rw [replay_cons, replay_cons, placeAll_again, replay_cons]

/-! ## Epochs in order -/

theorem upTo_empty {first last : Epoch} (h : last < first) : upTo first last = [] := if_pos h

theorem upTo_of_le {first last : Epoch} (h : first ≤ last) : upTo first last = ascending first (last.toNat - first.toNat) :=
  if_neg (UInt64.not_lt.2 h)

theorem upTo_self (first : Epoch) : upTo first first = [first] := by
  rw [upTo_of_le (UInt64.le_refl first), Nat.sub_self]
  rfl

theorem upTo_succ {first last : Epoch} (hne : first ≠ lastWord) (h : first + 1 ≤ last) :
    upTo first last = first :: upTo (first + 1) last := by
  have hle := UInt64.le_iff_toNat_le.1 h
  rw [toNat_succ hne] at hle
  have hfl : first ≤ last := by
    rw [UInt64.le_iff_toNat_le]
    omega
  rw [upTo_of_le hfl, upTo_of_le h, toNat_succ hne, show last.toNat - first.toNat = (last.toNat - (first.toNat + 1)) + 1 by omega]
  rfl

theorem mem_ascending {first e : Epoch} {n : Nat} (hn : first.toNat + n ≤ lastWord.toNat) (h : e ∈ ascending first n) :
    first ≤ e ∧ e.toNat ≤ first.toNat + n := by
  induction n generalizing first with
  | zero =>
    rw [List.mem_singleton.1 h]
    exact ⟨UInt64.le_refl _, Nat.le_refl _⟩
  | succ n ih =>
    rcases List.mem_cons.1 h with rfl | h
    · exact ⟨UInt64.le_refl _, Nat.le_add_right _ _⟩
    · have hne : first ≠ lastWord := by
        intro he
        rw [he] at hn
        omega
      have hs := toNat_succ hne
      obtain ⟨hge, hle⟩ := ih (by omega) h
      rw [UInt64.le_iff_toNat_le] at hge ⊢
      omega

theorem mem_upTo {first last e : Epoch} (h : e ∈ upTo first last) : first ≤ e ∧ e ≤ last := by
  unfold upTo at h
  split at h
  · cases h
  · rename_i hlt
    have hle := UInt64.le_iff_toNat_le.1 (UInt64.not_lt.1 hlt)
    have hl := toNat_le_lastWord last
    obtain ⟨hge, he⟩ := mem_ascending (by rw [toNat_lastWord]; omega) h
    refine ⟨hge, ?_⟩
    rw [UInt64.le_iff_toNat_le]
    omega

theorem ascending_snoc (first : Epoch) (n : Nat) :
    ascending first (n + 1) = ascending first n ++ [first + UInt64.ofNat (n + 1)] := by
  induction n generalizing first with
  | zero => rfl
  | succ n ih =>
    have hlast : first + 1 + UInt64.ofNat (n + 1) = first + UInt64.ofNat (n + 1 + 1) := by
      rw [UInt64.ofNat_add (n + 1) 1, UInt64.add_assoc, UInt64.add_comm 1]
      rfl
    rw [ascending, ih, hlast]
    rfl

theorem length_ascending (first : Epoch) (n : Nat) : (ascending first n).length = n + 1 := by
  induction n generalizing first with
  | zero => rfl
  | succ n ih => rw [ascending, List.length_cons, ih]

theorem upTo_snoc {first last : Epoch} (hle : first ≤ last) (hne : last ≠ lastWord) :
    upTo first (last + 1) = upTo first last ++ [last + 1] := by
  have hsucc := toNat_succ hne
  have hn := UInt64.le_iff_toNat_le.1 hle
  have hle' : first ≤ last + 1 := by
    rw [UInt64.le_iff_toNat_le, hsucc]
    omega
  have hlast : first + UInt64.ofNat (last.toNat - first.toNat + 1) = last + 1 := by
    have hlt := UInt64.toNat_lt (last + 1)
    rw [hsucc] at hlt
    rw [← UInt64.toNat_inj, UInt64.toNat_add, hsucc, UInt64.toNat_ofNat']
    omega
  rw [upTo_of_le hle, upTo_of_le hle', hsucc, show last.toNat + 1 - first.toNat = (last.toNat - first.toNat) + 1 by omega,
    ascending_snoc, hlast]

theorem length_upTo {first last : Epoch} (h : first ≤ last) : (upTo first last).length = last.toNat - first.toNat + 1 := by
  rw [upTo_of_le h, length_ascending]

/-- The same as a word, for which only the range of all epochs is too long. -/
theorem ofNat_length_upTo {first last : Epoch} (h : first ≤ last) :
    UInt64.ofNat (upTo first last).length = last - first + 1 := by
  rw [length_upTo h, UInt64.ofNat_add, ofNat_sub_toNat h]
  rfl

theorem pred_of_lt {first last : Epoch} (h : first < last) : last - 1 + 1 = last ∧ last - 1 ≠ lastWord ∧ first ≤ last - 1 := by
  have hlast := toNat_le_lastWord last
  rw [UInt64.lt_iff_toNat_lt] at h
  have hone : (1 : Epoch) ≤ last := by
    rw [UInt64.le_iff_toNat_le, UInt64.toNat_one]
    omega
  have hpred : (last - 1).toNat = last.toNat - 1 := UInt64.toNat_sub_of_le last 1 hone
  refine ⟨?_, fun he => ?_, ?_⟩
  · exact UInt64.sub_add_cancel last 1
  · rw [he, toNat_lastWord] at hpred
    omega
  · rw [UInt64.le_iff_toNat_le, hpred]
    omega

theorem getLast?_upTo {first last : Epoch} (h : first ≤ last) : (upTo first last).getLast? = some last := by
  by_cases heq : first = last
  · rw [heq, upTo_self]
    rfl
  · obtain ⟨hpred, hne, hle⟩ := pred_of_lt (UInt64.lt_of_le_of_ne h heq)
    rw [← hpred, upTo_snoc hle hne, List.getLast?_concat]

theorem ascending_initial (first : Epoch) (n k : Nat) : ascending first n <+: ascending first (n + k) := by
  induction k with
  | zero => exact List.prefix_refl _
  | succ k ih =>
    rw [← Nat.add_assoc, ascending_snoc]
    exact ih.trans (List.prefix_append _ _)

theorem upTo_initial {first last last' : Epoch} (h : first ≤ last) (h' : last ≤ last') : upTo first last <+: upTo first last' := by
  have hle := UInt64.le_iff_toNat_le.1 h
  have hle' := UInt64.le_iff_toNat_le.1 h'
  rw [upTo_of_le h, upTo_of_le (UInt64.le_trans h h'),
    show last'.toNat - first.toNat = (last.toNat - first.toNat) + (last'.toNat - last.toNat) by omega]
  exact ascending_initial _ _ _

/-- In order, the last epoch is the greatest. -/
theorem le_last_of_chain {log : List Epoch} {last e : Epoch} (h : log.IsChain Follows) (hl : log.getLast? = some last)
    (he : e ∈ log) : e ≤ last := by
  induction log with
  | nil => cases he
  | cons first log ih =>
    cases log with
    | nil =>
      cases hl
      rw [List.mem_singleton.1 he]
      exact UInt64.le_refl first
    | cons next log =>
      rw [List.getLast?_cons_cons] at hl
      rcases List.mem_cons.1 he with rfl | he
      · exact le_of_chain h (List.mem_of_getLast? hl)
      · exact ih h.tail hl he

/-- Epochs in order come to the same as the ascending run of them. -/
theorem replay_chain {first last : Epoch} {log : List Epoch} (h : (first :: log).IsChain Follows)
    (hl : (first :: log).getLast? = some last) :
    (∀ cs, replay env chain (first :: log) cs = replay env chain (upTo first last) cs) ∧
    (upTo first last).getLast? = some last := by
  induction log generalizing first with
  | nil =>
    rw [List.getLast?_singleton, Option.some_inj] at hl
    rw [hl, upTo_self]
    exact ⟨fun _ => rfl, rfl⟩
  | cons next log ih =>
    obtain ⟨hfollows, hnext⟩ := List.isChain_cons_cons.1 h
    rw [List.getLast?_cons_cons] at hl
    obtain ⟨hreplay, hlast⟩ := ih hnext hl
    rcases hfollows with ⟨hne, rfl⟩ | ⟨rfl, -⟩
    · have hle : first + 1 ≤ last := by
        rcases List.mem_cons.1 (List.mem_of_getLast? hl) with rfl | hm
        · exact UInt64.le_refl _
        · exact le_of_chain hnext hm
      rw [upTo_succ hne hle]
      refine ⟨fun cs => ?_, ?_⟩
      · rw [replay_cons, hreplay, replay_cons]
      · rw [List.getLast?_cons, hlast]
        rfl
    · refine ⟨fun cs => ?_, hlast⟩
      rw [replay_again, hreplay]

/-- A log in order from `first` that has got to `last`, and not past it, comes to the same as
    each epoch from `first` to `last` committed once. -/
theorem replay_inOrder {first last : Epoch} {log : List Epoch} (hhead : ∀ e ∈ log.head?, e = first)
    (hchain : log.IsChain Follows) (hle : ∀ e ∈ log, e ≤ last) (hlast : first ≤ last → last ∈ log) :
    (∀ cs, replay env chain log cs = replay env chain (upTo first last) cs) ∧ log.getLast? = (upTo first last).getLast? := by
  cases log with
  | nil =>
    have hlt : last < first := UInt64.not_le.1 fun h => absurd (hlast h) List.not_mem_nil
    rw [upTo_empty hlt]
    exact ⟨fun _ => rfl, rfl⟩
  | cons e log =>
    cases hhead e rfl
    have hm : last ∈ first :: log := hlast (hle first List.mem_cons_self)
    have hl := List.getLast?_eq_some_getLast (List.cons_ne_nil first log)
    have heq : (first :: log).getLast (List.cons_ne_nil first log) = last :=
      UInt64.le_antisymm (hle _ (List.getLast_mem _)) (le_last_of_chain hchain hl hm)
    rw [heq] at hl
    obtain ⟨hreplay, hlast'⟩ := replay_chain env hchain hl
    exact ⟨hreplay, hl.trans hlast'.symm⟩

/-! ## Along a run -/

/-- From `before`, where nothing had been committed, the store has come about by its commits. -/
structure Replayed (before after : Shared) : Prop where
  committees : after.store.committees = replay env before.chain after.commitLog before.store.committees
  stored : after.store.readMetadata env.metadataKey =
    (after.commitLog.getLast?.map fun e => Record.encode ⟨e⟩).or (before.store.readMetadata env.metadataKey)
  /-- What the chain serves for a committed epoch is all of that epoch. -/
  whole : ∀ e ∈ after.commitLog, ∀ a ∈ before.chain (env.layout.firstSlot e), env.layout.epochOf a.slot = e

namespace Replayed

variable {env} {before after after' : Shared}

theorem of_ledger (h : Replayed env before after) (hl : after'.ledger = after.ledger) : Replayed env before after' := by
  have hm : after'.store.metadata = after.store.metadata := congrArg Ledger.metadata hl
  have he : after'.store.entries = after.store.entries := congrArg Ledger.entries hl
  have hlog : after'.commitLog = after.commitLog := congrArg Ledger.log hl
  refine ⟨?_, ?_, ?_⟩
  · rw [Store.committees, he, hlog]
    exact h.committees
  · rw [Store.readMetadata, hm, hlog]
    exact h.stored
  · rw [hlog]
    exact h.whole

theorem commit (h : Replayed env before after) {epoch : Epoch}
    (hof : ∀ a ∈ before.chain (env.layout.firstSlot epoch), env.layout.epochOf a.slot = epoch)
    (hl : after'.ledger =
      after.ledger.commit epoch ⟨[(env.metadataKey, Record.encode ⟨epoch⟩)], served env before.chain epoch⟩) :
    Replayed env before after' := by
  have hm : after'.store.metadata = bindKey env.metadataKey (Record.encode ⟨epoch⟩) after.store.metadata :=
    congrArg Ledger.metadata hl
  have he : after'.store.entries = (served env before.chain epoch).foldl (fun es c => placeEntry c es) after.store.entries :=
    congrArg Ledger.entries hl
  have hlog : after'.commitLog = after.commitLog ++ [epoch] := congrArg Ledger.log hl
  refine ⟨?_, ?_, fun e hm => ?_⟩
  · rw [Store.committees, he, map_placeEntries, hlog, replay_snoc, ← h.committees]
    rfl
  · rw [Store.readMetadata, hm, lookup_bindKey, if_pos rfl, hlog, List.getLast?_concat]
    rfl
  · rw [hlog] at hm
    rcases List.mem_append.1 hm with hm | hm
    · exact h.whole e hm
    · rw [List.mem_singleton.1 hm]
      exact hof

end Replayed

namespace System

variable {s₀ : System} {acts : List Action}

theorem Steady.of_append {rest : List Action} (h : Steady (acts ++ rest)) : Steady acts :=
  fun chain hm => h chain (List.mem_append_left _ hm)

/-- Along every run in which the chain serves the same, the store has come about by its commits. -/
theorem replayed_run (hs : s₀.Idle) (h : Only (fun k => k ≠ .stage) acts) (hsteady : Steady acts) :
    Replayed env s₀.shared (run env s₀ acts).shared := by
  induction acts using List.reverseRecOn with
  | nil =>
    refine ⟨?_, ?_, fun e he => ?_⟩
    · rw [run_nil, hs.log]
      rfl
    · rw [run_nil, hs.log]
      rfl
    · rw [run_nil, hs.log] at he
      cases he
  | append_singleton acts a ih =>
    have hbefore := ih h.of_snoc hsteady.of_append
    have hk : ∀ id w, (run env s₀ acts).work? id = some w → w.kind ≠ .stage := fun id w hw => by
      simpa using kinds_run env (by decide) hs h.of_snoc hw
    have hl := act_ledger env hk a
    rw [run_snoc]
    cases hc : (run env s₀ acts).commits? a with
    | none =>
      rw [hc, Ledger.after_none] at hl
      exact hbefore.of_ledger hl
    | some et =>
      obtain ⟨epoch, tx⟩ := et
      rw [hc, Ledger.after_some] at hl
      obtain ⟨id, written, -, hw⟩ := commits?_eq_some.1 hc
      rcases fresh_or_fetched env hs hw with hf | ⟨as, hf⟩
      · exact hf.elim
      · obtain ⟨w, hw', hst⟩ := hf.stages
        cases hw.symm.trans hw'
        obtain ⟨rfl, hof⟩ := hst
        -- What was fetched is what the chain serves still.
        obtain ⟨part, since, rfl, -, rfl, -⟩ := hf
        rw [chain_run env hsteady.of_append.of_append] at hl hof
        exact hbefore.commit hof hl

end System

end CommitteeSync
