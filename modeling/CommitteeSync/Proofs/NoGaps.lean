/-
  CommitteeSync.Proofs.NoGaps — the committed epochs have no gap, in any interleaving.

  Proved, for any number of catch-ups, head events and startups that start from the record:
  the epochs committed so far are an interval that begins at the resume point of the record
  found in the beginning, and the record is the one found, as long as nothing has been
  committed, and later an epoch of that interval (`committed_interval`).

  The invariant leaves room for stale reads and for a record that was set back: an epoch may
  be committed at any time if every epoch from the first resume point up to it has been
  committed before. No commit of another task takes that away again.
-/

import CommitteeSync.Proofs.Discipline

namespace CommitteeSync

variable (env : Setup)

/-! ## The discipline -/

/-- Every epoch from `first` on and below `epoch` is among `log`. -/
def Reaches (first : Epoch) (log : List Epoch) (epoch : Epoch) : Prop :=
  first ≤ epoch ∧ ∀ d, first ≤ d → d < epoch → d ∈ log

theorem Reaches.refl (first : Epoch) (log : List Epoch) : Reaches first log first :=
  ⟨UInt64.le_refl _, fun _ hf hd => absurd hd (UInt64.not_lt.2 hf)⟩

theorem Reaches.snoc {first epoch : Epoch} {log : List Epoch} (h : Reaches first log epoch) (e : Epoch) :
    Reaches first (log ++ [e]) epoch :=
  ⟨h.1, fun d hf hd => List.mem_append_left _ (h.2 d hf hd)⟩

theorem Reaches.succ {first epoch : Epoch} {log : List Epoch} (h : Reaches first log epoch) (hm : epoch ∈ log)
    (hl : epoch ≠ lastWord) : Reaches first log (epoch + 1) := by
  have hs := toNat_succ hl
  constructor
  · have hf := h.1
    rw [UInt64.le_iff_toNat_le] at hf ⊢
    omega
  · intro d hf hd
    by_cases he : d = epoch
    · rw [he]; exact hm
    · have hne : d.toNat ≠ epoch.toNat := fun hn => he (UInt64.toNat_inj.1 hn)
      rw [UInt64.lt_iff_toNat_lt, hs] at hd
      refine h.2 d hf ?_
      rw [UInt64.lt_iff_toNat_lt]
      omega

/-- From a record that has been reached the resume point is reached as well. -/
theorem Reaches.resumePoint {first epoch : Epoch} {log : List Epoch} (h : Reaches first log epoch) (hm : epoch ∈ log) :
    Reaches first log (Record.resumePoint ⟨epoch⟩ none) := by
  by_cases h0 : epoch = 0
  · rw [h0] at h ⊢
    exact h
  · by_cases hl : epoch = lastWord
    · rw [hl] at h ⊢
      exact h
    · simp only [Record.resumePoint, if_neg h0, nextEpoch_of_ne hl]
      exact h.succ hm hl

/-- Commits without gaps, from what was found in the beginning. -/
structure Gapless (found : Option Bytes) (first : Epoch) (st : Standing) : Prop where
  reaches : ∀ e ∈ st.log, Reaches first st.log e
  stored : st.log = [] ∧ st.stored = found ∨ ∃ e ∈ st.log, st.stored = some (Record.encode ⟨e⟩)

theorem Gapless.commit {found : Option Bytes} {first epoch : Epoch} {st : Standing} (h : Gapless found first st)
    (hm : Reaches first st.log epoch) : Gapless found first (st.commit epoch) := by
  have hlast : epoch ∈ (st.commit epoch).log := List.mem_append_right _ (List.mem_singleton.2 rfl)
  refine ⟨fun e he => ?_, Or.inr ⟨epoch, hlast, rfl⟩⟩
  rcases List.mem_append.1 he with he | he
  · exact (h.reaches e he).snoc epoch
  · rw [List.mem_singleton.1 he]
    exact hm.snoc epoch

theorem Gapless.resume {found : Option Bytes} {r₀ r : Record} {st : Standing}
    (h₀ : Record.decode found = .ok r₀) (h : Gapless found (r₀.resumePoint none) st) (hr : st.record = .ok r) :
    Reaches (r₀.resumePoint none) st.log (r.resumePoint none) := by
  rcases h.stored with ⟨hlog, hfound⟩ | ⟨e, he, henc⟩
  · have heq : r = r₀ := by
      rw [Standing.record, hfound, h₀] at hr
      exact (Except.ok.inj hr).symm
    rw [heq]
    exact .refl _ _
  · have heq : r = ⟨e⟩ := by
      rw [Standing.record, henc, Record.decode_encode] at hr
      exact (Except.ok.inj hr).symm
    rw [heq]
    exact (h.reaches e he).resumePoint he

/-- Any epoch may be committed that leaves no gap behind it. -/
def gapless (found : Option Bytes) (r₀ : Record) (h₀ : Record.decode found = .ok r₀) : Discipline where
  Holds := Gapless found (r₀.resumePoint none)
  May st e := Reaches (r₀.resumePoint none) st.log e
  commit _ _ h hm := h.commit hm
  next _ _ _ hm hl := (hm.snoc _).succ (List.mem_append_right _ (List.mem_singleton.2 rfl)) hl
  resume _ _ h hr := h.resume h₀ hr

/-! ## Along a run -/

theorem exists_greatest {log : List Epoch} (h : log ≠ []) : ∃ m ∈ log, ∀ e ∈ log, e ≤ m := by
  induction log with
  | nil => exact absurd rfl h
  | cons a log ih =>
    by_cases hn : log = []
    · refine ⟨a, List.mem_cons_self, fun e he => ?_⟩
      rw [hn, List.mem_singleton] at he
      rw [he]; exact UInt64.le_refl a
    · obtain ⟨m, hm, hall⟩ := ih hn
      by_cases ha : a ≤ m
      · refine ⟨m, List.mem_cons_of_mem a hm, fun e he => ?_⟩
        rcases List.mem_cons.1 he with rfl | he
        · exact ha
        · exact hall e he
      · refine ⟨a, List.mem_cons_self, fun e he => ?_⟩
        rcases List.mem_cons.1 he with rfl | he
        · exact UInt64.le_refl e
        · exact UInt64.le_trans (hall e he) (UInt64.le_of_lt (UInt64.not_le.1 ha))

/-- Without gaps means an interval. -/
theorem Gapless.interval {found : Option Bytes} {first : Epoch} {st : Standing} (h : Gapless found first st)
    (hne : st.log ≠ []) :
    ∃ m, first ≤ m ∧ (∀ e, e ∈ st.log ↔ first ≤ e ∧ e ≤ m) ∧ ∃ r, st.record = .ok r ∧ first ≤ r.latestEpoch ∧ r.latestEpoch ≤ m := by
  obtain ⟨m, hm, hall⟩ := exists_greatest hne
  refine ⟨m, (h.reaches m hm).1, fun e => ⟨fun he => ⟨(h.reaches e he).1, hall e he⟩, fun ⟨hf, hle⟩ => ?_⟩, ?_⟩
  · by_cases he : e = m
    · rw [he]; exact hm
    · refine (h.reaches m hm).2 e hf ?_
      exact UInt64.lt_of_le_of_ne hle he
  · rcases h.stored with ⟨hlog, -⟩ | ⟨e, he, henc⟩
    · exact absurd hlog hne
    · refine ⟨⟨e⟩, ?_, (h.reaches e he).1, hall e he⟩
      rw [Standing.record, henc, Record.decode_encode]

namespace System

variable {s₀ : System} {acts : List Action} {r₀ : Record}

/-- Every reachable standing is without gaps, and every task keeps it so. -/
theorem gapless_lawful (hover : NoOverride env s₀ acts) (hs : s₀.Idle) (h : Only Kind.fromRecord acts)
    (h₀ : Record.decode (s₀.shared.store.readMetadata env.metadataKey) = .ok r₀) :
    Gapless (s₀.shared.store.readMetadata env.metadataKey) (r₀.resumePoint none) ((run env s₀ acts).shared.standing env) ∧
    ∀ id w, (run env s₀ acts).work? id = some w → w.Lawful (gapless _ r₀ h₀) ((run env s₀ acts).shared.standing env) := by
  have hlast : ∀ st e d, (gapless _ r₀ h₀).May st e → (gapless _ r₀ h₀).May (st.commit d) e :=
    fun _ _ d hm => Reaches.snoc hm d
  have hfirst : Gapless (s₀.shared.store.readMetadata env.metadataKey) (r₀.resumePoint none) (s₀.shared.standing env) := by
    refine ⟨fun e he => ?_, Or.inl ⟨hs.log, rfl⟩⟩
    rw [show (s₀.shared.standing env).log = [] from hs.log] at he
    cases he
  exact lawful_run env hlast hover hs h hfirst

/-- Every reachable standing is without gaps. -/
theorem gapless_run (hover : env.startOverride = none) (hs : s₀.Idle) (h : Only Kind.fromRecord acts)
    (h₀ : Record.decode (s₀.shared.store.readMetadata env.metadataKey) = .ok r₀) :
    Gapless (s₀.shared.store.readMetadata env.metadataKey) (r₀.resumePoint none) ((run env s₀ acts).shared.standing env) :=
  (gapless_lawful env (.of_none env hover) hs h h₀).1

/-- The epochs committed so far are none, or an interval from the first resume point on, and
    the record is the one found in the beginning, or an epoch of that interval. -/
theorem committed_interval (hover : env.startOverride = none) (hs : s₀.Idle) (h : Only Kind.fromRecord acts)
    (h₀ : Record.decode (s₀.shared.store.readMetadata env.metadataKey) = .ok r₀) :
    let s := run env s₀ acts
    let stored := s.shared.store.readMetadata env.metadataKey
    let first := r₀.resumePoint none
    (s.shared.commitLog = [] ∧ stored = s₀.shared.store.readMetadata env.metadataKey) ∨
    ∃ m, first ≤ m ∧ (∀ e, e ∈ s.shared.commitLog ↔ first ≤ e ∧ e ≤ m) ∧
      ∃ r, Record.decode stored = .ok r ∧ first ≤ r.latestEpoch ∧ r.latestEpoch ≤ m := by
  dsimp only
  have hg := gapless_run env hover hs h h₀
  by_cases hlog : (run env s₀ acts).shared.commitLog = []
  · rcases hg.stored with hst | ⟨e, he, -⟩
    · exact Or.inl hst
    · rw [show ((run env s₀ acts).shared.standing env).log = [] from hlog] at he
      cases he
  · exact Or.inr (hg.interval hlog)

/-- Epoch 1 is filled in between epochs 0 and 2. -/
theorem committed_interval_two_heads :
    let s := run .plain (opened [] (fun _ => []) []) twoHeads
    ∃ m, 0 ≤ m ∧ (∀ e, e ∈ s.shared.commitLog ↔ 0 ≤ e ∧ e ≤ m) ∧
      ∃ r, Record.decode (s.shared.store.readMetadata Setup.plain.metadataKey) = .ok r ∧ 0 ≤ r.latestEpoch ∧ r.latestEpoch ≤ m := by
  rcases committed_interval .plain rfl (opened_idle [] (fun _ => []) []) (by decide : Only _ twoHeads) rfl with
    ⟨hlog, -⟩ | h
  · exact absurd hlog (by decide +kernel)
  · exact h

end System

end CommitteeSync
