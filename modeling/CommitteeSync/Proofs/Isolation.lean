/-
  CommitteeSync.Proofs.Isolation — open transactions are isolated from each other and from
  what is read.

  The journal of the stores grows by values put and by commits, and a commit writes what the
  steps of its own transaction have staged. So two steps of different transactions may change
  places unless both reach a store or a handle (`journal_swap`), and the steps of a
  transaction that no commit ends may be left out (`journal_settled`).

  Proved, for any steps over any number of handles and open transactions
  (`serial_reference`):
  (1) Every store reads as the entries that the journal has for it, one after another from the
      empty store: under each key the last write, and the committees listed once each in
      strictly increasing order of slot and index (`Store.ReadsAs`).
  (2) It holds the same without the steps of transactions that are cancelled, dropped or left
      open (`settled`).
  (3) It holds the same in any interleaving of the transactions that keeps the steps of each in
      order, and those that reach a store or a handle (`Interleaves`).
-/

import CommitteeSync.Proofs.SerialStore

namespace CommitteeSync.Pool

open Store (Update replay)

namespace Step

/-- Whether a step reaches a store or a handle. -/
def shows : Step → Bool
  | commit _ _ | seed _ _ _ | clone _ _ | fresh _ => true
  | begin _ _ | set _ _ _ | put _ _ | cancel _ _ | drop _ => false

end Step

variable {b : Books} {s s' : Step}

theorem next_of_hidden (b : Books) (h : s.shows = false) : (b.next s).names = b.names ∧ b.entry s = none := by
  cases s with
  | commit store tx => cases h
  | seed store key value => cases h
  | clone store copy => cases h
  | fresh new => cases h
  | begin store tx => exact ⟨rfl, rfl⟩
  | set tx key value => exact ⟨rfl, rfl⟩
  | put tx c => exact ⟨rfl, rfl⟩
  | cancel store tx => exact ⟨rfl, rfl⟩
  | drop tx => exact ⟨rfl, rfl⟩

/-! ## Steps that may change places -/

/-- Not both reach a store or a handle, and they are not about the same transaction. -/
structure Step.Apart (s s' : Step) : Prop where
  shown : s.shows = false ∨ s'.shows = false
  own : ∀ tx, s.tx? = some tx → s'.tx? ≠ some tx

theorem Step.Apart.symm (h : s.Apart s') : s'.Apart s := ⟨h.shown.symm, fun tx hs' hs => h.own tx hs hs'⟩

theorem entry_next (h : s.Apart s') : (b.next s).entry s' = b.entry s' := by
  rcases h.shown with hs | hs'
  · obtain ⟨hnames, -⟩ := next_of_hidden b hs
    cases s' with
    | commit store tx => rw [Books.entry, hnames, b.staged_other fun hs => h.own tx hs rfl]; rfl
    | seed store key value => rw [Books.entry, hnames]; rfl
    | clone store copy => rfl
    | fresh new => rfl
    | begin store tx => rfl
    | set tx key value => rfl
    | put tx c => rfl
    | cancel store tx => rfl
    | drop tx => rfl
  · rw [(next_of_hidden _ hs').2, (next_of_hidden _ hs').2]

theorem next_comm (h : s.Apart s') : (b.next s).next s' = (b.next s').next s := by
  have hnames : ((b.next s).next s').names = ((b.next s').next s).names := by
    rcases h.shown with hs | hs'
    · rw [(next_of_hidden (b.next s') hs).1]
      exact congrArg (·.next s') (next_of_hidden b hs).1
    · rw [(next_of_hidden (b.next s) hs').1]
      exact congrArg (·.next s) (next_of_hidden b hs').1.symm
  have hstaged : ∀ tx, ((b.next s).next s').staged tx = ((b.next s').next s).staged tx := by
    intro tx
    by_cases hs : s.tx? = some tx
    · have hs' : s'.tx? ≠ some tx := h.own tx hs
      rw [Books.staged_other _ hs', b.staged_next s hs, (b.next s').staged_next s hs, b.staged_other hs']
    · by_cases hs' : s'.tx? = some tx
      · rw [Books.staged_other _ hs, b.staged_next s' hs', (b.next s).staged_next s' hs', b.staged_other hs]
      · rw [Books.staged_other _ hs', Books.staged_other _ hs, Books.staged_other _ hs, Books.staged_other _ hs']
  calc (b.next s).next s' = ⟨((b.next s).next s').names, ((b.next s).next s').staged⟩ := rfl
    _ = ⟨((b.next s').next s).names, ((b.next s').next s).staged⟩ := by rw [hnames, funext hstaged]

theorem journal_swap (b : Books) (h : s.Apart s') (steps : List Step) :
    journal b (s :: s' :: steps) = journal b (s' :: s :: steps) := by
  simp only [journal]
  rw [entry_next h, entry_next h.symm, next_comm h, ← List.append_assoc, ← List.append_assoc]
  congr 1
  rcases h.shown with hs | hs'
  · rw [(next_of_hidden b hs).2]
    exact (List.append_nil _).symm
  · rw [(next_of_hidden b hs').2]
    exact List.append_nil _

/-- A step may come before steps that it is apart from. -/
theorem journal_bubble (b : Books) {before : List Step} (h : ∀ x ∈ before, s.Apart x) (after : List Step) :
    journal b (before ++ s :: after) = journal b (s :: (before ++ after)) := by
  induction before generalizing b with
  | nil => rfl
  | cons x before ih =>
    obtain ⟨hx, hbefore⟩ := List.forall_mem_cons.1 h
    rw [List.cons_append, List.cons_append, journal_swap b hx]
    simp only [journal] at ih ⊢
    rw [ih _ hbefore]

/-! ## Interleavings -/

/-- The same steps, up to the interleaving of different transactions. -/
structure Interleaves (steps steps' : List Step) : Prop where
  shown : steps.filter (·.shows) = steps'.filter (·.shows)
  own : ∀ tx, steps.filter (·.tx? = some tx) = steps'.filter (·.tx? = some tx)

theorem tx_of_hidden (h : s.shows = false) : ∃ tx, s.tx? = some tx := by
  cases s with
  | commit store tx => cases h
  | seed store key value => cases h
  | clone store copy => cases h
  | fresh new => cases h
  | begin store tx => exact ⟨tx, rfl⟩
  | set tx key value => exact ⟨tx, rfl⟩
  | put tx c => exact ⟨tx, rfl⟩
  | cancel store tx => exact ⟨tx, rfl⟩
  | drop tx => exact ⟨tx, rfl⟩

theorem not_apart (h : ¬ s.Apart s') : (s.shows = true ∧ s'.shows = true) ∨ ∃ tx, s.tx? = some tx ∧ s'.tx? = some tx := by
  by_cases hshow : s.shows = true ∧ s'.shows = true
  · exact Or.inl hshow
  by_cases htx : ∃ tx, s.tx? = some tx ∧ s'.tx? = some tx
  · exact Or.inr htx
  refine absurd ⟨?_, fun tx hs hs' => htx ⟨tx, hs, hs'⟩⟩ h
  by_cases hs : s.shows = true
  · exact Or.inr (Bool.eq_false_iff.2 fun hs' => hshow ⟨hs, hs'⟩)
  · exact Or.inl (Bool.eq_false_iff.2 hs)

/-- The first of a list that fails `p`. -/
theorem exists_first {α : Type} {p : α → Prop} {l : List α} (h : ∃ x ∈ l, ¬ p x) :
    ∃ before y after, l = before ++ y :: after ∧ ¬ p y ∧ ∀ x ∈ before, p x := by
  induction l with
  | nil => exact absurd h (by simp)
  | cons x l ih =>
    by_cases hx : p x
    · obtain ⟨z, hz, hpz⟩ := h
      have hzl : z ∈ l := (List.mem_cons.1 hz).resolve_left fun he => hpz (he ▸ hx)
      obtain ⟨before, y, after, rfl, hy, hbefore⟩ := ih ⟨z, hzl, hpz⟩
      exact ⟨x :: before, y, after, rfl, hy, List.forall_mem_cons.2 ⟨hx, hbefore⟩⟩
    · exact ⟨[], x, l, rfl, hx, by simp⟩

/-- What `p` selects begins with the first that it holds of, and goes on with the others. -/
theorem filter_front {α : Type} {p : α → Bool} {x y : α} {l before after : List α}
    (h : (x :: l).filter p = (before ++ y :: after).filter p) (hbefore : p x = true → ∀ z ∈ before, p z = false) :
    (p x = true → p y = true → y = x) ∧ (x = y → l.filter p = (before ++ after).filter p) := by
  have hnone : p x = true → before.filter p = [] := fun hx => by
    rw [List.filter_eq_nil_iff]
    intro z hz
    rw [hbefore hx z hz]
    exact Bool.false_ne_true
  refine ⟨fun hx hy => ?_, fun hxy => ?_⟩
  · rw [List.filter_cons_of_pos hx, List.filter_append, hnone hx, List.filter_cons_of_pos hy] at h
    exact (List.cons.inj h).1.symm
  · subst hxy
    rw [List.filter_append] at h ⊢
    by_cases hx : p x = true
    · rw [List.filter_cons_of_pos hx, hnone hx, List.filter_cons_of_pos hx] at h
      rw [hnone hx]
      exact (List.cons.inj h).2
    · rwa [List.filter_cons_of_neg hx, List.filter_cons_of_neg hx] at h

namespace Interleaves

variable {steps steps' : List Step}

theorem mem_of_mem (h : Interleaves steps steps') (hs : s ∈ steps) : s ∈ steps' := by
  by_cases hshow : s.shows = true
  · have hm : s ∈ steps.filter (·.shows) := List.mem_filter.2 ⟨hs, hshow⟩
    rw [h.shown] at hm
    exact (List.mem_filter.1 hm).1
  · obtain ⟨tx, htx⟩ := tx_of_hidden (Bool.eq_false_iff.2 hshow)
    have hm : s ∈ steps.filter (·.tx? = some tx) := List.mem_filter.2 ⟨hs, decide_eq_true htx⟩
    rw [h.own tx] at hm
    exact (List.mem_filter.1 hm).1

theorem symm (h : Interleaves steps steps') : Interleaves steps' steps := ⟨h.shown.symm, fun tx => (h.own tx).symm⟩

/-- The first step of one interleaving can be brought to the front of the other: what comes
    before it there is apart from it. -/
theorem front (h : Interleaves (s :: steps) steps') :
    ∃ before after, steps' = before ++ s :: after ∧ (∀ x ∈ before, s.Apart x) ∧ Interleaves steps (before ++ after) := by
  have hself : ¬ s.Apart s := by
    intro ha
    rcases ha.shown with hs | hs <;>
    · obtain ⟨tx, htx⟩ := tx_of_hidden hs
      exact ha.own tx htx htx
  obtain ⟨before, y, after, rfl, hy, hapart⟩ := exists_first ⟨s, h.mem_of_mem List.mem_cons_self, hself⟩
  have hshown := filter_front h.shown fun hs x hx => (hapart x hx).shown.resolve_left (by rw [hs]; exact Bool.noConfusion)
  have hown := fun tx => filter_front (h.own tx) fun hs x hx => decide_eq_false ((hapart x hx).own tx (of_decide_eq_true hs))
  have heq : y = s := by
    rcases not_apart hy with ⟨hs, hs'⟩ | ⟨tx, hs, hs'⟩
    · exact hshown.1 hs hs'
    · exact (hown tx).1 (decide_eq_true hs) (decide_eq_true hs')
  subst heq
  exact ⟨before, after, rfl, hapart, hshown.2 rfl, fun tx => (hown tx).2 rfl⟩

end Interleaves

/-- Interleavings of the same steps have one journal. -/
theorem journal_interleaves (b : Books) {steps steps' : List Step} (h : Interleaves steps steps') :
    journal b steps = journal b steps' := by
  induction steps generalizing b steps' with
  | nil =>
    cases steps' with
    | nil => rfl
    | cons s steps' => exact absurd (h.symm.mem_of_mem List.mem_cons_self) List.not_mem_nil
  | cons s steps ih =>
    obtain ⟨before, after, rfl, hapart, hrest⟩ := h.front
    rw [journal_bubble b hapart, journal, journal, ih _ hrest]

/-- What the handles stand for is settled by the steps that show. -/
theorem names_filter {b b' : Books} (h : b.names = b'.names) (steps : List Step) :
    (steps.foldl Books.next b).names = ((steps.filter (·.shows)).foldl Books.next b').names := by
  induction steps generalizing b b' with
  | nil => exact h
  | cons s steps ih =>
    by_cases hs : s.shows = true
    · rw [List.filter_cons_of_pos hs]
      exact ih (congrArg (·.next s) h)
    · rw [List.filter_cons_of_neg hs]
      exact ih ((next_of_hidden b (Bool.eq_false_iff.2 hs)).1.trans h)

/-! ## Transactions that no commit ends -/

/-- Whether the transaction under this name, as it is open now, ends in a commit. -/
def commits (tx : String) : List Step → Bool
  | [] => false
  | .commit _ t :: steps => t = tx || commits tx steps
  | .begin _ t :: steps | .cancel _ t :: steps | .drop t :: steps => t ≠ tx && commits tx steps
  | .set _ _ _ :: steps | .put _ _ :: steps | .seed _ _ _ :: steps | .clone _ _ :: steps | .fresh _ :: steps =>
    commits tx steps

/-- Whether a step that is followed by `steps` counts: not if it is about a transaction that no
    commit ends. -/
def Step.counts (steps : List Step) : Step → Bool
  | begin _ tx | set tx _ _ | put tx _ => commits tx steps
  | cancel _ _ | drop _ => false
  | commit _ _ | seed _ _ _ | clone _ _ | fresh _ => true

/-- The steps without those of transactions that are cancelled, dropped, begun anew or left open. -/
def settled : List Step → List Step
  | [] => []
  | s :: steps => if s.counts steps then s :: settled steps else settled steps

/-- Other transactions do not end by this step. -/
theorem commits_other {tx : String} (h : s.tx? ≠ some tx) (steps : List Step) :
    commits tx (s :: steps) = commits tx steps := by
  have hne : ∀ t, s.tx? = some t → t ≠ tx := fun t ht he => h (he ▸ ht)
  cases s with
  | commit store t => simp [commits, hne t rfl]
  | begin store t => simp [commits, hne t rfl]
  | cancel store t => simp [commits, hne t rfl]
  | drop t => simp [commits, hne t rfl]
  | set t key value => rfl
  | put t c => rfl
  | seed store key value => rfl
  | clone store copy => rfl
  | fresh new => rfl

/-- Of the transactions that end in a commit `b'` knows what `b` does, of others nothing. -/
structure Settles (b b' : Books) (steps : List Step) : Prop where
  names : b'.names = b.names
  staged : ∀ tx, b'.staged tx = if commits tx steps then b.staged tx else none

namespace Settles

variable {b' : Books} {steps : List Step}

/-- It is enough to look at the transaction of the step. -/
theorem of_own {c : Books} (hnames : c.names = (b.next s).names)
    (hother : ∀ tx, s.tx? ≠ some tx → c.staged tx = b'.staged tx) (h : Settles b b' (s :: steps))
    (hown : ∀ tx, s.tx? = some tx → c.staged tx = if commits tx steps then s.staging (b.staged tx) else none) :
    Settles (b.next s) c steps := by
  refine ⟨hnames, fun tx => ?_⟩
  by_cases hs : s.tx? = some tx
  · rw [hown tx hs, b.staged_next s hs, if_pos rfl]
  · rw [hother tx hs, h.staged, commits_other hs, b.staged_other hs]

/-- A step that counts is taken in both. -/
theorem next (h : Settles b b' (s :: steps)) (hc : s.counts steps = true) :
    Settles (b.next s) (b'.next s) steps ∧ b'.entry s = b.entry s := by
  have hstep := fun hown => of_own (s := s) (congrArg (·.next s) h.names) (fun tx hs => b'.staged_other hs) h hown
  have hown : ∀ tx, s.tx? = some tx → (b'.next s).staged tx = s.staging (b'.staged tx) := fun tx hs => by
    rw [b'.staged_next s hs, if_pos rfl]
  cases s with
  | begin store t =>
    refine ⟨hstep fun tx hs => ?_, rfl⟩
    cases hs
    have hct : commits t steps = true := hc
    rw [hown t rfl, if_pos hct]
    rfl
  | set t key value =>
    refine ⟨hstep fun tx hs => ?_, rfl⟩
    cases hs
    have hct : commits t steps = true := hc
    rw [hown t rfl, h.staged, commits, if_pos hct, if_pos hct]
  | put t c =>
    refine ⟨hstep fun tx hs => ?_, rfl⟩
    cases hs
    have hct : commits t steps = true := hc
    rw [hown t rfl, h.staged, commits, if_pos hct, if_pos hct]
  | commit store t =>
    refine ⟨hstep fun tx hs => ?_, ?_⟩
    · cases hs
      rw [hown t rfl]
      exact (ite_self none).symm
    · have hct : commits t (.commit store t :: steps) = true := by simp [commits]
      rw [Books.entry, h.names, h.staged, if_pos hct]
      rfl
  | cancel store t => cases hc
  | drop t => cases hc
  | seed store key value =>
    refine ⟨hstep fun tx hs => (by cases hs), ?_⟩
    rw [Books.entry, h.names]
    rfl
  | clone store copy => exact ⟨hstep fun tx hs => (by cases hs), rfl⟩
  | fresh new => exact ⟨hstep fun tx hs => (by cases hs), rfl⟩

/-- A step that does not count adds nothing to the journal. -/
theorem skip (h : Settles b b' (s :: steps)) (hc : s.counts steps = false) :
    Settles (b.next s) b' steps ∧ b.entry s = none := by
  have hstep := fun hnames hown => of_own (s := s) (h.names.trans hnames) (fun tx hs => rfl) h hown
  cases s with
  | begin store t =>
    refine ⟨hstep rfl fun tx hs => ?_, rfl⟩
    cases hs
    have hct : commits t steps = false := hc
    rw [h.staged, commits, hct, Bool.and_false]
    rfl
  | set t key value =>
    refine ⟨hstep rfl fun tx hs => ?_, rfl⟩
    cases hs
    have hct : commits t steps = false := hc
    rw [h.staged, commits, hct]
    rfl
  | put t c =>
    refine ⟨hstep rfl fun tx hs => ?_, rfl⟩
    cases hs
    have hct : commits t steps = false := hc
    rw [h.staged, commits, hct]
    rfl
  | cancel store t =>
    refine ⟨hstep rfl fun tx hs => ?_, rfl⟩
    cases hs
    rw [h.staged]
    simp [commits, Step.staging]
  | drop t =>
    refine ⟨hstep rfl fun tx hs => ?_, rfl⟩
    cases hs
    rw [h.staged]
    simp [commits, Step.staging]
  | commit store t => cases hc
  | seed store key value => cases hc
  | clone store copy => cases hc
  | fresh new => cases hc

end Settles

/-- The journal is that of the steps which count. -/
theorem journal_settled {b b' : Books} {steps : List Step} (h : Settles b b' steps) :
    journal b' (settled steps) = journal b steps := by
  induction steps generalizing b b' with
  | nil => rfl
  | cons s steps ih =>
    rw [settled]
    by_cases hc : s.counts steps = true
    · obtain ⟨hnext, hentry⟩ := h.next hc
      rw [if_pos hc, journal, journal, hentry, ih hnext]
    · obtain ⟨hskip, hentry⟩ := h.skip (Bool.eq_false_iff.2 hc)
      rw [if_neg hc, journal, hentry, ih hskip]
      rfl

theorem settles_start (steps : List Step) : Settles .start .start steps :=
  ⟨rfl, fun _ => (ite_self none).symm⟩

/-- Every step that shows counts. -/
theorem shows_settled (steps : List Step) : (settled steps).filter (·.shows) = steps.filter (·.shows) := by
  induction steps with
  | nil => rfl
  | cons s steps ih =>
    rw [settled]
    by_cases hs : s.shows = true
    · have hc : s.counts steps = true := by
        cases s <;> first | rfl | cases hs
      rw [if_pos hc, List.filter_cons_of_pos hs, List.filter_cons_of_pos hs, ih]
    · rw [List.filter_cons_of_neg hs]
      split
      · rw [List.filter_cons_of_neg hs, ih]
      · exact ih

/-! ## What is read -/

theorem updates_settled (steps : List Step) (handle : String) : updates (settled steps) handle = updates steps handle := by
  have hnames : ((settled steps).foldl Books.next .start).names = (steps.foldl Books.next .start).names := by
    rw [names_filter rfl steps, names_filter rfl (settled steps), shows_settled]
  rw [updates, updates, hnames, journal_settled (settles_start steps)]

theorem updates_interleaves {steps steps' : List Step} (h : Interleaves steps steps') (handle : String) :
    updates steps handle = updates steps' handle := by
  have hnames : (steps.foldl Books.next .start).names = (steps'.foldl Books.next .start).names := by
    rw [names_filter rfl steps, names_filter rfl steps', h.shown]
  rw [updates, updates, hnames, journal_interleaves _ h]

/-- However transactions are opened, staged and ended side by side, every store reads as its
    updates in order, the same without the transactions that are not committed and in any
    interleaving of the others. -/
theorem serial_reference (first : String) :
    (∀ steps handle, ((run first steps).store handle).ReadsAs (updates steps handle)) ∧
    (∀ steps handle, ((run first (settled steps)).store handle).contents = ((run first steps).store handle).contents) ∧
    ∀ steps steps', Interleaves steps steps' → ∀ handle,
      ((run first steps).store handle).contents = ((run first steps').store handle).contents := by
  refine ⟨fun steps handle => ?_, fun steps handle => ?_, fun steps steps' h handle => ?_⟩
  · exact Store.readsAs_of_contents (contents_run first steps handle)
  · rw [contents_run, contents_run, updates_settled]
  · rw [contents_run, contents_run, updates_interleaves h]

/-- Two transactions that write the same committee, one of them begun in another store than it is
    committed to, and a third that is left open: interleaved, and one after another. -/
theorem serial_reference_two :
    let steps : List Step :=
      [.fresh "b", .begin "b" "x", .begin "a" "y", .put "x" ⟨3, 0, [1]⟩, .begin "a" "z", .put "y" ⟨3, 0, [2]⟩, .put "z" ⟨1, 0, [3]⟩,
        .set "x" "key" [4], .put "y" ⟨2, 5, [5]⟩, .commit "a" "y", .put "x" ⟨2, 5, [6]⟩, .commit "a" "x"]
    let serial : List Step :=
      [.fresh "b", .begin "a" "y", .put "y" ⟨3, 0, [2]⟩, .put "y" ⟨2, 5, [5]⟩, .commit "a" "y",
        .begin "b" "x", .put "x" ⟨3, 0, [1]⟩, .set "x" "key" [4], .put "x" ⟨2, 5, [6]⟩, .commit "a" "x"]
    ((run "a" steps).store "a").committees = [⟨2, 5, [6]⟩, ⟨3, 0, [1]⟩] ∧
    Interleaves (settled steps) serial ∧
    ((run "a" (settled steps)).store "a").contents = ((run "a" serial).store "a").contents := by
  intro steps serial
  have h : Interleaves (settled steps) serial := by
    refine ⟨rfl, fun tx => ?_⟩
    by_cases hx : tx = "x"
    · subst hx
      rfl
    by_cases hy : tx = "y"
    · subst hy
      rfl
    have hown : ∀ l : List Step, (∀ s ∈ l, s.tx? = none ∨ s.tx? = some "x" ∨ s.tx? = some "y") →
        l.filter (·.tx? = some tx) = [] := by
      intro l hl
      rw [List.filter_eq_nil_iff]
      intro s hs htx
      have hstx := of_decide_eq_true htx
      rcases hl s hs with h | h | h
      · exact absurd (h.symm.trans hstx) (by simp)
      · exact hx (Option.some_inj.1 (h.symm.trans hstx)).symm
      · exact hy (Option.some_inj.1 (h.symm.trans hstx)).symm
    rw [hown _ (by decide +kernel), hown _ (by decide +kernel)]
  exact ⟨by decide +kernel, h, (serial_reference "a").2.2 _ _ h "a"⟩

end CommitteeSync.Pool
