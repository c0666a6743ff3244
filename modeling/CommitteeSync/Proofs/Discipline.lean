/-
  CommitteeSync.Proofs.Discipline — which epochs a task sets out to commit.

  What counts of the committed state here is its standing: the stored record and the epochs
  committed so far. A discipline names what it keeps true of the standing (`Holds`) and
  which epoch may be committed next (`May`), such that the resume point of the record may
  be, and after any epoch the one that follows.

  Under every discipline a task that starts from the record only ever opens writes that may
  be committed, as long as the standing is as the task's own commits left it
  (`Work.resume_lawful`): a head write and the first epoch of a pass are at the resume
  point, a pass goes on with the epoch after the one it committed, and a further pass starts
  where the last one ended. What other tasks commit meanwhile is not looked at here.
-/

import CommitteeSync.Proofs.Committed
import CommitteeSync.Proofs.EpochOrder
import CommitteeSync.Proofs.RecordRoundTrip
import CommitteeSync.Proofs.Staged

namespace CommitteeSync

open Turn

variable (env : Setup)

/-! ## Standing -/

/-- The stored record, and the epochs committed so far in order. -/
structure Standing where
  stored : Option Bytes
  log : List Epoch
  deriving DecidableEq, Repr

namespace Standing

def commit (st : Standing) (epoch : Epoch) : Standing := ⟨some (Record.encode ⟨epoch⟩), st.log ++ [epoch]⟩

/-- The record, if what is stored can be read. -/
def record (st : Standing) : Except Flaw Record := Record.decode st.stored

/-- After the work on `epoch` has ended so. -/
def settle (st : Standing) (epoch : Epoch) : EpochWrite.Result → Standing
  | .ok _ => st.commit epoch
  | .error _ => st

@[simp] theorem commit_log (st : Standing) (epoch : Epoch) : (st.commit epoch).log = st.log ++ [epoch] := rfl
@[simp] theorem commit_record (st : Standing) (epoch : Epoch) : (st.commit epoch).record = .ok ⟨epoch⟩ :=
  Record.decode_encode ⟨epoch⟩

end Standing

def Ledger.standing (l : Ledger) : Standing := ⟨l.metadata.lookup env.metadataKey, l.log⟩

def Shared.standing (sh : Shared) : Standing := sh.ledger.standing env

theorem Shared.standing_of_ledger {sh sh' : Shared} (h : sh'.ledger = sh.ledger) : sh'.standing env = sh.standing env :=
  congrArg (Ledger.standing env) h

theorem Ledger.standing_commit {l : Ledger} {epoch : Epoch} {tx : Transaction}
    (h : tx.metadata = [(env.metadataKey, Record.encode ⟨epoch⟩)]) :
    (l.commit epoch tx).standing env = (l.standing env).commit epoch := by
  simp [Ledger.standing, Ledger.commit, Standing.commit, h, lookup_bindKey]

/-- What a read of the record gives when it is granted. -/
theorem Shared.readRecord_ok {sh : Shared} {reply : Reply} {r : Record} (h : sh.readRecord env reply = .ok r) :
    (sh.standing env).record = .ok r := by
  cases reply with
  | failed cause => cases h
  | granted =>
    simp only [readRecord] at h
    split at h
    · rename_i hd
      cases h
      exact hd
    · cases h

/-! ## Disciplines -/

/-- What is kept true of the standing, and which epochs may be committed next. -/
structure Discipline where
  Holds : Standing → Prop
  May : Standing → Epoch → Prop
  commit : ∀ st e, Holds st → May st e → Holds (st.commit e)
  next : ∀ st e, Holds st → May st e → e ≠ lastWord → May (st.commit e) (e + 1)
  resume : ∀ st r, Holds st → st.record = .ok r → May st (r.resumePoint none)

variable (D : Discipline)

/-- Startup may begin where it would, at the override or after the record. -/
def Discipline.Begins (st : Standing) : Prop := ∀ r, st.record = .ok r → D.May st (r.resumePoint env.startOverride)

theorem Discipline.begins_of_none {D : Discipline} {st : Standing} (hover : env.startOverride = none) (hst : D.Holds st) :
    D.Begins env st := by
  intro r hr
  rw [hover]
  exact D.resume st r hst hr

/-- The pass goes on with an epoch that may be committed, within its range. -/
structure Pass.Lawful (st : Standing) (p : Pass) : Prop where
  may : D.May st p.epoch
  from_resume : p.report.resume ≤ p.epoch
  to_target : p.epoch ≤ p.report.target
  completed : p.report.isCompleted

/-- The passes before did not start after the present one. -/
structure Follow.Lawful (st : Standing) (f : Follow) : Prop where
  pass : f.pass.Lawful D st
  resume : f.total.resume ≤ f.pass.report.resume

def HeadUpdate.Lawful (st : Standing) : HeadUpdate → Prop
  | .reading _ => True
  | .direct epoch _ => D.May st epoch
  | .filling _ pass => pass.Lawful D st

def Listener.Lawful (st : Standing) : Listener → Prop
  | .idle => True
  | .handling u => u.Lawful D st

def CatchUp.Lawful (st : Standing) : CatchUp → Prop
  | .reading => True
  | .following f => f.Lawful D st

def Startup.Lawful (st : Standing) : Startup → Prop
  | .reading | .subscribing => True
  | .following f => f.Lawful D st
  | .listening _ l => l.Lawful D st

/-- Whatever the task has set out to commit may be committed. -/
def Work.Lawful (st : Standing) : Work → Prop
  | .catchUp _ c => c.Lawful D st
  | .head _ _ u => u.Lawful D st
  | .startup s => s.Lawful D st
  | _ => True

/-! ## The write of an epoch -/

namespace EpochWrite

/-- What the transaction holds when its commit is asked for is the record of the epoch. -/
def CarriesRecord (epoch : Epoch) (w : EpochWrite) : Prop :=
  ∀ tx written, w = .committing tx written → tx.metadata = [(env.metadataKey, Record.encode ⟨epoch⟩)]

theorem CarriesRecord.of_fresh {epoch : Epoch} {w : EpochWrite} (h : w.Fresh) : w.CarriesRecord env epoch := by
  intro tx written hw
  rw [hw] at h
  exact h.elim

theorem CarriesRecord.of_stages {epoch : Epoch} {as : List Assignment} {w : EpochWrite} (h : w.Stages env epoch as) :
    w.CarriesRecord env epoch := by
  intro tx written hw
  rw [hw] at h
  rw [h.1]

theorem record_fails (epoch : Epoch) (sh : Shared) (r : Staging.Result) :
    Yields (record epoch sh r) (fun _ _ => True) (fun _ r => ∀ n, r ≠ .ok n) := by
  obtain ⟨tx, cause | written⟩ := r
  · intro n hn; cases hn
  · trivial

/-- Before its commit a write can only fail. -/
theorem resume_fails (token : Token) (epoch : Epoch) (sh : Shared) (w : EpochWrite) (reply : Reply)
    (h : ∀ tx written, w ≠ .committing tx written) :
    Yields (w.resume env token epoch sh reply) (fun _ _ => True) (fun _ r => ∀ n, r ≠ .ok n) := by
  cases w with
  | beginning =>
    simp only [resume]
    split
    · intro n hn; cases hn
    · cases reply with
      | granted => trivial
      | failed cause => intro n hn; cases hn
  | staging s =>
    simp only [resume]
    split
    · intro n hn; cases hn
    · exact (yields_andThen ..).2 (yields_of_forall _ (fun _ _ => trivial) (record_fails epoch))
  | recording tx written =>
    simp only [resume]
    split
    · intro n hn; cases hn
    · cases reply with
      | granted => trivial
      | failed cause => intro n hn; cases hn
  | committing tx written => exact absurd rfl (h tx written)

/-- The standing moves when the write ends well, and then just by its epoch. -/
theorem resume_standing (token : Token) (epoch : Epoch) (sh : Shared) (w : EpochWrite) (reply : Reply)
    (h : w.CarriesRecord env epoch) :
    Yields (w.resume env token epoch sh reply) (fun sh' _ => sh'.standing env = sh.standing env)
      (fun sh' r => sh'.standing env = (sh.standing env).settle epoch r) := by
  have hl := (resume_writes env token epoch sh w reply).ledger
  by_cases hw : ∃ tx written, w = .committing tx written
  · obtain ⟨tx, written, rfl⟩ := hw
    cases reply with
    | granted =>
      have hc := Ledger.standing_commit (l := sh.ledger) env (h tx written rfl)
      exact (congrArg (Ledger.standing env) hl).trans hc
    | failed cause => exact Shared.standing_of_ledger env hl
  · have hne : ∀ tx written, w ≠ .committing tx written := fun tx written he => hw ⟨tx, written, he⟩
    have hn : commitOf (some (epoch, w)) reply = none := by
      cases hc : commitOf (some (epoch, w)) reply with
      | none => rfl
      | some et =>
        obtain ⟨-, written, he⟩ := commitOf_eq_some.1 hc
        cases he
        exact absurd rfl (hne et.2 written)
    rw [hn] at hl
    refine ((yields_of_fst (Shared.standing_of_ledger env hl)).and (resume_fails env token epoch sh w reply hne)).mono
      (fun _ _ hs => hs.1) fun sh' r hs => ?_
    cases r with
    | ok n => exact absurd rfl (hs.2 n)
    | error error => exact hs.1

end EpochWrite

/-- Where the ledger stays as it is, so does the standing. -/
theorem yields_standing {σ ρ : Type} {t : Shared × Turn σ ρ} {sh : Shared} (h : t.1.ledger = sh.ledger) :
    Yields t (fun sh' _ => sh'.standing env = sh.standing env) (fun sh' _ => sh'.standing env = sh.standing env) :=
  yields_of_fst (P := fun sh' => sh'.standing env = sh.standing env) (Shared.standing_of_ledger env h)

/-! ## Passes -/

variable {env} {D}

namespace Pass

/-- After a pass up to `target` the epoch after it may be committed. -/
def Reached (D : Discipline) (st : Standing) (report : Report) : Prop :=
  report.isCompleted → report.target ≠ lastWord → D.May st (report.target + 1)

theorem enter_lawful {token : Token} {report : Report} {epoch : Epoch} {sh : Shared}
    (h : Pass.Lawful D (sh.standing env) ⟨report, epoch, .beginning⟩) :
    Yields (enter token report epoch sh)
      (fun sh' p => p.Lawful D (sh'.standing env) ∧ p.report.resume = report.resume)
      (fun _ r => r.target = report.target ∧ r.isCompleted = false) := by
  unfold enter
  split
  · exact ⟨rfl, rfl⟩
  · exact ⟨⟨h.may, h.from_resume, h.to_target, h.completed⟩, rfl⟩

/-- A pass that starts where it may is lawful; it ends at once if its range is empty, or by a token. -/
theorem start_lawful (token : Token) {resume : Epoch} (target : Epoch) {sh : Shared} (hm : D.May (sh.standing env) resume) :
    Yields (start token resume target sh)
      (fun sh' p => p.Lawful D (sh'.standing env) ∧ p.report.resume = resume)
      (fun sh' r => sh'.standing env = sh.standing env ∧ (r.isCompleted → target < resume)) := by
  have hs := yields_standing env (start_writes token resume target sh).ledger
  refine (hs.and ?_).mono (fun _ _ h => h.2) fun _ _ h => h
  unfold start
  split
  · rename_i h
    exact fun _ => h
  · rename_i h
    have hle : resume ≤ target := UInt64.not_lt.1 h
    have hsame : ((sh.count .catchupRun).log (.passStarted resume target)).standing env = sh.standing env :=
      Shared.standing_of_ledger env (Shared.ledger_log _ _ rfl)
    rw [← hsame] at hm
    have hp : Pass.Lawful D _ ⟨Report.empty resume target, resume, .beginning⟩ := ⟨hm, UInt64.le_refl resume, hle, rfl⟩
    refine (enter_lawful hp).mono_ends fun _ r hr hc => ?_
    rw [hr.2] at hc; cases hc

theorem settle_lawful {token : Token} {p : Pass} {st : Standing} {sh : Shared} {r : EpochWrite.Result}
    (hp : p.Lawful D st) (hst : D.Holds st) (hs : sh.standing env = st.settle p.epoch r) :
    Yields (settle token p.report p.epoch sh r)
      (fun sh' p' => p'.Lawful D (sh'.standing env) ∧ p'.report.resume = p.report.resume)
      (fun sh' report => report.target = p.report.target ∧ Reached D (sh'.standing env) report) := by
  cases r with
  | error error =>
    refine ⟨rfl, fun hc => ?_⟩
    have hn : PassOutcome.completed ≠ outcomeOf error := by
      unfold outcomeOf; split <;> simp
    simp only [Report.isCompleted] at hc
    split at hc
    · rename_i h; exact absurd h.symm hn
    · cases hc
  | ok n =>
    simp only [settle]
    split
    · rename_i he
      refine ⟨rfl, fun _ hl => ?_⟩
      rw [Shared.standing_of_ledger env (Shared.ledger_log sh _ rfl), hs]
      have hm := D.next st p.epoch hst hp.may
      rw [he] at hm ⊢
      exact hm hl
    · rename_i hne
      have hlt : p.epoch < p.report.target := by
        have hle := hp.to_target
        have hn : p.epoch.toNat ≠ p.report.target.toNat := fun h => hne (UInt64.toNat_inj.1 h)
        rw [UInt64.le_iff_toNat_le] at hle
        rw [UInt64.lt_iff_toNat_lt]
        omega
      have hl := ne_lastWord_of_lt hlt
      have hsucc := toNat_succ hl
      have hfrom := hp.from_resume
      rw [UInt64.le_iff_toNat_le] at hfrom
      rw [UInt64.lt_iff_toNat_lt] at hlt
      have hp' : Pass.Lawful D (sh.standing env) ⟨{ p.report with
          lastCommitted := some p.epoch, processed := p.report.processed + 1 }, p.epoch + 1, .beginning⟩ := by
        refine ⟨?_, ?_, ?_, hp.completed⟩
        · rw [hs]
          exact D.next st p.epoch hst hp.may hl
        · rw [UInt64.le_iff_toNat_le, hsucc]; exact Nat.le_succ_of_le hfrom
        · rw [UInt64.le_iff_toNat_le, hsucc]; exact hlt
      refine (enter_lawful hp').mono_ends fun _ r hr => ⟨hr.1, fun hc => ?_⟩
      rw [hr.2] at hc; cases hc

/-- A lawful pass stays lawful, and the epoch after a completed one may be committed. -/
theorem resume_lawful {token : Token} {p : Pass} {sh : Shared} {reply : Reply} (hp : p.Lawful D (sh.standing env))
    (hst : D.Holds (sh.standing env)) (hc : p.write.CarriesRecord env p.epoch) :
    Yields (p.resume env token sh reply)
      (fun sh' p' => p'.Lawful D (sh'.standing env) ∧ p'.report.resume = p.report.resume)
      (fun sh' report => report.target = p.report.target ∧ Reached D (sh'.standing env) report) := by
  refine (yields_andThen ..).2 ((EpochWrite.resume_standing env token p.epoch sh p.write reply hc).mono ?_ ?_)
  · intro sh' w hs
    refine ⟨⟨?_, hp.from_resume, hp.to_target, hp.completed⟩, rfl⟩
    rw [hs]
    exact hp.may
  · intro sh' r hs
    exact settle_lawful hp hst hs

end Pass

/-! ## Following the head -/

namespace Follow

/-- If another pass is needed after `total`, it may start where it would. -/
def LooksOn (D : Discipline) (st : Standing) (total : Report) : Prop :=
  total.isCompleted → total.target ≠ lastWord → D.May st (max total.resume (nextEpoch total.target))

/-- While the head has not reached the first resume point, that is where the next pass would start. -/
theorem max_nextEpoch {first target reading : Epoch} (hr : target < reading)
    (hlt : reading < max first (nextEpoch target)) : max first (nextEpoch reading) = max first (nextEpoch target) := by
  have hrl := toNat_le_lastWord reading
  have hfl := toNat_le_lastWord first
  rw [UInt64.lt_iff_toNat_lt] at hr
  rw [UInt64.lt_iff_toNat_lt, toNat_max, toNat_nextEpoch] at hlt
  apply UInt64.toNat_inj.1
  rw [toNat_max, toNat_max, toNat_nextEpoch, toNat_nextEpoch]
  omega

theorem LooksOn.may {total : Report} {sh : Shared} (h : LooksOn D (sh.standing env) total) (hc : total.isCompleted)
    (hahead : total.target < sh.readClock.2) :
    D.May (sh.readClock.1.standing env) (max total.resume (nextEpoch total.target)) := by
  rw [Shared.standing_of_ledger env (Shared.ledger_readClock sh)]
  exact h hc (ne_lastWord_of_lt hahead)

/-- Looking again starts a pass after the last one, unless every pass so far was empty. -/
theorem lookAgain_lawful {token : Token} {total : Report} {sh : Shared} (h : LooksOn D (sh.standing env) total) :
    Yields (lookAgain token total sh) (fun sh' f => f.Lawful D (sh'.standing env)) (fun _ _ => True) := by
  fun_induction lookAgain token total sh with
  | case1 total sh hc hahead after pass hp =>
    have hy := Pass.start_lawful token sh.readClock.2 (h.may hc hahead)
    rw [hp] at hy
    refine ⟨hy.1, ?_⟩
    rw [hy.2, UInt64.le_iff_toNat_le, toNat_max]
    exact Nat.le_max_left _ _
  | case2 total sh hc hahead after report hp ih =>
    have hm := h.may hc hahead
    have hy := Pass.start_lawful token sh.readClock.2 hm
    rw [hp] at hy
    obtain ⟨hsame, hempty⟩ := hy
    apply ih
    intro hcr _
    rw [hsame]
    show D.May _ (max total.resume (nextEpoch sh.readClock.2))
    rw [max_nextEpoch hahead (hempty hcr)]
    exact hm
  | case3 => trivial
  | case4 => trivial

theorem start_lawful {token : Token} {resume : Epoch} {sh : Shared} (hm : D.May (sh.standing env) resume) :
    Yields (start token resume sh) (fun sh' f => f.Lawful D (sh'.standing env)) (fun _ _ => True) := by
  have hs : sh.readClock.1.standing env = sh.standing env := Shared.standing_of_ledger env (Shared.ledger_readClock sh)
  rw [← hs] at hm
  have hy := Pass.start_lawful token sh.readClock.2 hm
  unfold start
  split
  · rename_i hp
    rw [hp] at hy
    exact ⟨hy.1, by rw [hy.2]; exact UInt64.le_refl resume⟩
  · rename_i hp
    rw [hp] at hy
    obtain ⟨hsame, hempty⟩ := hy
    refine lookAgain_lawful (?_ : LooksOn D (Shared.standing env _) _)
    intro hcr _
    have hlt := hempty hcr
    rw [hsame]
    show D.May _ (max resume (nextEpoch sh.readClock.2))
    have hmax : max resume (nextEpoch sh.readClock.2) = resume := by
      rw [UInt64.lt_iff_toNat_lt] at hlt
      apply UInt64.toNat_inj.1
      rw [toNat_max, toNat_nextEpoch]
      omega
    rw [hmax]
    exact hm

theorem resume_lawful {token : Token} {f : Follow} {sh : Shared} {reply : Reply} (hf : f.Lawful D (sh.standing env))
    (hst : D.Holds (sh.standing env)) (hc : f.pass.write.CarriesRecord env f.pass.epoch) :
    Yields (f.resume env token sh reply) (fun sh' f' => f'.Lawful D (sh'.standing env)) (fun _ _ => True) := by
  refine (yields_andThen ..).2 ((Pass.resume_lawful hf.pass hst hc).mono ?_ ?_)
  · intro sh' p hp
    refine ⟨hp.1, ?_⟩
    rw [hp.2]
    exact hf.resume
  · intro sh' report hr
    apply lookAgain_lawful
    intro hcr hl
    replace hl : f.pass.report.target ≠ lastWord := hl
    have hle : f.total.resume ≤ f.pass.report.target :=
      UInt64.le_trans hf.resume (UInt64.le_trans hf.pass.from_resume hf.pass.to_target)
    have hmax : max f.total.resume (nextEpoch f.pass.report.target) = f.pass.report.target + 1 := by
      rw [UInt64.le_iff_toNat_le] at hle
      apply UInt64.toNat_inj.1
      rw [toNat_max, nextEpoch_of_ne hl, toNat_succ hl]
      omega
    show D.May _ (max f.total.resume (nextEpoch f.pass.report.target))
    rw [hmax, ← hr.1]
    exact hr.2 hcr (hr.1 ▸ hl)

end Follow

/-! ## Tasks that start from the record -/

section Tasks

variable {token : Token} {sh : Shared} {reply : Reply}

theorem HeadUpdate.fill_lawful {guard : Guard} {resume epoch : Epoch} (hm : D.May (sh.standing env) resume) :
    Yields (fill guard token resume epoch sh) (fun sh' u => u.Lawful D (sh'.standing env)) (fun _ _ => True) := by
  have he := Shared.ledger_enter sh guard (.headDeferred resume epoch) rfl
  unfold fill
  split
  · trivial
  · rename_i sh' h
    rw [h] at he
    have hs : (sh'.log (.headFillsGap resume epoch)).standing env = sh.standing env :=
      Shared.standing_of_ledger env ((Shared.ledger_log sh' _ rfl).trans he)
    rw [← hs] at hm
    exact (yields_andThen ..).2 ((Pass.start_lawful token epoch hm).mono (fun _ _ hp => hp.1) fun _ _ _ => trivial)

theorem HeadUpdate.dispatch_lawful {guard : Guard} {epoch : Epoch} {r : Except Cause Record}
    (hr : ∀ record, r = .ok record → D.May (sh.standing env) (record.resumePoint none)) :
    Yields (dispatch guard token epoch sh r) (fun sh' u => u.Lawful D (sh'.standing env)) (fun _ _ => True) := by
  cases r with
  | error cause => trivial
  | ok record =>
    have hm := hr record rfl
    simp only [dispatch]
    split
    · trivial
    · rename_i hnlt
      split
      · exact fill_lawful hm
      · rename_i hngt
        have he : epoch = record.resumePoint none := by
          rw [UInt64.not_lt, UInt64.le_iff_toNat_le] at hnlt hngt
          exact UInt64.toNat_inj.1 (Nat.le_antisymm hngt hnlt)
        have hs := yields_standing env (EpochWrite.start_writes token epoch sh).ledger
        refine (yields_andThen ..).2 (hs.mono ?_ fun _ r _ => by cases r <;> trivial)
        intro sh' w hs
        show D.May _ epoch
        rw [hs, he]
        exact hm

theorem HeadUpdate.resume_lawful {guard : Guard} {u : HeadUpdate} (hu : u.Lawful D (sh.standing env))
    (hst : D.Holds (sh.standing env)) (hc : ∀ epoch w, u.write? = some (epoch, w) → w.CarriesRecord env epoch) :
    Yields (u.resume env guard token sh reply) (fun sh' u' => u'.Lawful D (sh'.standing env)) (fun _ _ => True) := by
  cases u with
  | reading epoch =>
    exact dispatch_lawful fun record hr => D.resume _ _ hst (Shared.readRecord_ok env hr)
  | direct epoch write =>
    have hs := EpochWrite.resume_standing env token epoch sh write reply (hc epoch write rfl)
    refine (yields_andThen ..).2 (hs.mono ?_ fun _ r _ => by cases r <;> trivial)
    intro sh' w hs
    show D.May _ epoch
    rw [hs]
    exact hu
  | filling epoch pass =>
    exact (yields_andThen ..).2 ((Pass.resume_lawful hu hst (hc _ _ rfl)).mono (fun _ _ hp => hp.1) fun _ _ _ => trivial)

theorem HeadUpdate.start_lawful (event : HeadEvent) (sh : Shared) :
    Yields (start env event sh) (fun _ u => ∀ st, u.Lawful D st) (fun _ _ => True) := by
  simp only [start]
  split
  · intro st; trivial
  · trivial

/-- A listener that takes new events has set out to commit nothing yet. -/
theorem Listener.serve_lawful (feed : Nat) (sh : Shared) (lag : Nat) (queue : List HeadEvent) :
    Yields (serve env token feed sh lag queue) (fun _ l => ∀ st, l.Lawful D st) (fun _ _ => True) :=
  serve_yields (R := fun _ => True) (fun _ event _ _ => HeadUpdate.start_lawful event _) (fun _ _ _ _ => trivial)
    (fun _ _ _ => trivial) trivial lag queue

theorem Listener.resume_lawful {guard : Guard} {feed : Nat} {l : Listener} (hl : l.Lawful D (sh.standing env))
    (hst : D.Holds (sh.standing env)) (hc : ∀ epoch w, l.write? = some (epoch, w) → w.CarriesRecord env epoch) :
    Yields (l.resume env guard token feed sh reply) (fun sh' l' => l'.Lawful D (sh'.standing env)) (fun _ _ => True) := by
  cases l with
  | idle => exact (serve_lawful feed sh _ _).mono (fun _ _ h => h _) fun _ _ h => h
  | handling u =>
    refine (yields_andThen ..).2 ((HeadUpdate.resume_lawful hl hst hc).mono_ends fun sh' _ _ => ?_)
    exact (serve_lawful feed sh' _ _).mono (fun _ _ h => h _) fun _ _ h => h

theorem CatchUp.resume_lawful {c : CatchUp} (hl : c.Lawful D (sh.standing env))
    (hst : D.Holds (sh.standing env)) (hc : ∀ epoch w, c.write? = some (epoch, w) → w.CarriesRecord env epoch) :
    Yields (c.resume env token sh reply) (fun sh' c' => c'.Lawful D (sh'.standing env)) (fun _ _ => True) := by
  cases c with
  | reading =>
    simp only [resume]
    cases hr : sh.readRecord env reply with
    | error cause => trivial
    | ok record =>
      have hm := D.resume _ _ hst (Shared.readRecord_ok env hr)
      have he := Shared.ledger_enter sh .service (.passDenied .manual) rfl
      simp only [follow]
      split
      · trivial
      · rename_i sh' h
        rw [h] at he
        rw [← Shared.standing_of_ledger env he] at hm
        exact (yields_andThen ..).2 ((Follow.start_lawful hm).mono_ends fun _ _ _ => trivial)
  | following f =>
    exact (yields_andThen ..).2 ((Follow.resume_lawful hl hst (hc _ _ rfl)).mono_ends fun _ _ _ => trivial)

theorem Startup.subscribe_lawful (report : Report) (sh : Shared) :
    Yields (subscribe token sh report) (fun sh' s => s.Lawful D (sh'.standing env)) (fun _ _ => True) := by
  simp only [subscribe]
  split <;> trivial

theorem Startup.resume_lawful {s : Startup} (hb : s = .reading → D.Begins env (sh.standing env))
    (hl : s.Lawful D (sh.standing env)) (hst : D.Holds (sh.standing env)) (hc : ∀ epoch w, s.write? = some (epoch, w) → w.CarriesRecord env epoch) :
    Yields (s.resume env token sh reply) (fun sh' s' => s'.Lawful D (sh'.standing env)) (fun _ _ => True) := by
  cases s with
  | reading =>
    simp only [resume]
    cases hr : sh.readRecord env reply with
    | error cause => trivial
    | ok record =>
      have hm := hb rfl record (Shared.readRecord_ok env hr)
      have he := (Shared.ledger_enter (sh.log (.startupResumes (record.resumePoint env.startOverride) record.latestEpoch
        env.startOverride)) .service (.passDenied .startup) rfl).trans (Shared.ledger_log sh _ rfl)
      simp only [catchUp]
      split
      · trivial
      · rename_i sh' h
        rw [h] at he
        rw [← Shared.standing_of_ledger env he] at hm
        exact (yields_andThen ..).2 ((Follow.start_lawful hm).mono_ends fun sh r _ => subscribe_lawful r sh)
  | following f =>
    exact (yields_andThen ..).2 ((Follow.resume_lawful hl hst (hc _ _ rfl)).mono_ends
      fun sh r _ => subscribe_lawful r sh)
  | subscribing =>
    simp only [resume]
    split
    · trivial
    · cases reply with
      | failed cause => trivial
      | granted =>
        exact (yields_andThen ..).2 ((Listener.serve_lawful _ _ _ _).mono (fun _ _ h => h _)
          fun sh r _ => (finish_ends sh r).never_waits)
  | listening feed l =>
    exact (yields_andThen ..).2 ((Listener.resume_lawful hl hst hc).mono_ends
      fun sh r _ => (finish_ends sh r).never_waits)

end Tasks

/-! ## Any task -/

/-- The kinds of work that start from the record: passes up to the head, head events handled
    by the service, and the background run. -/
def Kind.fromRecord : Kind → Bool
  | .catchUp | .head .service | .startup | .aside => true
  | _ => false

namespace Work

theorem start_lawful (sh : Shared) (r : Request) (hk : r.kind.fromRecord) :
    Yields (start env sh r) (fun _ w => ∀ st, w.Lawful D st) (fun _ _ => True) := by
  cases r with
  | head guard token event =>
    exact (yields_andThen ..).2 ((HeadUpdate.start_lawful event sh).mono_ends fun _ _ _ => trivial)
  | waitForFatal =>
    simp only [start, lookForFatal]
    split
    · trivial
    · intro st; trivial
  | runnerStart root =>
    show Yields (andThen (Supervisor.start root sh) (.runner root) (ending .stopped)) _ _
    exact (yields_andThen ..).2 (yields_of_forall _ (fun _ _ _ => trivial) fun _ _ => trivial)
  | range token resume target => cases hk
  | writeEpoch token epoch => cases hk
  | stage epoch ending => cases hk
  | pass token resume target => cases hk
  | listen token feed => cases hk
  | catchUp token => intro st; trivial
  | latestEpoch | readRecord | startup => intro st; trivial
  | _ => exact (yields_andThen ..).2 (yields_of_forall _ (fun _ _ _ => trivial) fun _ _ => trivial)

/-- A turn keeps its task lawful. -/
theorem resume_lawful {sh : Shared} {reply : Reply} {w : Work} (hb : w = .startup .reading → D.Begins env (sh.standing env))
    (hk : w.kind.fromRecord) (hl : w.Lawful D (sh.standing env)) (hst : D.Holds (sh.standing env))
    (hc : ∀ epoch v, w.write? = some (epoch, v) → v.CarriesRecord env epoch) :
    Yields (w.resume env sh reply) (fun sh' w' => w'.Lawful D (sh'.standing env)) (fun _ _ => True) := by
  cases w with
  | asked r => exact (start_lawful sh r hk).mono (fun _ _ h => h _) fun _ _ h => h
  | catchUp token c =>
    exact (yields_andThen ..).2 ((CatchUp.resume_lawful hl hst hc).mono_ends fun _ _ _ => trivial)
  | head guard token u =>
    exact (yields_andThen ..).2 ((HeadUpdate.resume_lawful hl hst hc).mono_ends fun _ _ _ => trivial)
  | startup s =>
    exact (yields_andThen ..).2 ((Startup.resume_lawful (fun hs => hb (congrArg Work.startup hs)) hl hst hc).mono_ends fun _ _ _ => trivial)
  | waitForFatal => simp only [resume, lookForFatal]; split <;> trivial
  | latestEpoch | readRecord => trivial
  | _ => exact (yields_andThen ..).2 (yields_of_forall _ (fun _ _ => trivial) fun _ _ => trivial)

end Work

section May

variable {st : Standing} {epoch : Epoch} {v : EpochWrite}

theorem HeadUpdate.Lawful.may {u : HeadUpdate} (h : u.Lawful D st) (hw : u.write? = some (epoch, v)) : D.May st epoch := by
  cases u with
  | reading e => cases hw
  | direct e write => cases hw; exact h
  | filling e pass => cases hw; exact h.may

theorem Listener.Lawful.may {l : Listener} (h : l.Lawful D st) (hw : l.write? = some (epoch, v)) : D.May st epoch := by
  cases l with
  | idle => cases hw
  | handling u => exact HeadUpdate.Lawful.may h hw

/-- The epoch of an open write of a lawful task may be committed. -/
theorem Work.Lawful.may {w : Work} (hk : w.kind.fromRecord) (h : w.Lawful D st) (hw : w.write? = some (epoch, v)) :
    D.May st epoch := by
  cases w with
  | catchUp token c =>
    cases c with
    | reading => cases hw
    | following f => cases hw; exact h.pass.may
  | head guard token u => exact HeadUpdate.Lawful.may h hw
  | startup s =>
    cases s with
    | reading => cases hw
    | subscribing => cases hw
    | following f => cases hw; exact h.pass.may
    | listening feed l => exact Listener.Lawful.may h hw
  | range token r => cases hk
  | writeEpoch token e write => cases hk
  | pass token p => cases hk
  | listen token feed l => cases hk
  | _ => cases hw

theorem Pass.Lawful.mono {st' : Standing} {p : Pass} (h : p.Lawful D st) (hm : ∀ e, D.May st e → D.May st' e) :
    p.Lawful D st' := ⟨hm _ h.may, h.from_resume, h.to_target, h.completed⟩

theorem HeadUpdate.Lawful.mono {st' : Standing} {u : HeadUpdate} (h : u.Lawful D st) (hm : ∀ e, D.May st e → D.May st' e) :
    u.Lawful D st' := by
  cases u with
  | reading e => trivial
  | direct e write => exact hm e h
  | filling e pass => exact Pass.Lawful.mono h hm

/-- A task stays lawful where no epoch that may be committed ceases to be one. -/
theorem Work.Lawful.mono {st' : Standing} {w : Work} (h : w.Lawful D st) (hm : ∀ e, D.May st e → D.May st' e) :
    w.Lawful D st' := by
  cases w with
  | catchUp token c =>
    cases c with
    | reading => trivial
    | following f => exact ⟨h.pass.mono hm, h.resume⟩
  | head guard token u => exact HeadUpdate.Lawful.mono h hm
  | startup s =>
    cases s with
    | reading => trivial
    | subscribing => trivial
    | following f => exact ⟨h.pass.mono hm, h.resume⟩
    | listening feed l =>
      cases l with
      | idle => trivial
      | handling u => exact HeadUpdate.Lawful.mono h hm
  | _ => trivial

end May

/-! ## Along a run -/

namespace System

variable (env) {s₀ : System} {acts : List Action}

/-- The record, if what is stored can be read. -/
def recorded (s : System) : Except Flaw Record := Record.decode (s.shared.store.readMetadata env.metadataKey)

theorem carriesRecord_run (hs : s₀.Idle) {id : Nat} {epoch : Epoch} {w : EpochWrite}
    (h : (run env s₀ acts).write? id = some (epoch, w)) : w.CarriesRecord env epoch := by
  rcases fresh_or_fetched env hs h with hf | ⟨as, hf⟩
  · exact .of_fresh env hf
  · obtain ⟨v, hv, hst⟩ := hf.stages
    cases h.symm.trans hv
    exact .of_stages env hst

/-- The standing stays as it is, or a task's open write is granted its commit. -/
theorem standing_act (hs : s₀.Idle) (h : Only (fun k => k ≠ .stage) acts) (a : Action) :
    (act env (run env s₀ acts) a).shared.standing env = (run env s₀ acts).shared.standing env ∨
    ∃ id epoch tx written, a = .turn id .granted ∧ (run env s₀ acts).write? id = some (epoch, .committing tx written) ∧
      (act env (run env s₀ acts) a).shared.standing env = ((run env s₀ acts).shared.standing env).commit epoch := by
  have hk : ∀ id w, (run env s₀ acts).work? id = some w → w.kind ≠ .stage := by
    intro id w hw
    simpa using kinds_run env (by decide) hs h hw
  have hl := act_ledger env hk a
  cases hc : (run env s₀ acts).commits? a with
  | none =>
    rw [hc] at hl
    exact Or.inl (Shared.standing_of_ledger env hl)
  | some et =>
    obtain ⟨epoch, tx⟩ := et
    obtain ⟨id, written, ha, hw⟩ := commits?_eq_some.1 hc
    have hm := carriesRecord_run env hs hw tx written rfl
    rw [hc] at hl
    refine Or.inr ⟨id, epoch, tx, written, ha, hw, ?_⟩
    exact (congrArg (Ledger.standing env) hl).trans (Ledger.standing_commit env hm)

theorem Only.not_stage (h : Only Kind.fromRecord acts) : Only (fun k => k ≠ .stage) acts := by
  intro r hr
  have hk := h r hr
  cases hkind : r.kind <;> simp_all [Kind.fromRecord]

/-- After an action a task is lawful because of its own turn, or it is as it was before. -/
theorem lawful_act (hs : s₀.Idle) (h : Only Kind.fromRecord acts) {a : Action}
    (hst : D.Holds ((run env s₀ acts).shared.standing env)) {id : Nat} {w' : Work}
    (hb : (run env s₀ acts).work? id = some (.startup .reading) → D.Begins env ((run env s₀ acts).shared.standing env))
    (hl : ∀ w, (run env s₀ acts).work? id = some w → w.Lawful D ((run env s₀ acts).shared.standing env))
    (hw' : (act env (run env s₀ acts) a).work? id = some w') :
    w'.Lawful D ((act env (run env s₀ acts) a).shared.standing env) ∨
    (∀ reply, a ≠ .turn id reply) ∧ (run env s₀ acts).work? id = some w' := by
  cases came env hw' with
  | kept ha hk => exact Or.inr ⟨ha, hk⟩
  | asked r hr hw => rw [hw]; exact Or.inl trivial
  | turn reply w ha hw hr =>
    have hk := kinds_run env (by decide) hs h hw
    have hc : ∀ epoch v, w.write? = some (epoch, v) → v.CarriesRecord env epoch := by
      intro epoch v hv
      exact carriesRecord_run env hs (write?_eq_some.2 ⟨w, hw, hv⟩)
    have hy : Yields (w.resume env _ reply) _ _ := Work.resume_lawful (fun he => hb (he ▸ hw)) hk (hl w hw) hst hc
    rw [hr] at hy
    exact Or.inl hy

/-- No startup of the run begins at an override. -/
def NoOverride (s₀ : System) (acts : List Action) : Prop :=
  ∀ part, part <+: acts → ∀ id, (run env s₀ part).work? id = some (.startup .reading) → env.startOverride = none

theorem NoOverride.of_none (hover : env.startOverride = none) : NoOverride env s₀ acts := fun _ _ _ _ => hover

theorem NoOverride.of_snoc {a : Action} (h : NoOverride env s₀ (acts ++ [a])) : NoOverride env s₀ acts :=
  fun part hp => h part (hp.trans (List.prefix_append acts [a]))

theorem NoOverride.begins (h : NoOverride env s₀ acts) (hst : D.Holds ((run env s₀ acts).shared.standing env)) (id : Nat)
    (hw : (run env s₀ acts).work? id = some (.startup .reading)) : D.Begins env ((run env s₀ acts).shared.standing env) :=
  Discipline.begins_of_none env (h acts (List.prefix_refl acts) id hw) hst

/-- Where what may be committed outlasts the commits of other tasks, every run keeps what the
    discipline keeps, and every task is lawful. -/
theorem lawful_run (hlast : ∀ st e d, D.May st e → D.May (st.commit d) e) (hover : NoOverride env s₀ acts) (hs : s₀.Idle)
    (h : Only Kind.fromRecord acts) (h₀ : D.Holds (s₀.shared.standing env)) :
    D.Holds ((run env s₀ acts).shared.standing env) ∧
    ∀ id w, (run env s₀ acts).work? id = some w → w.Lawful D ((run env s₀ acts).shared.standing env) := by
  induction acts using List.reverseRecOn with
  | nil =>
    refine ⟨h₀, fun id w hw => ?_⟩
    rw [run_nil, hs.work?] at hw
    cases hw
  | append_singleton acts a ih =>
    obtain ⟨hst, hlaw⟩ := ih hover.of_snoc h.of_snoc
    have hstep := standing_act env hs (Only.not_stage h.of_snoc) a
    rw [run_snoc]
    have hmay : ∀ e, D.May ((run env s₀ acts).shared.standing env) e →
        D.May ((act env (run env s₀ acts) a).shared.standing env) e := by
      intro e he
      rcases hstep with hsame | ⟨id, epoch, tx, written, ha, hw, hcommit⟩
      · rw [hsame]; exact he
      · rw [hcommit]; exact hlast _ e epoch he
    constructor
    · rcases hstep with hsame | ⟨id, epoch, tx, written, ha, hw, hcommit⟩
      · rw [hsame]; exact hst
      · obtain ⟨w, hw, hv⟩ := write?_eq_some.1 hw
        have hk := kinds_run env (by decide) hs h.of_snoc hw
        rw [hcommit]
        exact D.commit _ epoch hst ((hlaw id w hw).may hk hv)
    · intro id w' hw'
      rcases lawful_act env hs h.of_snoc hst (hover.of_snoc.begins env hst id) (hlaw id) hw' with hl | ⟨_, hk⟩
      · exact hl
      · exact (hlaw id w' hk).mono hmay

end System

end CommitteeSync
