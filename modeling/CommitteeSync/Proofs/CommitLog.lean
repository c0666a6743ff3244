/-
  CommitteeSync.Proofs.CommitLog — every epoch once, as long as head writes keep apart.

  Proved, for any number of catch-ups, head events and startups that start from the record,
  in any interleaving in which no head write overlaps a guarded pass or another head write:
  (1) The epochs are committed in order from the resume point of the record found in the
      beginning, each once. Only the first and the last epoch may be committed again, while
      the record holds them (`committed_in_order`, which says the rest as well).
  (2) No action lowers the record.
  (3) A catch-up that finds no reading of the clock past its record ends in the turn in which
      it gets the record, and calls no one.
-/

import CommitteeSync.Proofs.Overlap
import Mathlib.Data.List.Chain
import Mathlib.Data.List.Infix

namespace CommitteeSync

open Turn

variable (env : Setup)

/-! ## The discipline -/

/-- `next` is the epoch after `prev`, or that epoch again if it is the first or the last one. -/
def Follows (prev next : Epoch) : Prop := (prev ≠ lastWord ∧ next = prev + 1) ∨ (next = prev ∧ (prev = 0 ∨ prev = lastWord))

theorem Follows.le {prev next : Epoch} (h : Follows prev next) : prev ≤ next := by
  rcases h with ⟨hl, rfl⟩ | ⟨rfl, -⟩
  · rw [UInt64.le_iff_toNat_le, toNat_succ hl]
    omega
  · exact UInt64.le_refl _

theorem follows_resumePoint (e : Epoch) : Follows e (Record.resumePoint ⟨e⟩ none) := by
  by_cases h0 : e = 0
  · rw [h0]
    exact Or.inr ⟨rfl, Or.inl rfl⟩
  · by_cases hl : e = lastWord
    · rw [hl]
      exact Or.inr ⟨rfl, Or.inr rfl⟩
    · refine Or.inl ⟨hl, ?_⟩
      simp only [Record.resumePoint, if_neg h0, nextEpoch_of_ne hl]

/-- The epoch that comes next after `log`. -/
def NextAfter (first : Epoch) (log : List Epoch) (epoch : Epoch) : Prop :=
  match log.getLast? with
  | none => epoch = first
  | some e => Follows e epoch

/-- Epochs committed in order, the last of them being the record. -/
structure InOrder (found : Option Bytes) (first : Epoch) (st : Standing) : Prop where
  head : ∀ e ∈ st.log.head?, e = first
  chain : st.log.IsChain Follows
  stored : st.stored = match st.log.getLast? with
    | none => found
    | some e => some (Record.encode ⟨e⟩)

theorem InOrder.commit {found : Option Bytes} {first epoch : Epoch} {st : Standing} (h : InOrder found first st)
    (hm : NextAfter first st.log epoch) : InOrder found first (st.commit epoch) := by
  refine ⟨fun e he => ?_, ?_, by simp [Standing.commit]⟩
  · rw [Standing.commit_log, List.head?_append] at he
    cases hh : st.log.head? with
    | some d =>
      rw [hh] at he
      cases he
      exact h.head _ hh
    | none =>
      rw [List.head?_eq_none_iff] at hh
      rw [hh] at he hm
      cases he
      exact hm
  · rw [Standing.commit_log, List.isChain_append]
    refine ⟨h.chain, .singleton epoch, fun x hx y hy => ?_⟩
    rw [Option.mem_def] at hx
    cases hy
    rwa [NextAfter, hx] at hm

/-- The record is the last epoch committed, and before any it is the one found. -/
theorem InOrder.record_eq {found : Option Bytes} {first : Epoch} {r₀ : Record} {st : Standing}
    (h₀ : Record.decode found = .ok r₀) (h : InOrder found first st) :
    st.record = .ok (st.log.getLast?.elim r₀ Record.mk) := by
  have hs := h.stored
  cases hl : st.log.getLast? with
  | none =>
    rw [hl] at hs
    rw [Standing.record, hs, h₀]
    rfl
  | some e =>
    rw [hl] at hs
    rw [Standing.record, hs, Record.decode_encode]
    rfl

theorem InOrder.resume {found : Option Bytes} {r₀ r : Record} {st : Standing} (h₀ : Record.decode found = .ok r₀)
    (h : InOrder found (r₀.resumePoint none) st) (hr : st.record = .ok r) :
    NextAfter (r₀.resumePoint none) st.log (r.resumePoint none) := by
  rw [h.record_eq h₀] at hr
  rw [← Except.ok.inj hr, NextAfter]
  cases st.log.getLast? with
  | none => rfl
  | some e => exact follows_resumePoint e

/-- What comes next is not below the record. -/
theorem NextAfter.le {r₀ : Record} {log : List Epoch} {epoch : Epoch} (h : NextAfter (r₀.resumePoint none) log epoch) :
    (log.getLast?.elim r₀ Record.mk).latestEpoch ≤ epoch := by
  unfold NextAfter at h
  cases hl : log.getLast? with
  | none =>
    rw [hl] at h
    rw [h]
    exact le_resumePoint r₀
  | some e =>
    rw [hl] at h
    exact h.le

/-- Only the epoch that comes next may be committed. -/
def inOrder (found : Option Bytes) (r₀ : Record) (h₀ : Record.decode found = .ok r₀) : Discipline where
  Holds := InOrder found (r₀.resumePoint none)
  May st e := NextAfter (r₀.resumePoint none) st.log e
  commit _ _ h hm := h.commit hm
  next st e _ _ hl := by
    rw [NextAfter, Standing.commit_log, List.getLast?_concat]
    exact Or.inl ⟨hl, rfl⟩
  resume _ _ h hr := h.resume h₀ hr

/-! ## At most once -/

theorem le_of_chain {a e : Epoch} {log : List Epoch} (h : (a :: log).IsChain Follows) (he : e ∈ log) : a ≤ e := by
  induction log generalizing a with
  | nil => cases he
  | cons b log ih =>
    obtain ⟨hab, hb⟩ := List.isChain_cons_cons.1 h
    rcases List.mem_cons.1 he with rfl | he
    · exact hab.le
    · exact UInt64.le_trans hab.le (ih hb he)

/-- In order, every epoch but the first and the last one is committed at most once. -/
theorem count_le_one {log : List Epoch} (h : log.IsChain Follows) {e : Epoch} (h0 : e ≠ 0) (hl : e ≠ lastWord) :
    log.count e ≤ 1 := by
  induction log with
  | nil => exact Nat.zero_le 1
  | cons a log ih =>
    by_cases ha : a = e
    · subst ha
      have hnot : a ∉ log := by
        intro hm
        cases log with
        | nil => cases hm
        | cons b log =>
          obtain ⟨hab, hb⟩ := List.isChain_cons_cons.1 h
          rcases hab with ⟨-, hsucc⟩ | ⟨-, hz | hz⟩
          · -- Everything from here on is past `a`.
            have hle : b ≤ a := by
              rcases List.mem_cons.1 hm with rfl | hm
              · exact UInt64.le_refl _
              · exact le_of_chain hb hm
            rw [hsucc, UInt64.le_iff_toNat_le, toNat_succ hl] at hle
            omega
          · exact h0 hz
          · exact hl hz
      rw [List.count_cons_self, List.count_eq_zero_of_not_mem hnot]
    · rw [List.count_cons_of_ne ha]
      exact ih h.tail

/-! ## A catch-up with nothing to do -/

namespace Shared

/-- The readings of the clock so far, in order. -/
def readings (sh : Shared) : List Epoch :=
  sh.trace.toList.filterMap fun | .clock e => some e | _ => none

/-- Nothing was stored and no one was called. -/
structure Untouched (sh sh' : Shared) : Prop where
  store : sh'.store = sh.store
  calls : sh'.calls = sh.calls

/-- The clock was read past `m` on the way. -/
def ReadsPast (m : Epoch) (sh sh' : Shared) : Prop :=
  ∃ new, sh'.readings = sh.readings ++ new ∧ ∃ e ∈ new, m < e

/-- Unless the clock was read past `m` on the way, nothing was touched. -/
def IdleUpTo (m : Epoch) (sh sh' : Shared) : Prop :=
  ∃ new, sh'.readings = sh.readings ++ new ∧ ((∃ e ∈ new, m < e) ∨ sh.Untouched sh')

theorem readClock_untouched (sh : Shared) : sh.Untouched sh.readClock.1 := by
  unfold readClock
  split <;> exact ⟨rfl, by simp [calls, mark]⟩

theorem readClock_readings (sh : Shared) : sh.readClock.1.readings = sh.readings ++ [sh.readClock.2] := by
  unfold readClock
  split <;> simp [readings, mark]

variable {m : Epoch} {a b c : Shared}

theorem ReadsPast.first {e : Epoch} (hr : b.readings = a.readings ++ [e]) (he : m < e) (h : IdleUpTo m b c) :
    ReadsPast m a c := by
  obtain ⟨new, hnew, -⟩ := h
  exact ⟨e :: new, by rw [hnew, hr, List.append_assoc]; rfl, e, List.mem_cons_self, he⟩

theorem ReadsPast.later {e : Epoch} (hr : b.readings = a.readings ++ [e]) (h : ReadsPast m b c) : ReadsPast m a c := by
  obtain ⟨new, hnew, d, hd, hlt⟩ := h
  exact ⟨e :: new, by rw [hnew, hr, List.append_assoc]; rfl, d, List.mem_cons_of_mem e hd, hlt⟩

theorem ReadsPast.idle (h : ReadsPast m a b) : IdleUpTo m a b := by
  obtain ⟨new, hnew, hpast⟩ := h
  exact ⟨new, hnew, Or.inl hpast⟩

theorem IdleUpTo.of_untouched (h : a.Untouched b) (hr : b.readings = a.readings) : IdleUpTo m a b :=
  ⟨[], by rw [hr, List.append_nil], Or.inr h⟩

/-- One reading that is not past `m`, and then more of the same. -/
theorem IdleUpTo.later {e : Epoch} (hr : b.readings = a.readings ++ [e]) (hu : a.Untouched b) (h : IdleUpTo m b c) :
    IdleUpTo m a c := by
  obtain ⟨new, hnew, hpast⟩ := h
  refine ⟨e :: new, by rw [hnew, hr, List.append_assoc]; rfl, hpast.imp ?_ ?_⟩
  · rintro ⟨d, hd, hlt⟩
    exact ⟨d, List.mem_cons_of_mem e hd, hlt⟩
  · intro hu'
    exact ⟨hu'.store.trans hu.store, hu'.calls.trans hu.calls⟩

/-- What has not been read past `m` left everything as it was. -/
theorem IdleUpTo.untouched (h : IdleUpTo m a b) (hm : ∀ e ∈ b.readings.drop a.readings.length, e ≤ m) : a.Untouched b := by
  obtain ⟨new, hnew, ⟨e, he, hlt⟩ | hu⟩ := h
  · rw [hnew, List.drop_left] at hm
    exact absurd (hm e he) (UInt64.not_le.2 hlt)
  · exact hu

theorem ReadsPast.not_le (h : ReadsPast m a b) (hm : ∀ e ∈ b.readings.drop a.readings.length, e ≤ m) : False := by
  obtain ⟨new, hnew, e, he, hlt⟩ := h
  rw [hnew, List.drop_left] at hm
  exact absurd (hm e he) (UInt64.not_le.2 hlt)

end Shared

open Shared

/-- A pass over an empty range ends at once. -/
theorem Pass.start_empty (token : Token) {resume target : Epoch} (h : target < resume) (sh : Shared) :
    Pass.start token resume target sh = (sh.log (.nothingToCatchUp resume target), .ends (Report.empty resume target)) := by
  rw [Pass.start, if_pos h]

theorem Pass.start_readings (token : Token) (resume target : Epoch) (sh : Shared) :
    (Pass.start token resume target sh).1.readings = sh.readings := by
  unfold start
  split
  · rfl
  · unfold enter
    split
    · rfl
    · simp [EpochWrite.begin, make, mark, readings, Shared.log, Shared.count]

/-- A pass up to a reading of the clock that is not past `m` ends at once if it starts past `m`. -/
theorem Pass.start_idle (token : Token) {m first : Epoch} (hf : m < first) (sh : Shared) :
    (Pass.start token first sh.readClock.2 sh.readClock.1).1.readings = sh.readings ++ [sh.readClock.2] ∧
    (m < sh.readClock.2 ∨ sh.Untouched (Pass.start token first sh.readClock.2 sh.readClock.1).1 ∧
      ∃ report, (Pass.start token first sh.readClock.2 sh.readClock.1).2 = .ends report) := by
  refine ⟨by rw [Pass.start_readings, readClock_readings], ?_⟩
  by_cases hle : sh.readClock.2 ≤ m
  · have hu := readClock_untouched sh
    rw [Pass.start_empty token (UInt64.lt_of_le_of_lt hle hf)]
    exact Or.inr ⟨⟨hu.store, hu.calls⟩, _, rfl⟩
  · exact Or.inl (UInt64.not_le.1 hle)

namespace Follow

theorem lt_max_of_lt {reading first next : Epoch} (h : reading < first) : reading < max first next := by
  rw [UInt64.lt_iff_toNat_lt] at h ⊢
  rw [toNat_max]
  exact Nat.lt_of_lt_of_le h (Nat.le_max_left _ _)

/-- Where the first pass would start past `m`, only a reading past `m` starts one. -/
theorem lookAgain_idle {m : Epoch} {token : Token} {total : Report} {sh : Shared} (hr : m < total.resume) :
    Yields (lookAgain token total sh) (fun sh' _ => ReadsPast m sh sh') (fun sh' _ => IdleUpTo m sh sh') := by
  fun_induction lookAgain token total sh with
  | case1 total sh hcompl hahead after pass hp =>
    obtain ⟨hread, hidle⟩ := Pass.start_idle token (lt_max_of_lt hr : m < max total.resume (nextEpoch total.target)) sh
    rw [hp] at hread hidle
    rcases hidle with hlt | ⟨-, report, he⟩
    · exact ⟨_, hread, _, List.mem_singleton.2 rfl, hlt⟩
    · cases he
  | case2 total sh hcompl hahead after report hp ih =>
    obtain ⟨hread, hidle⟩ := Pass.start_idle token (lt_max_of_lt hr : m < max total.resume (nextEpoch total.target)) sh
    rw [hp] at hread hidle
    rcases hidle with hlt | ⟨hu, -⟩
    · exact (ih hr).mono (fun _ _ h => h.later hread) fun _ _ h => (ReadsPast.first hread hlt h).idle
    · exact (ih hr).mono (fun _ _ h => h.later hread) fun _ _ h => h.later hread hu
  | case3 total sh => exact (IdleUpTo.of_untouched ⟨rfl, rfl⟩ rfl).later (readClock_readings sh) (readClock_untouched sh)
  | case4 => exact .of_untouched ⟨rfl, rfl⟩ rfl

theorem start_idle {m resume : Epoch} {token : Token} {sh : Shared} (hr : m < resume) :
    Yields (start token resume sh) (fun sh' _ => ReadsPast m sh sh') (fun sh' _ => IdleUpTo m sh sh') := by
  obtain ⟨hread, hidle⟩ := Pass.start_idle token hr sh
  unfold start
  split
  · rename_i after pass hp
    rw [hp] at hread hidle
    rcases hidle with hlt | ⟨-, report, he⟩
    · exact ⟨_, hread, _, List.mem_singleton.2 rfl, hlt⟩
    · cases he
  · rename_i after report hp
    rw [hp] at hread hidle
    have hl : Yields (lookAgain token ((Report.empty resume sh.readClock.2).extend sh.readClock.2 report) after) _ _ :=
      lookAgain_idle hr
    rcases hidle with hlt | ⟨hu, -⟩
    · exact hl.mono (fun _ _ h => h.later hread) fun _ _ h => (ReadsPast.first hread hlt h).idle
    · exact hl.mono (fun _ _ h => h.later hread) fun _ _ h => h.later hread hu

end Follow

/-- A catch-up from a record past `m` ends in that turn, unless it reads the clock past `m`. -/
theorem CatchUp.follow_idle {m : Epoch} {token : Token} {sh : Shared} {r : Except Cause Record}
    (hr : ∀ record, r = .ok record → m < record.resumePoint none) :
    Yields (follow token sh r) (fun sh' _ => ReadsPast m sh sh') (fun sh' _ => IdleUpTo m sh sh') := by
  cases r with
  | error cause => exact .of_untouched ⟨rfl, rfl⟩ rfl
  | ok record =>
    simp only [follow, Shared.enter]
    cases (sh.gate .service).enter? with
    | none => exact .of_untouched ⟨rfl, rfl⟩ rfl
    | some g =>
      have hf : Yields (Follow.start token (record.resumePoint none) (sh.setGate .service g)) _ _ :=
        Follow.start_idle (hr record rfl)
      refine (yields_andThen ..).2 (hf.mono_ends ?_)
      intro after outcome hidle
      obtain ⟨new, hnew, hpast | hu⟩ := hidle
      · exact ⟨new, hnew, Or.inl hpast⟩
      · exact ⟨new, hnew, Or.inr ⟨hu.store, hu.calls⟩⟩

namespace System

variable {s₀ : System} {acts : List Action} {r₀ : Record}

/-- A catch-up that reads the clock nowhere past its record is over, and has touched nothing. -/
theorem catchUp_idle {s : System} {id : Nat} {token : Token} {m : Epoch}
    (hw : s.work? id = some (.catchUp token .reading)) (hm : (s.shared.standing env).record = .ok ⟨m⟩)
    (h0 : 0 < m) (hl : m < lastWord) (reply : Reply)
    (hc : ∀ e ∈ (act env s (.turn id reply)).shared.readings.drop s.shared.readings.length, e ≤ m) :
    (act env s (.turn id reply)).work? id = none ∧ s.shared.Untouched (act env s (.turn id reply)).shared := by
  have hres : m < Record.resumePoint ⟨m⟩ none := by
    rw [UInt64.lt_iff_toNat_lt] at h0 hl ⊢
    have hne : m ≠ 0 := fun he => by rw [he] at h0; exact absurd h0 (Nat.lt_irrefl _)
    rw [toNat_resumePoint, if_neg hne]
    rw [toNat_lastWord] at hl
    show m.toNat < min (m.toNat + 1) (1 <<< 64 - 1)
    omega
  have hf : Yields (CatchUp.follow token s.shared (s.shared.readRecord env reply)) _ _ :=
    CatchUp.follow_idle fun record hr => by
      have hrec := Shared.readRecord_ok env hr
      rw [hm] at hrec
      rw [← Except.ok.inj hrec]
      exact hres
  have hy : Yields ((Work.catchUp token .reading).resume env s.shared reply) (fun sh' _ => ReadsPast m s.shared sh')
      (fun sh' _ => IdleUpTo m s.shared sh') := (yields_andThen ..).2 (hf.mono_ends fun _ _ h => h)
  rw [shared_turn env reply hw] at hc ⊢
  rw [work?_turn env reply hw]
  rcases hr : (Work.catchUp token .reading).resume env s.shared reply with ⟨sh', w' | o⟩
  · rw [hr] at hy hc
    exact (hy.not_le hc).elim
  · rw [hr] at hy hc
    exact ⟨rfl, hy.untouched hc⟩

/-! ## Along a run -/

/-- In no state of the run does a head write overlap a guarded pass or another head write. -/
def NoOverlap (s₀ : System) (acts : List Action) : Prop :=
  ∀ part, part <+: acts → ∀ id other, ¬ Overlap (run env s₀ part) id other

instance : Decidable (NoOverlap env s₀ acts) :=
  decidable_of_iff (∀ part ∈ acts.inits, ∀ id < (run env s₀ part).tasks.length, ∀ other < (run env s₀ part).tasks.length,
    ¬ Overlap (run env s₀ part) id other) <| by
    refine ⟨fun h part hp id other ho => ?_, fun h part hp id _ other _ => h part ((List.mem_inits _ _).1 hp) id other⟩
    exact h part ((List.mem_inits _ _).2 hp) id (lt_of_isOpen ho.2.1) other (lt_of_isOpen ho.2.2.1) ho

theorem NoOverlap.of_snoc {a : Action} (h : NoOverlap env s₀ (acts ++ [a])) : NoOverlap env s₀ acts :=
  fun part hp => h part (hp.trans (List.prefix_append acts [a]))

theorem NoOverlap.not_overtaken (h : NoOverlap env s₀ acts) (id : Nat) : ¬ Overtaken env s₀ acts id := by
  rintro ⟨before, since, other, rfl, hover, -⟩
  exact h before (List.prefix_append before _) id other hover

theorem inOrder_run (hover : NoOverride env s₀ acts) (hs : s₀.Idle) (h : Only Kind.fromRecord acts)
    (h₀ : Record.decode (s₀.shared.store.readMetadata env.metadataKey) = .ok r₀) (hno : NoOverlap env s₀ acts) :
    (inOrder _ r₀ h₀).Holds ((run env s₀ acts).shared.standing env) ∧ LawfulApart env (inOrder _ r₀ h₀) s₀ acts := by
  induction acts using List.reverseRecOn with
  | nil =>
    have hlog : (s₀.shared.standing env).log = [] := hs.log
    refine ⟨⟨fun e he => ?_, ?_, ?_⟩, lawfulApart_nil env hs⟩
    · rw [run_nil, hlog] at he
      cases he
    · rw [run_nil, hlog]
      exact .nil
    · rw [run_nil, hlog]
      rfl
  | append_singleton acts a ih =>
    obtain ⟨hst, hlaw⟩ := ih hover.of_snoc h.of_snoc hno.of_snoc
    refine ⟨?_, lawfulApart_act env hs h hst (hover.of_snoc.begins env hst) hlaw⟩
    rw [run_snoc]
    rcases hlaw.commit env hs h.of_snoc a with hsame | ⟨id, epoch, ha, hcommit, hmay⟩
    · rw [hsame]
      exact hst
    · rw [hcommit]
      exact (inOrder _ r₀ h₀).commit _ epoch hst (hmay.resolve_right (hno.of_snoc.not_overtaken env id))

/-- As long as head writes keep apart: epochs are committed in order and, but for the first
    and the last one, once; the record is the last of them; no action lowers it; and a catch-up
    with nothing to do calls no one. -/
theorem committed_in_order (hover : env.startOverride = none) (hs : s₀.Idle) (h : Only Kind.fromRecord acts)
    (h₀ : Record.decode (s₀.shared.store.readMetadata env.metadataKey) = .ok r₀) (hno : NoOverlap env s₀ acts) :
    let s := run env s₀ acts
    (∀ e ∈ s.shared.commitLog.head?, e = r₀.resumePoint none) ∧
    s.shared.commitLog.IsChain Follows ∧
    recorded env s = .ok (s.shared.commitLog.getLast?.elim r₀ Record.mk) ∧
    (∀ e, e ≠ 0 → e ≠ lastWord → s.shared.commitLog.count e ≤ 1) ∧
    (∀ a, ∃ r r', recorded env s = .ok r ∧ recorded env (act env s a) = .ok r' ∧ r.latestEpoch ≤ r'.latestEpoch) ∧
    (∀ id token m reply, s.work? id = some (.catchUp token .reading) → recorded env s = .ok ⟨m⟩ → 0 < m → m < lastWord →
      let s' := act env s (.turn id reply)
      (∀ e ∈ s'.shared.readings.drop s.shared.readings.length, e ≤ m) → s'.work? id = none ∧ s.shared.Untouched s'.shared) := by
  dsimp only
  obtain ⟨hst, hlaw⟩ := inOrder_run env (.of_none env hover) hs h h₀ hno
  have hord : InOrder _ _ _ := hst
  have hr := hord.record_eq h₀
  refine ⟨hord.head, hord.chain, hr, fun e h0 hl => count_le_one hord.chain h0 hl, fun a => ?_, ?_⟩
  · rcases hlaw.commit env hs h a with hsame | ⟨id, epoch, ha, hcommit, hmay⟩
    · exact ⟨_, _, hr, (congrArg Standing.record hsame).trans hr, UInt64.le_refl _⟩
    · have hrec := (congrArg Standing.record hcommit).trans (Standing.commit_record _ epoch)
      have hnext : NextAfter _ _ epoch := hmay.resolve_right (hno.not_overtaken env id)
      exact ⟨_, ⟨epoch⟩, hr, hrec, hnext.le⟩
  · intro id token m reply hw hm h0 hl hc
    exact catchUp_idle env hw hm h0 hl reply hc

/-- Two head events one after the other, the second of which fills a gap. -/
theorem committed_in_order_two_heads :
    (run .plain (opened [] (fun _ => []) []) twoHeads).shared.commitLog = [0, 0, 1, 2] ∧
    (run .plain (opened [] (fun _ => []) []) twoHeads).shared.commitLog.IsChain Follows := by
  have h := committed_in_order .plain rfl (opened_idle [] (fun _ => []) []) (by decide : Only _ twoHeads) rfl
    (by decide +kernel)
  exact ⟨by decide +kernel, h.2.1⟩

end System

end CommitteeSync
