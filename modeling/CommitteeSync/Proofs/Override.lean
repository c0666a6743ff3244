/-
  CommitteeSync.Proofs.Override — gaps below an override.

  With a start override the background run begins there, whatever the record says. Only its
  first pass does: head events go on from the record as usual. So as soon as something has
  been committed the two agree, and there are no gaps from the first commit on. They differ
  while nothing has been committed: if the first pass came to nothing, the first event goes
  on from the record that was found, and where that is past the override, the epochs in
  between are left out (`override_gap`).

  Proved, for the background run by itself, with any record, clock, failing calls and head
  events: whenever an epoch past the override is committed, every epoch from the override up
  to it has been, except if the first commit of all was at the resume point of the record
  found and that is past the override; then every epoch from there on has been
  (`committed_from_override`).
-/

import CommitteeSync.Proofs.Background
import CommitteeSync.Proofs.Denial

namespace CommitteeSync

open Turn

variable (env : Setup)

/-- The same with a start override. -/
def Setup.startingAt (start : Epoch) : Setup := { Setup.plain with startOverride := some start }

/-! ## The discipline -/

/-- The first epoch to be committed: the override, or the resume point of the record found. -/
def Starts (found : Option Bytes) (start epoch : Epoch) : Prop :=
  epoch = start ∨ ∃ r, Record.decode found = .ok r ∧ epoch = r.resumePoint none

/-- Nothing has been committed yet, or there are no gaps from the first commit on. -/
def GaplessFrom (found : Option Bytes) (start : Epoch) (st : Standing) : Prop :=
  (st.log = [] ∧ st.stored = found) ∨
  ∃ first, st.log.head? = some first ∧ Starts found start first ∧ Gapless found first st

/-- What may be committed next: a first epoch, or one that leaves no gap behind it. -/
def MayFollow (found : Option Bytes) (start : Epoch) (st : Standing) (epoch : Epoch) : Prop :=
  (st.log = [] ∧ Starts found start epoch) ∨ ∃ first, st.log.head? = some first ∧ Reaches first st.log epoch

theorem head?_snoc {log : List Epoch} {first : Epoch} (h : log.head? = some first) (e : Epoch) :
    (log ++ [e]).head? = some first := by
  rw [List.head?_append, h]
  rfl

variable {found : Option Bytes} {start : Epoch} {st : Standing} {epoch : Epoch}

theorem GaplessFrom.commit (h : GaplessFrom found start st) (hm : MayFollow found start st epoch) :
    GaplessFrom found start (st.commit epoch) := by
  right
  rcases hm with ⟨hlog, hstart⟩ | ⟨first, hfirst, hreach⟩
  · refine ⟨epoch, by rw [Standing.commit_log, hlog]; rfl, hstart, ?_⟩
    rcases h with hnone | ⟨first, hfirst, -⟩
    · have hg : Gapless found epoch st := ⟨by simp [hlog], Or.inl hnone⟩
      exact hg.commit (Reaches.refl epoch _)
    · rw [hlog] at hfirst
      cases hfirst
  · rcases h with ⟨hlog, -⟩ | ⟨first', hfirst', hstart, hg⟩
    · rw [hlog] at hfirst
      cases hfirst
    · cases hfirst.symm.trans hfirst'
      exact ⟨first, head?_snoc hfirst epoch, hstart, hg.commit hreach⟩

theorem MayFollow.next (h : MayFollow found start st epoch) (hl : epoch ≠ lastWord) :
    MayFollow found start (st.commit epoch) (epoch + 1) := by
  right
  have hmem : epoch ∈ (st.commit epoch).log := List.mem_append_right _ (List.mem_singleton.2 rfl)
  rcases h with ⟨hlog, -⟩ | ⟨first, hfirst, hreach⟩
  · exact ⟨epoch, by rw [Standing.commit_log, hlog]; rfl, (Reaches.refl epoch _).succ hmem hl⟩
  · exact ⟨first, head?_snoc hfirst epoch, (hreach.snoc epoch).succ hmem hl⟩

theorem GaplessFrom.resume {r : Record} (h : GaplessFrom found start st) (hr : st.record = .ok r) :
    MayFollow found start st (r.resumePoint none) := by
  rcases h with ⟨hlog, hfound⟩ | ⟨first, hfirst, -, hg⟩
  · rw [Standing.record, hfound] at hr
    exact Or.inl ⟨hlog, Or.inr ⟨r, hr, rfl⟩⟩
  · rcases hg.stored with ⟨hlog, -⟩ | ⟨e, he, henc⟩
    · rw [hlog] at hfirst
      cases hfirst
    · rw [Standing.record, henc, Record.decode_encode] at hr
      rw [← Except.ok.inj hr]
      exact Or.inr ⟨first, hfirst, (hg.reaches e he).resumePoint he⟩

/-- Without gaps from the first commit on, wherever that is. -/
def overridden (found : Option Bytes) (start : Epoch) : Discipline where
  Holds := GaplessFrom found start
  May := MayFollow found start
  commit _ _ h hm := h.commit hm
  next _ _ _ hm hl := hm.next hl
  resume _ _ h hr := h.resume hr

/-- As long as nothing has been committed, startup may begin at the override. -/
theorem overridden_begins (hover : env.startOverride = some start) (hlog : st.log = []) :
    (overridden found start).Begins env st := by
  intro r _
  rw [hover]
  exact Or.inl ⟨hlog, Or.inl rfl⟩

/-! ## The background run by itself -/

/-- Work aside from the epochs has no write and no pass open. -/
theorem Work.aside_closed {w : Work} (h : w.kind = .aside) : w.write? = none ∧ w.isGuarded = false ∧ w.isDirect = false := by
  cases w with
  | catchUp _ _ => cases h
  | range _ _ => cases h
  | head _ _ _ => cases h
  | writeEpoch _ _ _ => cases h
  | stage _ _ _ => cases h
  | pass _ _ => cases h
  | listen _ _ _ => cases h
  | startup _ => cases h
  | _ => exact ⟨rfl, rfl, rfl⟩

theorem Work.opening_closed {w : Work} (h : w.isOpening) : w.write? = none := by
  unfold isOpening at h
  split at h
  · rfl
  · rfl
  · rfl
  · rename_i u
    cases u with
    | reading epoch => rfl
    | direct epoch write => cases h
    | filling epoch pass => cases h
  · cases h

namespace System

variable {s s₀ : System} {acts : List Action} {a : Action} {id : Nat} {w w' : Work}

/-- The background run has at most one startup, and nothing is committed before it has the record. -/
structure Alone (s : System) : Prop where
  unlaunched : s.shared.background.launched = false →
    s.shared.commitLog = [] ∧ ∀ id w, s.work? id = some w → w.kind ≠ .startup
  one : ∀ id id' w w', s.work? id = some w → s.work? id' = some w' → w.kind = .startup → w'.kind = .startup → id = id'
  opening : ∀ id w, s.work? id = some w → w.kind = .startup → w.isOpening → s.shared.commitLog = []

theorem kind_act (hid : id < s.tasks.length) (h : (act env s a).work? id = some w') :
    ∃ w, s.work? id = some w ∧ w'.kind = w.kind ∧ (w'.isOpening → w.isOpening) := by
  by_cases ha : ∃ reply, a = .turn id reply
  · obtain ⟨reply, rfl⟩ := ha
    obtain ⟨w, hw, hr⟩ := work?_turn_eq_some env h
    have hk := w.resume_kind env s.shared reply
    have hg : Yields (w.resume env s.shared reply) _ _ := Work.resume_guarded w
    rw [hr] at hk hg
    exact ⟨w, hw, hk, fun ho => (hg.1 ho).1⟩
  · have hne : ∀ reply, a ≠ .turn id reply := fun reply he => ha ⟨reply, he⟩
    refine ⟨w', ?_, rfl, fun h => h⟩
    rw [work?_eq_some] at h ⊢
    rw [← tasks_kept env hid hne, h]

/-- Besides a startup that has the record no one commits. -/
theorem log_act (hk : ∀ id w, s.work? id = some w → w.kind = .startup ∨ w.kind = .aside) (a : Action) :
    (act env s a).shared.commitLog = s.shared.commitLog ∨
    ∃ id w, s.work? id = some w ∧ w.kind = .startup ∧ w.isOpening = false := by
  have hne : ∀ id w, s.work? id = some w → w.kind ≠ .stage := fun id w hw he => by
    rcases hk id w hw with h | h <;> rw [he] at h <;> cases h
  have hl := act_ledger env hne a
  cases hc : s.commits? a with
  | none =>
    rw [hc] at hl
    exact Or.inl (Shared.commitLog_of_ledger hl)
  | some et =>
    obtain ⟨id, written, -, hv⟩ := commits?_eq_some.1 hc
    obtain ⟨w, hw, hv⟩ := write?_eq_some.1 hv
    refine Or.inr ⟨id, w, hw, ?_, ?_⟩
    · rcases hk id w hw with h | h
      · exact h
      · rw [(Work.aside_closed h).1] at hv
        cases hv
    · cases ho : w.isOpening with
      | false => rfl
      | true =>
        rw [Work.opening_closed ho] at hv
        cases hv

/-- An action of the background run, or one aside from it, leaves it alone. -/
theorem Alone.act (h : Alone s) (hsp : Spawned s) (hk : ∀ id w, s.work? id = some w → w.kind = .startup ∨ w.kind = .aside)
    (ha : ∀ r, a = .request r → r.kind = .aside) : Alone (act env s a) := by
  -- A startup after the action was there before, or nothing was.
  have hfrom : ∀ {id w'}, (System.act env s a).work? id = some w' → w'.kind = .startup →
      (∃ w, s.work? id = some w ∧ w.kind = .startup ∧ (w'.isOpening → w.isOpening)) ∨
      (s.shared.background.launched = false ∧ (System.act env s a).shared.background.launched) := by
    intro id w' hw' hs
    by_cases hid : id < s.tasks.length
    · obtain ⟨w, hw, hkind, ho⟩ := kind_act env hid hw'
      exact Or.inl ⟨w, hw, by rw [← hkind, hs], ho⟩
    · rcases asked_act env (Nat.not_lt.1 hid) hw' with ⟨r, hr, rfl⟩ | ⟨hb, hb', rfl | ⟨rfl, -⟩⟩
      · rw [show (Work.asked r).kind = _ from ha r hr] at hs
        cases hs
      · cases hs
      · exact Or.inr ⟨hb, hb'⟩
  have hlog : s.shared.commitLog = [] → (∀ id w, s.work? id = some w → w.kind = .startup → w.isOpening) →
      (System.act env s a).shared.commitLog = [] := by
    intro hlog hall
    rcases log_act env hk a with hsame | ⟨id, w, hw, hs, ho⟩
    · rw [hsame, hlog]
    · rw [hall id w hw hs] at ho
      cases ho
  constructor
  · intro hb'
    have hb : s.shared.background.launched = false := Bool.eq_false_iff.2 fun hb => by
      rw [launched_act env hb] at hb'
      cases hb'
    obtain ⟨hnil, hnone⟩ := h.unlaunched hb
    refine ⟨hlog hnil fun id w hw hs => absurd hs (hnone id w hw), fun id w' hw' hs => ?_⟩
    rcases hfrom hw' hs with ⟨w, hw, hs, -⟩ | ⟨-, hl⟩
    · exact hnone id w hw hs
    · rw [hl] at hb'
      cases hb'
  · refine (hsp.act env fun r hr he => ?_).one
    rw [ha r hr] at he
    cases he
  · intro id w' hw' hs ho
    rcases hfrom hw' hs with ⟨w, hw, hs, hop⟩ | ⟨hb, -⟩
    · refine hlog (h.opening id w hw hs (hop ho)) fun id₁ w₁ hw₁ hs₁ => ?_
      cases h.one id id₁ w w₁ hw hw₁ hs hs₁
      cases hw.symm.trans hw₁
      exact hop ho
    · obtain ⟨hnil, hnone⟩ := h.unlaunched hb
      exact hlog hnil fun id w hw hs => absurd hs (hnone id w hw)

theorem Only.fromRecord (h : Only (fun k => k = .aside) acts) : Only Kind.fromRecord acts := by
  intro r hr
  have hk := h r hr
  simp only [decide_eq_true_eq] at hk
  rw [hk]
  rfl

theorem startup_or_aside (hs : s₀.Idle) (h : Only (fun k => k = .aside) acts) (hw : (run env s₀ acts).work? id = some w) :
    w.kind = .startup ∨ w.kind = .aside := by
  have h' : Only (fun k => k = .startup ∨ k = .aside) acts := fun r hr => by
    have hk := h r hr
    simp only [decide_eq_true_eq] at hk ⊢
    exact Or.inr hk
  simpa using kinds_run env (by decide) hs h' hw

theorem alone_run (hs : s₀.Idle) (h : Only (fun k => k = .aside) acts) : Alone (run env s₀ acts) := by
  induction acts using List.reverseRecOn with
  | nil =>
    have hnone : ∀ {id w}, (run env s₀ []).work? id ≠ some w := by
      intro id w hw
      rw [run_nil, hs.work?] at hw
      cases hw
    exact ⟨fun _ => ⟨hs.log, fun _ _ hw => absurd hw hnone⟩, fun _ _ _ _ hw => absurd hw hnone, fun _ _ hw => absurd hw hnone⟩
  | append_singleton acts a ih =>
    have hsp : Spawned (run env s₀ acts) := spawned_run env hs (h.of_snoc.mono fun k hk => by cases k <;> trivial)
    rw [run_snoc]
    refine (ih h.of_snoc).act env hsp (fun id w hw => startup_or_aside env hs h.of_snoc hw) fun r hr => ?_
    simpa using h.last r hr

/-- With one startup there is no one to overtake it. -/
theorem Alone.not_overtaken (hs : s₀.Idle) (h : Only (fun k => k = .aside) acts) (id : Nat) : ¬ Overtaken env s₀ acts id := by
  rintro ⟨before, since, other, rfl, ⟨hne, ho, ho', -⟩, -⟩
  have hbefore : Only (fun k => k = .aside) before := h.of_append_left
  have hopen : ∀ {id}, (run env s₀ before).isOpen id → ∃ w, (run env s₀ before).work? id = some w ∧ w.kind = .startup := by
    intro id ho
    cases hw : (run env s₀ before).work? id with
    | none => simp [isOpen, guarded, direct, hw] at ho
    | some w =>
      refine ⟨w, rfl, (startup_or_aside env hs hbefore hw).resolve_right fun hk => ?_⟩
      obtain ⟨-, hg, hd⟩ := Work.aside_closed hk
      rw [isOpen_of_work hw, hg, hd] at ho
      cases ho
  obtain ⟨w, hw, hk⟩ := hopen ho
  obtain ⟨w', hw', hk'⟩ := hopen ho'
  exact hne ((alone_run env hs hbefore).one id other w w' hw hw' hk hk')

variable {start : Epoch}

theorem overridden_run (hover : env.startOverride = some start) (hs : s₀.Idle) (h : Only (fun k => k = .aside) acts) :
    GaplessFrom (s₀.shared.store.readMetadata env.metadataKey) start ((run env s₀ acts).shared.standing env) ∧
    LawfulApart env (overridden (s₀.shared.store.readMetadata env.metadataKey) start) s₀ acts := by
  induction acts using List.reverseRecOn with
  | nil => exact ⟨Or.inl ⟨hs.log, rfl⟩, lawfulApart_nil env hs⟩
  | append_singleton acts a ih =>
    obtain ⟨hst, hlaw⟩ := ih h.of_snoc
    refine ⟨?_, lawfulApart_act env hs h.fromRecord hst (fun id hw => ?_) hlaw⟩
    · rw [run_snoc]
      rcases hlaw.commit env hs h.of_snoc.fromRecord a with hsame | ⟨id, epoch, ha, hcommit, hmay⟩
      · rw [hsame]
        exact hst
      · rw [hcommit]
        exact GaplessFrom.commit hst (hmay.resolve_right (Alone.not_overtaken env hs h.of_snoc id))
    · exact overridden_begins env hover ((alone_run env hs h.of_snoc).opening id _ hw rfl rfl)

/-- Below no epoch that was committed past the override is there a gap down to it, unless the
    first commit of all was past it, at the resume point of the record that was found. -/
theorem committed_from_override (hover : env.startOverride = some start) (hs : s₀.Idle)
    (h : Only (fun k => k = .aside) acts) :
    let log := (run env s₀ acts).shared.commitLog
    ∀ e ∈ log, start ≤ e →
      (∀ d, start ≤ d → d ≤ e → d ∈ log) ∨
      ∃ r, Record.decode (s₀.shared.store.readMetadata env.metadataKey) = .ok r ∧ start < r.resumePoint none ∧
        log.head? = some (r.resumePoint none) ∧ r.resumePoint none ≤ e ∧
        ∀ d, r.resumePoint none ≤ d → d ≤ e → d ∈ log := by
  dsimp only
  intro e he hle
  rcases (overridden_run env hover hs h).1 with ⟨hlog, -⟩ | ⟨first, hfirst, hstart, hg⟩
  · rw [show (run env s₀ acts).shared.commitLog = [] from hlog] at he
    cases he
  · have hall : ∀ d, first ≤ d → d ≤ e → d ∈ (run env s₀ acts).shared.commitLog := by
      intro d hf hd
      by_cases heq : d = e
      · rw [heq]
        exact he
      · exact (hg.reaches e he).2 d hf (UInt64.lt_of_le_of_ne hd heq)
    rcases hstart with rfl | ⟨r, hr, rfl⟩
    · exact Or.inl hall
    · by_cases hpast : start < r.resumePoint none
      · exact Or.inr ⟨r, hr, hpast, hfirst, (hg.reaches e he).1, hall⟩
      · exact Or.inl fun d hd => hall d (UInt64.le_trans (UInt64.not_lt.1 hpast) hd)

/-- With a record of epoch 5 the background run commits epochs 3 and 4, and an event of epoch 6 comes. -/
def rewound : List Action :=
  .launch (.root 0) :: List.replicate 11 (.turn 1 .granted) ++ .change (.send ⟨24, true⟩) :: List.replicate 10 (.turn 1 .granted)

/-- Events go on from what the override led to, not from the record that was found. -/
theorem committed_from_override_rewound :
    let s := run (.startingAt 3) (opened [("progress", Record.encode ⟨5⟩)] (fun _ => []) [4]) rewound
    s.shared.commitLog = [3, 4, 5, 6] ∧ ∀ d, 3 ≤ d → d ≤ 6 → d ∈ s.shared.commitLog := by
  have hlog : (run (.startingAt 3) (opened [("progress", Record.encode ⟨5⟩)] (fun _ => []) [4]) rewound).shared.commitLog =
      [3, 4, 5, 6] := by decide +kernel
  have h := committed_from_override (.startingAt 3) rfl (opened_idle [("progress", Record.encode ⟨5⟩)] (fun _ => []) [4])
    (by decide : Only _ rewound) 6 (by rw [hlog]; decide) (by decide)
  refine ⟨hlog, ?_⟩
  rcases h with hall | ⟨r, -, hlt, hhead, -⟩
  · exact hall
  · rw [hlog] at hhead
    have hfirst : (3 : Epoch) = r.resumePoint none := Option.some_inj.1 hhead
    rw [← hfirst] at hlt
    exact absurd hlt (by decide)

/-- The fetch for epoch 3 fails, and then an event of epoch 6 comes. -/
def leapt : List Action :=
  .launch (.root 0) :: List.replicate 3 (.turn 1 .granted) ++ .turn 1 (.failed (.reported ["node offline"])) ::
  .turn 1 .granted :: .change (.send ⟨24, true⟩) :: List.replicate 6 (.turn 1 .granted)

/-- A first pass that comes to nothing leaves out the epochs between the override and the record. -/
theorem override_gap :
    let s₀ := opened [("progress", Record.encode ⟨5⟩)] (fun _ => []) [4]
    let log := (run (.startingAt 3) s₀ leapt).shared.commitLog
    s₀.Idle ∧ Only (fun k => k = .aside) leapt ∧ log = [6] ∧ ¬ ∀ e ∈ log, 3 ≤ e → ∀ d, 3 ≤ d → d ≤ e → d ∈ log := by
  have hlog : (run (.startingAt 3) (opened [("progress", Record.encode ⟨5⟩)] (fun _ => []) [4]) leapt).shared.commitLog = [6] := by
    decide +kernel
  refine ⟨⟨rfl, rfl⟩, by decide, hlog, fun hall => ?_⟩
  rw [hlog] at hall
  exact absurd (hall 6 (by decide) (by decide) 3 (by decide) (by decide)) (by decide)

end System

end CommitteeSync
