/-
  CommitteeSync.Proofs.Attempts — the turns in which a task asks for a guarded pass.

  Four kinds of task ask the service's gate for a pass: a catch-up and a startup once they
  have the record, a range at once, and a head event that is past the record's resume point,
  by itself or in the hands of the listener.

  About one turn of one task (System.attempts, over a run, is in Denial):
  (1) What a turn that is not part of a pass touches (`Quiet`): neither the store nor the node.
  (2) An attempt with the gate free begins a pass (`Work.attempt_admitted`).
  (3) No turn leads behind the gate but an attempt (`Work.resume_guarded`).
-/

import CommitteeSync.Proofs.Deferral

namespace CommitteeSync

open Turn

variable (env : Setup)

/-! ## Turns that touch nothing -/

namespace Shared

/-- The store was left alone, no one was called but for metadata, and so many denials were counted. -/
structure Quiet (sh sh' : Shared) (denials : UInt64) : Prop where
  store : sh'.store = sh.store
  calls : ∃ asked, sh'.calls = sh.calls ++ asked ∧ ∀ c ∈ asked, ∃ key, c = .metadata key
  denials : sh'.telemetry.guardDenials = sh.telemetry.guardDenials + denials

namespace Quiet

variable {a b c : Shared} {n : UInt64}

theorem of_eq (hs : b.store = a.store) (hc : b.calls = a.calls)
    (hd : b.telemetry.guardDenials = a.telemetry.guardDenials) : a.Quiet b 0 :=
  ⟨hs, ⟨[], by rw [hc, List.append_nil], fun _ h => absurd h List.not_mem_nil⟩, by rw [hd, UInt64.add_zero]⟩

theorem refl (a : Shared) : a.Quiet a 0 := of_eq rfl rfl rfl

theorem trans (h : a.Quiet b n) (h' : b.Quiet c 0) : a.Quiet c n := by
  obtain ⟨asked, hc, hall⟩ := h.calls
  obtain ⟨asked', hc', hall'⟩ := h'.calls
  refine ⟨h'.store.trans h.store, ⟨asked ++ asked', by rw [hc', hc, List.append_assoc], fun x hx => ?_⟩, ?_⟩
  · exact (List.mem_append.1 hx).elim (hall x) (hall' x)
  · rw [h'.denials, h.denials, UInt64.add_zero]

theorem andThen {σ ρ σ' ρ' : Type} {t : Shared × Turn σ ρ} (h : a.Quiet t.1 n) (wrap : σ → σ')
    {next : Shared → ρ → Shared × Turn σ' ρ'} (hn : ∀ sh r, Quiet sh (next sh r).1 0) :
    a.Quiet (Turn.andThen t wrap next).1 n := by
  obtain ⟨sh, s | r⟩ := t
  · exact h
  · exact h.trans (hn sh r)

theorem ask (sh : Shared) : sh.Quiet (sh.askRecord env) 0 :=
  ⟨rfl, ⟨_, calls_make sh _, fun c hc => ⟨_, List.mem_singleton.1 hc⟩⟩, by rw [UInt64.add_zero]; rfl⟩

/-- A denial and the event that says so. -/
theorem denied (sh : Shared) (e : Event) : sh.Quiet ((sh.count .guardDenial).log e) 1 :=
  ⟨rfl, ⟨[], (List.append_nil _).symm, fun _ h => absurd h List.not_mem_nil⟩, rfl⟩

end Quiet

theorem enter_busy {sh : Shared} (hb : sh.busy) (e : Event) :
    sh.enter .service e = ((sh.count .guardDenial).log e, false) := enter_denied (g := .service) hb e

theorem enter_free {sh : Shared} (hb : sh.busy = false) (e : Event) :
    sh.enter .service e = (sh.setGate .service ⟨true⟩, true) := enter_admitted (g := .service) hb e

end Shared

open Shared

theorem HeadUpdate.start_quiet (event : HeadEvent) (sh : Shared) : sh.Quiet (start env event sh).1 0 := by
  simp only [start]
  split
  · have hc : sh.Quiet (sh.count .headEvent) 0 := .of_eq rfl rfl rfl
    exact hc.trans (.ask env (sh.count .headEvent))
  · exact .of_eq rfl rfl rfl

theorem Listener.serve_quiet (token : Token) (feed : Nat) (sh : Shared) (lag : Nat) (queue : List HeadEvent) :
    sh.Quiet (serve env token feed sh lag queue).1 0 := by
  refine serve_fst (P := fun sh' => sh.Quiet sh' 0) (fun sh' event rest h => ?_) (fun sh' exit h => ?_) (.refl sh) lag queue
  · have hu : sh'.Quiet (sh'.updateFeed feed fun f => { f with queue := rest }) 0 := .of_eq rfl rfl rfl
    exact (h.trans hu).trans (HeadUpdate.start_quiet env event _)
  · have hs : sh'.Quiet (stop feed sh' exit).1 0 := by cases exit <;> exact .of_eq rfl rfl rfl
    exact h.trans hs

theorem Startup.finish_quiet (sh : Shared) (exit : ListenerExit) : sh.Quiet (finish sh exit).1 0 := by
  cases exit with
  | shutdown => exact .refl sh
  | streamClosed =>
    simp only [finish, Shared.fail]
    by_cases h : sh.background.handler.isTriggered
    · rw [if_pos h]; exact .of_eq rfl rfl rfl
    · rw [if_neg h]; exact .of_eq rfl rfl rfl

/-- What the listener does after an event is quiet. -/
theorem Startup.listening_quiet {token : Token} {sh : Shared} {reply : Reply} (feed : Nat) {u : HeadUpdate} {n : UInt64}
    (h : sh.Quiet (u.resume env .service token sh reply).1 n) :
    sh.Quiet ((listening feed (.handling u)).resume env token sh reply).1 n := by
  have hl : sh.Quiet ((Listener.handling u).resume env .service token feed sh reply).1 n :=
    h.andThen _ fun sh _ => Listener.serve_quiet env token feed sh _ _
  exact hl.andThen _ finish_quiet

/-! ## Attempts -/

/-- The handling of an event asks the gate: the record is there and the event past its resume point. -/
def HeadUpdate.attempts (sh : Shared) (reply : Reply) : HeadUpdate → Bool
  | .reading epoch =>
    match sh.readRecord env reply with
    | .ok record => record.resumePoint none < epoch
    | .error _ => false
  | _ => false

/-- The task's turn asks the service's gate for a pass. -/
def Work.attempts (sh : Shared) (reply : Reply) : Work → Bool
  | .asked (.range _ _ _) => true
  | .catchUp _ .reading | .startup .reading => (sh.readRecord env reply).isOk
  | .head .service _ u | .startup (.listening _ (.handling u)) => u.attempts env sh reply
  | _ => false

theorem HeadUpdate.attempts_iff {sh : Shared} {reply : Reply} {u : HeadUpdate} :
    u.attempts env sh reply ↔
      ∃ epoch record, u = .reading epoch ∧ sh.readRecord env reply = .ok record ∧ record.resumePoint none < epoch := by
  cases u with
  | reading epoch =>
    cases h : sh.readRecord env reply with
    | error cause => simp [attempts, h]
    | ok record => simp [attempts, h]
  | _ => simp [attempts]

/-- Who asks for a pass has none open. -/
theorem Work.attempts_not_guarded {sh : Shared} {reply : Reply} {w : Work} (h : w.attempts env sh reply) :
    w.isGuarded = false := by
  unfold attempts at h
  split at h
  case h_4 =>
    obtain ⟨epoch, record, rfl, -⟩ := (HeadUpdate.attempts_iff env).1 h
    rfl
  case h_5 =>
    obtain ⟨epoch, record, rfl, -⟩ := (HeadUpdate.attempts_iff env).1 h
    rfl
  case h_6 => cases h
  all_goals rfl

theorem exists_of_isOk {ε α : Type} {x : Except ε α} (h : x.isOk) : ∃ a, x = .ok a := by
  cases x with
  | error e => cases h
  | ok a => exact ⟨a, rfl⟩

/-! ## Denied -/

theorem HeadUpdate.dispatch_denied {token : Token} {epoch : Epoch} {sh : Shared} {record : Record} (hb : sh.busy)
    (hlt : record.resumePoint none < epoch) :
    dispatch .service token epoch sh (.ok record) =
      ((sh.count .guardDenial).log (.headDeferred (record.resumePoint none) epoch), .ends (.deferred epoch)) := by
  have hn : ¬ epoch < record.resumePoint none := UInt64.not_lt.2 (UInt64.le_of_lt hlt)
  simp only [dispatch, if_neg hn, if_pos hlt, fill, enter_busy hb]

/-! ## Admitted -/

/-- A pass begins with one of these, whatever comes of it. -/
def Event.beginsPass : Event → Bool
  | .passStarted _ _ | .nothingToCatchUp _ _ => true
  | _ => false

/-- The task was denied the guard. -/
def Outcome.isDenial : Outcome → Bool
  | .catchUp (.ok none) | .range none | .head (.deferred _) => true
  | _ => false

namespace Shared

/-- No denial was counted, and what was logged stays. -/
structure Onward (sh sh' : Shared) : Prop where
  denials : sh'.telemetry.guardDenials = sh.telemetry.guardDenials
  events : sh.events.toList <+: sh'.events.toList

/-- No denial was counted, and a pass was begun. -/
structure Begins (sh sh' : Shared) : Prop where
  denials : sh'.telemetry.guardDenials = sh.telemetry.guardDenials
  began : ∃ logged, sh'.events.toList = sh.events.toList ++ logged ∧ ∃ e ∈ logged, e.beginsPass

variable {a b c : Shared}

theorem Onward.of_eq (hd : b.telemetry.guardDenials = a.telemetry.guardDenials) (he : b.events = a.events) : a.Onward b :=
  ⟨hd, by rw [he]⟩

theorem Onward.trans (h : a.Onward b) (h' : b.Onward c) : a.Onward c :=
  ⟨h'.denials.trans h.denials, h.events.trans h'.events⟩

theorem Onward.of_quiet {k : Kind} (h : a.Quiet b 0) (he : Effects k a b) : a.Onward b :=
  ⟨by rw [h.denials, UInt64.add_zero], he.events⟩

theorem Onward.log (sh : Shared) (e : Event) : sh.Onward (sh.log e) :=
  ⟨rfl, by simp only [Shared.log, Array.toList_push]; exact List.prefix_append _ _⟩

theorem Onward.readClock (sh : Shared) : sh.Onward sh.readClock.1 := by
  unfold Shared.readClock
  split <;> exact .of_eq rfl rfl

theorem Onward.begins (h : a.Onward b) (h' : b.Begins c) : a.Begins c := by
  obtain ⟨first, hf⟩ := h.events
  obtain ⟨logged, hl, e, he, hb⟩ := h'.began
  exact ⟨h'.denials.trans h.denials, first ++ logged, by rw [hl, ← hf, List.append_assoc], e, List.mem_append_right _ he, hb⟩

theorem Begins.onward (h : a.Begins b) (h' : b.Onward c) : a.Begins c := by
  obtain ⟨logged, hl, e, he, hb⟩ := h.began
  obtain ⟨rest, hr⟩ := h'.events
  exact ⟨h'.denials.trans h.denials, logged ++ rest, by rw [← hr, hl, List.append_assoc], e, List.mem_append_left _ he, hb⟩

theorem Begins.log (sh : Shared) {e : Event} (he : e.beginsPass) : sh.Begins (sh.log e) :=
  ⟨rfl, [e], by simp [Shared.log], e, List.mem_singleton.2 rfl, he⟩

end Shared

theorem Pass.enter_onward (token : Token) (report : Report) (epoch : Epoch) (sh : Shared) :
    sh.Onward (enter token report epoch sh).1 := by
  unfold enter
  split
  · exact .log sh _
  · exact .of_eq rfl rfl

theorem Pass.start_announces (token : Token) (resume target : Epoch) (sh : Shared) :
    sh.Begins (start token resume target sh).1 := by
  unfold start
  split
  · exact .log sh rfl
  · have hc : sh.Onward (sh.count .catchupRun) := .of_eq rfl rfl
    exact (hc.begins (.log _ rfl)).onward (enter_onward token _ _ _)

theorem Follow.lookAgain_onward (token : Token) (total : Report) (sh : Shared) :
    sh.Onward (lookAgain token total sh).1 := by
  have hdenials : (lookAgain token total sh).1.telemetry.guardDenials = sh.telemetry.guardDenials := by
    fun_induction lookAgain token total sh with
    | case1 total sh _ _ after pass h =>
      have hs := Pass.start_announces token (max total.resume (nextEpoch total.target)) sh.readClock.2 sh.readClock.1
      rw [h] at hs
      exact hs.denials.trans (Onward.readClock sh).denials
    | case2 total sh _ _ after report h ih =>
      have hs := Pass.start_announces token (max total.resume (nextEpoch total.target)) sh.readClock.2 sh.readClock.1
      rw [h] at hs
      exact ih.trans (hs.denials.trans (Onward.readClock sh).denials)
    | case3 total sh => exact (Onward.readClock sh).denials
    | case4 total sh => rfl
  exact ⟨hdenials, (lookAgain_effects (k := .catchUp) token total sh).events⟩

theorem Follow.start_announces (token : Token) (resume : Epoch) (sh : Shared) :
    sh.Begins (start token resume sh).1 := by
  have hs := (Onward.readClock sh).begins (Pass.start_announces token resume sh.readClock.2 sh.readClock.1)
  unfold start
  split
  · rename_i h; rwa [h] at hs
  · rename_i h; rw [h] at hs; exact hs.onward (lookAgain_onward token _ _)

section Admitted

variable {sh : Shared} {reply : Reply}

/-- Of a turn that begins a pass both halves say so. -/
theorem yields_begins {σ ρ : Type} {t : Shared × Turn σ ρ} (h : sh.Begins t.1) :
    Yields t (fun sh' _ => sh.Begins sh') (fun sh' _ => sh.Begins sh') := yields_of_fst (P := fun sh' => sh.Begins sh') h

theorem entered_onward (sh : Shared) (gate : Gate) : sh.Onward (sh.setGate .service gate) := .of_eq rfl rfl

theorem exit_onward (sh : Shared) : sh.Onward (sh.exit .service) := .of_eq rfl rfl

theorem HeadUpdate.dispatch_admitted (token : Token) {epoch : Epoch} {record : Record} (hb : sh.busy = false)
    (hlt : record.resumePoint none < epoch) :
    Yields (dispatch .service token epoch sh (.ok record)) (fun sh' _ => sh.Begins sh')
      (fun sh' o => sh.Begins sh' ∧ o.deferred? = none) := by
  have hn : ¬ epoch < record.resumePoint none := UInt64.not_lt.2 (UInt64.le_of_lt hlt)
  simp only [dispatch, if_neg hn, if_pos hlt, fill, enter_free hb]
  have hs := ((entered_onward sh ⟨true⟩).trans (.log _ (.headFillsGap (record.resumePoint none) epoch))).begins
    (Pass.start_announces token (record.resumePoint none) epoch _)
  refine (yields_andThen ..).2 ((yields_begins hs).mono_ends fun sh' report h => ⟨h.onward (exit_onward sh'), ?_⟩)
  split <;> rfl

theorem RangePass.start_admitted (token : Token) (hb : sh.busy = false) (resume target : Epoch) :
    Yields (start token resume target sh) (fun sh' _ => sh.Begins sh') (fun sh' r => sh.Begins sh' ∧ r ≠ none) := by
  simp only [start, enter_free hb]
  have hs := (entered_onward sh ⟨true⟩).begins (Pass.start_announces token resume target _)
  refine (yields_andThen ..).2 ((yields_begins hs).mono_ends fun sh' _ h => ⟨h.onward (exit_onward sh'), ?_⟩)
  exact Option.some_ne_none _

theorem CatchUp.follow_admitted (token : Token) (hb : sh.busy = false) (record : Record) :
    Yields (follow token sh (.ok record)) (fun sh' _ => sh.Begins sh')
      (fun sh' r => sh.Begins sh' ∧ ∃ report, r = .ok (some report)) := by
  simp only [follow, enter_free hb]
  have hs := (entered_onward sh ⟨true⟩).begins (Follow.start_announces token (record.resumePoint none) _)
  exact (yields_andThen ..).2 ((yields_begins hs).mono_ends fun sh' report h => ⟨h.onward (exit_onward sh'), report, rfl⟩)

theorem Startup.subscribe_onward (token : Token) (report : Report) (sh : Shared) : sh.Onward (subscribe token sh report).1 := by
  have h : sh.Onward ((sh.exit .service).log (.startupCaughtUp report)) := (exit_onward sh).trans (.log _ _)
  simp only [subscribe]
  split
  · exact h
  · exact h.trans (.of_eq rfl rfl)

theorem Startup.catchUp_admitted (token : Token) (hb : sh.busy = false) (record : Record) :
    Yields (catchUp env token sh (.ok record)) (fun sh' _ => sh.Begins sh') (fun sh' _ => sh.Begins sh') := by
  have hlog := Onward.log sh (.startupResumes (record.resumePoint env.startOverride) record.latestEpoch env.startOverride)
  have hb' : (sh.log (.startupResumes (record.resumePoint env.startOverride) record.latestEpoch env.startOverride)).busy = false := hb
  simp only [catchUp, enter_free hb']
  have hs := (hlog.trans (entered_onward _ ⟨true⟩)).begins (Follow.start_announces token (record.resumePoint env.startOverride) _)
  refine (yields_andThen ..).2 ((yields_begins hs).mono_ends fun sh' report h => ?_)
  exact yields_begins (h.onward (subscribe_onward token report sh'))

/-- The listener goes on to the next events only when the pass is over. -/
theorem Startup.listening_admitted {token : Token} (feed : Nat) {u : HeadUpdate} (h : sh.Begins (u.resume env .service token sh reply).1) :
    sh.Begins ((listening feed (.handling u)).resume env token sh reply).1 := by
  have hserve : ∀ sh' : Shared, sh'.Onward (Listener.takeNext env token feed sh').1 := fun sh' =>
    .of_quiet (Listener.serve_quiet env token feed sh' _ _) (Listener.serve_effects (k := .startup) env token feed sh' _ _)
  have hfinish : ∀ (sh' : Shared) exit, sh'.Onward (finish sh' exit).1 := fun sh' exit =>
    .of_quiet (finish_quiet sh' exit) (finish_effects sh' exit)
  have hl : sh.Begins ((Listener.handling u).resume env .service token feed sh reply).1 :=
    ((yields_andThen ..).2 ((yields_begins h).mono_ends fun sh' _ h => yields_begins (h.onward (hserve sh')))).fst
  exact ((yields_andThen ..).2 ((yields_begins hl).mono_ends fun sh' exit h =>
    yields_begins (h.onward (hfinish sh' exit)))).fst

theorem Work.attempt_admitted {w : Work} (h : w.attempts env sh reply) (hb : sh.busy = false) :
    Yields (w.resume env sh reply) (fun sh' _ => sh.Begins sh') (fun sh' o => sh.Begins sh' ∧ o.isDenial = false) := by
  unfold attempts at h
  split at h
  case h_1 token resume target =>
    refine (yields_andThen ..).2 ((RangePass.start_admitted token hb resume target).mono_ends fun _ r hr => ⟨hr.1, ?_⟩)
    cases r with
    | none => exact absurd rfl hr.2
    | some report => rfl
  case h_2 token =>
    obtain ⟨record, hr⟩ := exists_of_isOk h
    have hy := CatchUp.follow_admitted token hb record
    rw [← hr] at hy
    refine (yields_andThen ..).2 (hy.mono_ends fun _ r hr => ⟨hr.1, ?_⟩)
    obtain ⟨report, rfl⟩ := hr.2
    rfl
  case h_3 =>
    obtain ⟨record, hr⟩ := exists_of_isOk h
    have hy := Startup.catchUp_admitted env sh.runToken hb record
    rw [← hr] at hy
    exact (yields_andThen ..).2 (hy.mono_ends fun _ _ h => ⟨h.onward (.of_eq rfl rfl), rfl⟩)
  case h_4 token u =>
    obtain ⟨epoch, record, rfl, hr, hlt⟩ := (HeadUpdate.attempts_iff env).1 h
    have hy := HeadUpdate.dispatch_admitted token hb hlt
    rw [← hr] at hy
    refine (yields_andThen ..).2 (hy.mono_ends fun _ o ho => ⟨ho.1, ?_⟩)
    cases o <;> first | rfl | cases ho.2
  case h_5 feed u =>
    obtain ⟨epoch, record, rfl, hr, hlt⟩ := (HeadUpdate.attempts_iff env).1 h
    have hy := HeadUpdate.dispatch_admitted sh.runToken hb hlt
    rw [← hr] at hy
    have hu : sh.Begins ((HeadUpdate.reading epoch).resume env .service sh.runToken sh reply).1 :=
      (hy.mono_ends fun _ _ h => h.1).fst
    exact (yields_andThen ..).2 ((yields_begins (Startup.listening_admitted env feed hu)).mono_ends
      fun _ _ h => ⟨h.onward (.of_eq rfl rfl), rfl⟩)
  case h_6 => cases h

end Admitted

/-! ## Only by an attempt -/

def HeadUpdate.isReading : HeadUpdate → Bool
  | .reading _ => true
  | _ => false

/-- The task has done nothing yet but ask for the record. -/
def Work.isOpening : Work → Bool
  | .asked _ | .catchUp _ .reading | .startup .reading => true
  | .head _ _ u => u.isReading
  | _ => false

section Turns

variable {env} {sh : Shared} {reply : Reply}

theorem HeadUpdate.resume_filling (guard : Guard) (token : Token) (u : HeadUpdate) :
    Yields (u.resume env guard token sh reply)
      (fun _ u' => u'.isReading = false ∧ (u'.isFilling → u.isFilling ∨ u.attempts env sh reply)) (fun _ _ => True) := by
  cases u with
  | reading epoch =>
    cases hr : sh.readRecord env reply with
    | error cause => rw [resume, hr]; trivial
    | ok record =>
      simp only [resume, hr, dispatch]
      split
      · trivial
      · split
        · rename_i hlt
          have ha : (reading epoch).attempts env sh reply := (attempts_iff env).2 ⟨epoch, record, rfl, hr, hlt⟩
          unfold fill
          split
          · trivial
          · exact (yields_andThen ..).2 (yields_of_forall _ (fun _ _ => ⟨rfl, fun _ => Or.inr ha⟩) fun _ _ => trivial)
        · exact (yields_andThen ..).2 (yields_of_forall _ (fun _ _ => ⟨rfl, fun h => absurd h Bool.false_ne_true⟩)
            fun _ r => by cases r <;> trivial)
  | direct epoch write =>
    exact (yields_andThen ..).2 (yields_of_forall _ (fun _ _ => ⟨rfl, fun h => absurd h Bool.false_ne_true⟩)
      fun _ r => by cases r <;> trivial)
  | filling epoch pass =>
    exact (yields_andThen ..).2 (yields_of_forall _ (fun _ _ => ⟨rfl, fun _ => Or.inl rfl⟩) fun _ _ => trivial)

theorem Listener.resume_filling (token : Token) (feed : Nat) (l : Listener) :
    Yields (l.resume env .service token feed sh reply)
      (fun _ l' => l'.isFilling → l.isFilling ∨ (Work.startup (.listening feed l)).attempts env sh reply) (fun _ _ => True) := by
  have hserve : ∀ sh' : Shared, Yields (takeNext env token feed sh')
      (fun _ l' => l'.isFilling → l.isFilling ∨ (Work.startup (.listening feed l)).attempts env sh reply) (fun _ _ => True) :=
    fun sh' => (serve_busy feed sh' _ _).mono (fun _ l' hl h => by rw [hl.2] at h; cases h) fun _ _ _ => trivial
  cases l with
  | idle => exact hserve sh
  | handling u =>
    exact (yields_andThen ..).2 ((HeadUpdate.resume_filling .service token u).mono (fun _ _ h => h.2) fun sh' _ _ => hserve sh')

/-- Of startup's turns only an attempt leads behind the gate, and none leads back to the record. -/
theorem Startup.resume_guarded (token : Token) (s : Startup) :
    Yields (s.resume env token sh reply)
      (fun _ s' => (Work.startup s').isOpening = false ∧
        (s'.isGuarded → s.isGuarded ∨ (Work.startup s).attempts env sh reply)) (fun _ _ => True) := by
  have hsub : ∀ (sh' : Shared) report, Yields (subscribe token sh' report) (fun _ s' => (Work.startup s').isOpening = false ∧
      (s'.isGuarded → s.isGuarded ∨ (Work.startup s).attempts env sh reply)) (fun _ _ => True) := by
    intro sh' report
    simp only [subscribe]
    split
    · trivial
    · exact ⟨rfl, fun h => absurd h Bool.false_ne_true⟩
  cases s with
  | reading =>
    cases hr : sh.readRecord env reply with
    | error cause => rw [resume, hr]; trivial
    | ok record =>
      have ha : (Work.startup .reading).attempts env sh reply := by simp [Work.attempts, hr, Except.isOk, Except.toBool]
      simp only [resume, hr, catchUp]
      split
      · trivial
      · exact (yields_andThen ..).2 (yields_of_forall _ (fun _ _ => ⟨rfl, fun _ => Or.inr ha⟩) hsub)
  | following f => exact (yields_andThen ..).2 (yields_of_forall _ (fun _ _ => ⟨rfl, fun _ => Or.inl rfl⟩) hsub)
  | subscribing =>
    simp only [resume]
    split
    · trivial
    · cases reply with
      | failed cause => trivial
      | granted =>
        refine (yields_andThen ..).2 ((Listener.serve_busy _ _ _ _).mono (fun _ l hl => ⟨rfl, fun h => ?_⟩)
          fun sh r _ => (finish_ends sh r).never_waits)
        rw [isGuarded, hl.2] at h
        cases h
  | listening feed l =>
    exact (yields_andThen ..).2 ((Listener.resume_filling token feed l).mono (fun _ _ h => ⟨rfl, h⟩)
      fun sh r _ => (finish_ends sh r).never_waits)

namespace Work

/-- Work that is wrapped so that it is neither opening nor guarded. -/
theorem apart_guarded {σ ρ : Type} (t : Shared × Turn σ ρ) {w : Work} {wrap : σ → Work} {next : Shared → ρ → Result}
    (ho : ∀ s, (wrap s).isOpening = false) (hg : ∀ s, (wrap s).isGuarded → w.isGuarded ∨ w.attempts env sh reply)
    (hn : ∀ sh x, Yields (next sh x) (fun _ _ => False) (fun _ _ => True)) :
    Yields (andThen t wrap next)
      (fun sh' w' => (w'.isOpening → w.isOpening ∧ sh.Quiet sh' 0) ∧ (w'.isGuarded → w.isGuarded ∨ w.attempts env sh reply))
      (fun _ _ => True) :=
  (yields_andThen ..).2 (yields_of_forall t (fun _ s => ⟨fun h => absurd h (by rw [ho s]; exact Bool.false_ne_true), hg s⟩)
    fun sh x => (hn sh x).never_waits)

theorem start_guarded (r : Request) :
    Yields (start env sh r)
      (fun sh' w' => (w'.isOpening → (asked r).isOpening ∧ sh.Quiet sh' 0) ∧
        (w'.isGuarded → (asked r).isGuarded ∨ (asked r).attempts env sh reply))
      (fun _ _ => True) := by
  cases r with
  | catchUp token => exact ⟨fun _ => ⟨rfl, .ask env sh⟩, fun h => absurd h Bool.false_ne_true⟩
  | head guard token event =>
    have hq : Yields (HeadUpdate.start env event sh) (fun sh' _ => sh.Quiet sh' 0) (fun sh' _ => sh.Quiet sh' 0) :=
      yields_of_fst (P := fun sh' => sh.Quiet sh' 0) (HeadUpdate.start_quiet env event sh)
    refine (yields_andThen ..).2 ((hq.and (HeadUpdate.start_busy event sh)).mono (fun _ u hu => ⟨fun _ => ⟨rfl, hu.1⟩, fun h => ?_⟩)
      fun _ _ _ => trivial)
    rw [isGuarded, hu.2.2, Bool.and_false] at h
    cases h
  | startup => exact ⟨fun _ => ⟨rfl, .ask env sh⟩, fun h => absurd h Bool.false_ne_true⟩
  | latestEpoch | readRecord | stage _ _ => exact ⟨fun h => absurd h Bool.false_ne_true, fun h => absurd h Bool.false_ne_true⟩
  | waitForFatal =>
    simp only [start, lookForFatal]
    split
    · trivial
    · exact ⟨fun h => absurd h Bool.false_ne_true, fun h => absurd h Bool.false_ne_true⟩
  | runnerStart root =>
    show Yields (andThen (Supervisor.start root sh) (.runner root) (ending .stopped)) _ _
    exact apart_guarded _ (fun _ => rfl) (fun _ h => absurd h Bool.false_ne_true) fun _ _ => trivial
  | range token resume target => exact apart_guarded _ (fun _ => rfl) (fun _ _ => Or.inr rfl) fun _ _ => trivial
  | _ => exact apart_guarded _ (fun _ => rfl) (fun _ h => absurd h Bool.false_ne_true) fun _ _ => trivial

/-- No turn leads behind the gate but an attempt, and a task that has only asked for the
    record so far has been quiet. -/
theorem resume_guarded (w : Work) :
    Yields (w.resume env sh reply)
      (fun sh' w' => (w'.isOpening → w.isOpening ∧ sh.Quiet sh' 0) ∧ (w'.isGuarded → w.isGuarded ∨ w.attempts env sh reply))
      (fun _ _ => True) := by
  cases w with
  | asked r => exact start_guarded r
  | catchUp token c =>
    cases c with
    | reading =>
      cases hr : sh.readRecord env reply with
      | error cause => simp only [resume, CatchUp.resume, hr]; trivial
      | ok record =>
        have ha : (Work.catchUp token .reading).attempts env sh reply := by simp [attempts, hr, Except.isOk, Except.toBool]
        simp only [resume, CatchUp.resume, hr, CatchUp.follow]
        split
        · trivial
        · refine (yields_andThen ..).2 ((yields_andThen ..).2 (yields_of_forall _ (fun _ _ => ?_) fun _ _ => trivial))
          exact ⟨fun h => absurd h Bool.false_ne_true, fun _ => Or.inr ha⟩
    | following f =>
      refine (yields_andThen ..).2 ((yields_andThen ..).2 (yields_of_forall _ (fun _ _ => ?_) fun _ _ => trivial))
      exact ⟨fun h => absurd h Bool.false_ne_true, fun _ => Or.inl rfl⟩
  | range token r => exact apart_guarded _ (fun _ => rfl) (fun _ _ => Or.inl rfl) fun _ _ => trivial
  | head guard token u =>
    refine (yields_andThen ..).2 ((HeadUpdate.resume_filling guard token u).mono (fun _ u' hu => ⟨fun h => ?_, fun h => ?_⟩)
      fun _ _ _ => trivial)
    · rw [isOpening, hu.1] at h
      cases h
    · cases guard with
      | parts => cases h
      | service => exact hu.2 h
  | latestEpoch | readRecord => trivial
  | waitForFatal =>
    simp only [resume, lookForFatal]
    split
    · trivial
    · exact ⟨fun h => absurd h Bool.false_ne_true, fun h => absurd h Bool.false_ne_true⟩
  | startup s =>
    refine (yields_andThen ..).2 ((Startup.resume_guarded sh.runToken s).mono (fun _ s' hs => ⟨fun h => ?_, hs.2⟩)
      fun _ _ _ => trivial)
    rw [hs.1] at h
    cases h
  | _ => exact apart_guarded _ (fun _ => rfl) (fun _ h => absurd h Bool.false_ne_true) fun _ _ => trivial

end Work

end Turns

end CommitteeSync
