/-
  CommitteeSync.Proofs.SingleFlight — the service's gate and the passes behind it.

  A task is guarded while it runs a pass that the service's gate admitted, and direct while
  it writes the epoch of a head event without asking the gate. A turn enters or leaves the
  gate for its own task only: after it the gate is held if it was held by another task
  before, or if the turn ended in a guarded pass, and never by both (`Work.resume_admission`).
  So in every reachable state at most one task is guarded, and then the gate is held
  (`System.singleFlight_run`).
-/

import CommitteeSync.Proofs.Interleaving

namespace CommitteeSync

open Turn

variable (env : Setup)

/-! ## The gate -/

namespace Shared

/-- Whether a section behind the service's gate is open. -/
def busy (sh : Shared) : Bool := sh.serviceGate.held

theorem busy_of_surroundings {sh sh' : Shared} (h : sh'.surroundings = sh.surroundings) : sh'.busy = sh.busy :=
  congrArg (fun s : Surroundings => s.serviceGate.held) h

@[simp] theorem busy_dropSender (sh : Shared) : sh.dropSender.busy = sh.busy :=
  dropSender_view busy (fun _ _ _ => rfl) sh

@[simp] theorem busy_openFeed (sh : Shared) : sh.openFeed.1.busy = sh.busy := busy_dropSender sh

@[simp] theorem busy_send (sh : Shared) (capacity : Nat) (event : HeadEvent) :
    (sh.send capacity event).1.busy = sh.busy :=
  send_view busy (fun _ _ _ => rfl) sh capacity event

@[simp] theorem busy_fail (sh : Shared) (context : String) (cause : Cause) : (sh.fail context cause).busy = sh.busy := by
  simp only [fail]
  by_cases h : sh.background.handler.isTriggered
  · rw [if_pos h]; rfl
  · rw [if_neg h]; rfl

theorem aloof_busy : Aloof Shared.busy := ⟨fun _ _ _ => rfl, fun _ _ => rfl, fun _ _ _ => rfl⟩

/-- Entry through the service's gate: where it is granted the gate was free and is held now. -/
theorem enter_service_true {sh sh' : Shared} {denial : Event} (h : sh.enter .service denial = (sh', true)) :
    sh.busy = false ∧ sh'.busy = true := by
  unfold enter gate Gate.enter? at h
  by_cases hb : sh.serviceGate.held
  · simp [hb] at h
  · simp only [hb, Bool.false_eq_true, if_false, Prod.mk.injEq, and_true] at h
    rw [← h]
    exact ⟨by simpa [busy] using hb, rfl⟩

theorem enter_service_false {sh sh' : Shared} {denial : Event} (h : sh.enter .service denial = (sh', false)) :
    sh'.busy = sh.busy := by
  unfold enter at h
  split at h
  · cases h
  · cases h; rfl

theorem enter_parts (sh : Shared) (denial : Event) : (sh.enter .parts denial).1.busy = sh.busy := by
  unfold enter; split <;> rfl

end Shared

/-- How a turn that found its task guarded or not (`before`) leaves the gate and the task. -/
structure Admission (sh : Shared) (before : Bool) (sh' : Shared) (after : Bool) : Prop where
  busy : sh'.busy = (sh.busy && !before || after)
  alone : after = true → (sh.busy && !before) = false

namespace Admission

variable {sh sh' sh'' : Shared} {before after : Bool}

theorem outside (h : sh'.busy = sh.busy) : Admission sh false sh' false := ⟨by simp [h], fun h => nomatch h⟩

theorem apart (h : sh'.busy = sh.busy) (hb : before = false) (ha : after = false) : Admission sh before sh' after := by
  rw [hb, ha]
  exact outside h

theorem stays (h : sh'.busy = sh.busy) (hb : sh.busy = true) : Admission sh true sh' true := ⟨by simp [h, hb], fun _ => by simp⟩

theorem enters (hf : sh.busy = false) (hb : sh'.busy = true) : Admission sh false sh' true :=
  ⟨by simp [hb], fun _ => by simp [hf]⟩

theorem leaves (h : sh'.busy = false) : Admission sh true sh' false := ⟨by simp [h], fun h => nomatch h⟩

theorem enters_leaves (hf : sh.busy = false) (h : sh'.busy = false) : Admission sh false sh' false := outside (h.trans hf.symm)

theorem keep (h : Admission sh before sh' after) (hs : sh''.busy = sh'.busy) : Admission sh before sh'' after :=
  ⟨hs.trans h.busy, h.alone⟩

end Admission

/-! ## Guarded and direct -/

def HeadUpdate.isFilling : HeadUpdate → Bool
  | .filling _ _ => true
  | _ => false

def HeadUpdate.isDirect : HeadUpdate → Bool
  | .direct _ _ => true
  | _ => false

def Listener.isFilling : Listener → Bool
  | .idle => false
  | .handling u => u.isFilling

def Listener.isDirect : Listener → Bool
  | .idle => false
  | .handling u => u.isDirect

def CatchUp.isGuarded : CatchUp → Bool
  | .reading => false
  | .following _ => true

def Startup.isGuarded : Startup → Bool
  | .reading | .subscribing => false
  | .following _ => true
  | .listening _ l => l.isFilling

def Startup.isDirect : Startup → Bool
  | .listening _ l => l.isDirect
  | _ => false

/-- The pass that a head event fills a gap with is guarded by the gate of who handles it. -/
def Guard.isService : Guard → Bool
  | .service => true
  | .parts => false

namespace Work

/-- The task runs a pass that the service's gate admitted. -/
def isGuarded : Work → Bool
  | .catchUp _ c => c.isGuarded
  | .range _ _ => true
  | .head guard _ u => guard.isService && u.isFilling
  | .startup s => s.isGuarded
  | _ => false

/-- The task writes the epoch of a head event without having asked a gate. -/
def isDirect : Work → Bool
  | .head _ _ u => u.isDirect
  | .listen _ _ l => l.isDirect
  | .startup s => s.isDirect
  | _ => false

end Work

/-! ## Turns at the gate -/

section Turns

variable {env} {token : Token} {sh : Shared} {reply : Reply}

theorem yields_busy {σ ρ : Type} {t : Shared × Turn σ ρ} {c : Option (Epoch × Transaction)} (h : sh.Writes t.1 c) :
    Yields t (fun sh' _ => sh'.busy = sh.busy) (fun sh' _ => sh'.busy = sh.busy) :=
  yields_of_fst (P := fun sh' => sh'.busy = sh.busy) (Shared.busy_of_surroundings h.surroundings)

theorem HeadUpdate.start_busy (event : HeadEvent) (sh : Shared) :
    Yields (start env event sh) (fun sh' u => sh'.busy = sh.busy ∧ u.isFilling = false) (fun sh' _ => sh'.busy = sh.busy) := by
  simp only [start]
  split
  · exact ⟨rfl, rfl⟩
  · rfl

theorem HeadUpdate.fill_admission (guard : Guard) (resume epoch : Epoch) :
    Yields (fill guard token resume epoch sh)
      (fun sh' u => Admission sh false sh' (guard.isService && u.isFilling)) (fun sh' _ => Admission sh false sh' false) := by
  unfold fill
  cases guard with
  | parts =>
    have he := Shared.enter_parts sh (.headDeferred resume epoch)
    split
    · rename_i h
      rw [h] at he
      exact .outside he
    · rename_i sh' h
      rw [h] at he
      have hp := yields_busy (Pass.start_writes token resume epoch (sh'.log (.headFillsGap resume epoch)))
      exact (yields_andThen ..).2 (hp.mono (fun _ _ hb => .outside (hb.trans he)) fun _ _ hb => .outside (hb.trans he))
  | service =>
    split
    · rename_i h
      exact .outside (Shared.enter_service_false h)
    · rename_i sh' h
      obtain ⟨hf, hb⟩ := Shared.enter_service_true h
      have hp := yields_busy (Pass.start_writes token resume epoch (sh'.log (.headFillsGap resume epoch)))
      refine (yields_andThen ..).2 (hp.mono (fun _ _ hs => .enters hf (hs.trans hb)) fun _ _ _ => ?_)
      exact .enters_leaves hf rfl

theorem HeadUpdate.dispatch_admission (guard : Guard) (epoch : Epoch) (r : Except Cause Record) :
    Yields (dispatch guard token epoch sh r)
      (fun sh' u => Admission sh false sh' (guard.isService && u.isFilling)) (fun sh' _ => Admission sh false sh' false) := by
  cases r with
  | error cause => exact .outside rfl
  | ok record =>
    simp only [dispatch]
    split
    · exact .outside rfl
    · split
      · exact fill_admission guard _ epoch
      · have hw := yields_busy (EpochWrite.start_writes token epoch sh)
        refine (yields_andThen ..).2 (hw.mono (fun _ _ hb => .apart hb rfl (Bool.and_false _)) fun _ r hb => ?_)
        cases r <;> exact .outside hb

theorem HeadUpdate.resume_admission (guard : Guard) {u : HeadUpdate} (hb : (guard.isService && u.isFilling) = true → sh.busy = true) :
    Yields (u.resume env guard token sh reply)
      (fun sh' u' => Admission sh (guard.isService && u.isFilling) sh' (guard.isService && u'.isFilling))
      (fun sh' _ => Admission sh (guard.isService && u.isFilling) sh' false) := by
  cases u with
  | reading epoch =>
    rw [show (reading epoch).isFilling = false from rfl, Bool.and_false]
    exact dispatch_admission guard epoch _
  | direct epoch write =>
    have hw := yields_busy (EpochWrite.resume_writes env token epoch sh write reply)
    refine (yields_andThen ..).2 (hw.mono (fun _ _ hs => .apart hs (Bool.and_false _) (Bool.and_false _)) fun _ r hs => ?_)
    cases r <;> exact .apart hs (Bool.and_false _) rfl
  | filling epoch pass =>
    have hp := yields_busy (Pass.resume_writes env token sh pass reply)
    cases guard with
    | parts => exact (yields_andThen ..).2 (hp.mono (fun _ _ hs => .outside hs) fun _ _ hs => .outside hs)
    | service => exact (yields_andThen ..).2 (hp.mono (fun _ _ hs => .stays hs (hb rfl)) fun _ _ _ => .leaves rfl)

theorem Listener.serve_busy (feed : Nat) (sh : Shared) (lag : Nat) (queue : List HeadEvent) :
    Yields (serve env token feed sh lag queue) (fun sh' l => sh'.busy = sh.busy ∧ l.isFilling = false)
      (fun sh' _ => sh'.busy = sh.busy) := by
  refine serve_yields (R := fun sh' => sh'.busy = sh.busy) (fun sh' event rest hb => ?_) (fun _ hb _ => ⟨hb, rfl⟩)
    (fun _ _ hb => hb) rfl lag queue
  exact (HeadUpdate.start_busy event _).mono (fun _ _ hu => ⟨hu.1.trans hb, hu.2⟩) fun _ _ hs => hs.trans hb

theorem Listener.resume_admission (guard : Guard) (feed : Nat) {l : Listener}
    (hb : (guard.isService && l.isFilling) = true → sh.busy = true) :
    Yields (l.resume env guard token feed sh reply)
      (fun sh' l' => Admission sh (guard.isService && l.isFilling) sh' (guard.isService && l'.isFilling))
      (fun sh' _ => Admission sh (guard.isService && l.isFilling) sh' false) := by
  cases l with
  | idle =>
    refine (serve_busy feed sh _ _).mono (fun _ l hl => ?_) fun _ _ hs => .apart hs (Bool.and_false _) rfl
    exact .apart hl.1 (Bool.and_false _) (by rw [hl.2, Bool.and_false])
  | handling u =>
    refine (yields_andThen ..).2 ((HeadUpdate.resume_admission guard hb).mono_ends fun sh' _ h => ?_)
    refine (serve_busy feed sh' _ _).mono (fun _ l hl => ?_) fun _ _ hs => h.keep hs
    rw [hl.2, Bool.and_false]
    exact h.keep hl.1

theorem CatchUp.resume_admission {c : CatchUp} (hb : c.isGuarded = true → sh.busy = true) :
    Yields (c.resume env token sh reply) (fun sh' c' => Admission sh c.isGuarded sh' c'.isGuarded)
      (fun sh' _ => Admission sh c.isGuarded sh' false) := by
  cases c with
  | reading =>
    simp only [resume]
    cases sh.readRecord env reply with
    | error cause => exact .outside rfl
    | ok record =>
      simp only [follow]
      split
      · rename_i h
        exact .outside (Shared.enter_service_false h)
      · rename_i sh' h
        obtain ⟨hf, hb'⟩ := Shared.enter_service_true h
        have hs := yields_busy (Follow.start_writes token (record.resumePoint none) sh')
        exact (yields_andThen ..).2 (hs.mono (fun _ _ hs => .enters hf (hs.trans hb')) fun _ _ _ => .enters_leaves hf rfl)
  | following f =>
    have hs := yields_busy (Follow.resume_writes env token sh f reply)
    exact (yields_andThen ..).2 (hs.mono (fun _ _ hs => .stays hs (hb rfl)) fun _ _ _ => .leaves rfl)

theorem RangePass.start_admission (resume target : Epoch) :
    Yields (start token resume target sh) (fun sh' _ => Admission sh false sh' true)
      (fun sh' _ => Admission sh false sh' false) := by
  unfold start
  split
  · rename_i h
    exact .outside (Shared.enter_service_false h)
  · rename_i sh' h
    obtain ⟨hf, hb⟩ := Shared.enter_service_true h
    have hs := yields_busy (Pass.start_writes token resume target sh')
    exact (yields_andThen ..).2 (hs.mono (fun _ _ hs => .enters hf (hs.trans hb)) fun _ _ _ => .enters_leaves hf rfl)

theorem RangePass.resume_admission {r : RangePass} (hb : sh.busy = true) :
    Yields (r.resume env token sh reply) (fun sh' _ => Admission sh true sh' true)
      (fun sh' _ => Admission sh true sh' false) := by
  have hs := yields_busy (Pass.resume_writes env token sh r.pass reply)
  exact (yields_andThen ..).2 (hs.mono (fun _ _ hs => .stays hs hb) fun _ _ _ => .leaves rfl)

theorem Startup.finish_admission (exit : ListenerExit) {before : Bool} {sh₀ : Shared} (sh : Shared)
    (h : Admission sh₀ before sh false) :
    Yields (finish sh exit) (fun sh' s => Admission sh₀ before sh' s.isGuarded)
      (fun sh' _ => Admission sh₀ before sh' false) := by
  cases exit with
  | shutdown => exact h
  | streamClosed => exact h.keep (Shared.busy_fail sh _ _)

theorem Startup.subscribe_leaves (report : Report) {before : Bool} {sh₀ : Shared} (sh : Shared)
    (h : ∀ sh' : Shared, sh'.busy = false → Admission sh₀ before sh' false) :
    Yields (subscribe token sh report) (fun sh' s => Admission sh₀ before sh' s.isGuarded)
      (fun sh' _ => Admission sh₀ before sh' false) := by
  simp only [subscribe]
  split <;> exact h _ rfl

theorem Startup.resume_admission {s : Startup} (hb : s.isGuarded = true → sh.busy = true) :
    Yields (s.resume env token sh reply) (fun sh' s' => Admission sh s.isGuarded sh' s'.isGuarded)
      (fun sh' _ => Admission sh s.isGuarded sh' false) := by
  cases s with
  | reading =>
    simp only [resume]
    cases sh.readRecord env reply with
    | error cause => exact .outside (Shared.busy_fail sh _ _)
    | ok record =>
      simp only [catchUp]
      split
      · rename_i h
        have hs := Shared.enter_service_false h
        exact .outside hs
      · rename_i sh' h
        obtain ⟨hf, hb'⟩ := Shared.enter_service_true h
        have hs := yields_busy (Follow.start_writes token (record.resumePoint env.startOverride) sh')
        exact (yields_andThen ..).2 (hs.mono (fun _ _ hs => .enters hf (hs.trans hb'))
          fun sh'' r _ => subscribe_leaves r sh'' fun _ h => .enters_leaves hf h)
  | following f =>
    have hs := yields_busy (Follow.resume_writes env token sh f reply)
    exact (yields_andThen ..).2 (hs.mono (fun _ _ hs => .stays hs (hb rfl))
      fun sh'' r _ => subscribe_leaves r sh'' fun _ h => .leaves h)
  | subscribing =>
    simp only [resume]
    split
    · exact .outside rfl
    · cases reply with
      | failed cause => exact .outside (Shared.busy_fail sh _ _)
      | granted =>
        refine (yields_andThen ..).2 ((Listener.serve_busy _ _ _ _).mono (fun _ l hl => ?_) fun sh' exit hs => ?_)
        · exact .apart (hl.1.trans (Shared.busy_openFeed sh)) rfl hl.2
        · exact finish_admission exit sh' (.outside (hs.trans (Shared.busy_openFeed sh)))
  | listening feed l =>
    exact (yields_andThen ..).2 ((Listener.resume_admission .service feed hb).mono_ends
      fun sh' exit h => finish_admission exit sh' h)

end Turns

/-! ## Any task -/

namespace Work

variable {env} {sh : Shared} {reply : Reply}

theorem aside_admission {σ ρ : Type} {t : Shared × Turn σ ρ} {wrap : σ → Work} {next : Shared → ρ → Result}
    (h : t.1.busy = sh.busy) (hw : ∀ s, (wrap s).isGuarded = false)
    (hn : ∀ sh x, Yields (next sh x) (fun _ _ => False) (fun sh' _ => sh'.busy = sh.busy)) :
    Yields (andThen t wrap next) (fun sh' w => Admission sh false sh' w.isGuarded) (fun sh' _ => Admission sh false sh' false) := by
  have hs := yields_of_fst (P := fun sh' => sh'.busy = sh.busy) h
  refine (yields_andThen ..).2 (hs.mono (fun _ s hs => .apart hs rfl (hw s)) fun sh' x hs => ?_)
  exact (hn sh' x).mono (fun _ _ h => h.elim) fun _ _ h => .outside (h.trans hs)

theorem start_admission (sh : Shared) (r : Request) :
    Yields (start env sh r) (fun sh' w => Admission sh false sh' w.isGuarded) (fun sh' _ => Admission sh false sh' false) := by
  cases r with
  | catchUp token => exact .outside rfl
  | range token resume target => exact (yields_andThen ..).2 (RangePass.start_admission resume target)
  | head guard token event =>
    refine (yields_andThen ..).2 ((HeadUpdate.start_busy event sh).mono (fun _ u hu => ?_) fun _ _ hs => .outside hs)
    exact .apart hu.1 rfl (by rw [isGuarded, hu.2, Bool.and_false])
  | latestEpoch => exact .outside rfl
  | readRecord => exact .outside rfl
  | writeEpoch token epoch =>
    exact aside_admission (Shared.busy_of_surroundings (EpochWrite.start_writes token epoch sh).surroundings)
      (fun _ => rfl) fun _ _ => rfl
  | stage epoch ending => exact .outside rfl
  | pass token resume target =>
    exact aside_admission (Shared.busy_of_surroundings (Pass.start_writes token resume target sh).surroundings)
      (fun _ => rfl) fun _ _ => rfl
  | listen token feed =>
    exact (yields_andThen ..).2 ((Listener.serve_busy feed _ _ _).mono (fun _ _ hl => .outside hl.1) fun _ _ hs => .outside hs)
  | waitForFatal => simp only [start, lookForFatal]; split <;> exact .outside rfl
  | stop => exact aside_admission (Stopping.start_view Shared.aloof_busy sh) (fun _ => rfl) fun _ _ => rfl
  | runnerStart root =>
    show Yields (andThen (Supervisor.start root sh) (.runner root) (ending .stopped)) _ _
    exact aside_admission (Supervisor.launch_view Shared.aloof_busy root sh) (fun _ => rfl) fun _ _ => rfl
  | runnerStop root => exact aside_admission (Supervisor.stop_view Shared.aloof_busy root sh) (fun _ => rfl) fun _ _ => rfl
  | runnerRun root => exact aside_admission (Supervisor.run_view env Shared.aloof_busy root sh) (fun _ => rfl) fun _ _ => rfl
  | reporter => exact aside_admission (Reporter.resume_view env Shared.aloof_busy _ sh _) (fun _ => rfl) fun _ _ => rfl
  | startup => exact .outside rfl

/-- A turn passes the gate for its own task only. -/
theorem resume_admission {w : Work} (hb : w.isGuarded = true → sh.busy = true) :
    Yields (w.resume env sh reply) (fun sh' w' => Admission sh w.isGuarded sh' w'.isGuarded)
      (fun sh' _ => Admission sh w.isGuarded sh' false) := by
  cases w with
  | asked r => exact start_admission sh r
  | catchUp token c => exact (yields_andThen ..).2 (CatchUp.resume_admission hb)
  | range token r => exact (yields_andThen ..).2 (RangePass.resume_admission (hb rfl))
  | head guard token u => exact (yields_andThen ..).2 (HeadUpdate.resume_admission guard hb)
  | latestEpoch => exact .outside rfl
  | readRecord => exact .outside rfl
  | writeEpoch token epoch w =>
    exact aside_admission (Shared.busy_of_surroundings (EpochWrite.resume_writes env token epoch sh w reply).surroundings)
      (fun _ => rfl) fun _ _ => rfl
  | stage epoch ending s =>
    exact aside_admission (Shared.busy_of_surroundings (Staging.resume_writes env epoch sh s reply).surroundings)
      (fun _ => rfl) fun _ _ => rfl
  | pass token p =>
    exact aside_admission (Shared.busy_of_surroundings (Pass.resume_writes env token sh p reply).surroundings)
      (fun _ => rfl) fun _ _ => rfl
  | listen token feed l => exact (yields_andThen ..).2 (Listener.resume_admission .parts feed fun h => nomatch h)
  | waitForFatal => simp only [resume, lookForFatal]; split <;> exact .outside rfl
  | stop s => exact aside_admission (Stopping.resume_view Shared.aloof_busy sh s) (fun _ => rfl) fun _ _ => rfl
  | runner root s => exact aside_admission (Supervisor.resume_view env Shared.aloof_busy root sh s) (fun _ => rfl) fun _ _ => rfl
  | reporter r => exact aside_admission (Reporter.resume_view env Shared.aloof_busy _ sh r) (fun _ => rfl) fun _ _ => rfl
  | startup s =>
    exact (yields_andThen ..).2 ((Startup.resume_admission hb).mono_ends fun _ _ h => h.keep rfl)

end Work

/-! ## Along a run -/

namespace System

def guarded (s : System) (id : Nat) : Bool := (s.work? id).any Work.isGuarded

def direct (s : System) (id : Nat) : Bool := (s.work? id).any Work.isDirect

theorem guarded_iff {s : System} {id : Nat} : s.guarded id ↔ ∃ w, s.work? id = some w ∧ w.isGuarded := by
  rw [guarded, Option.any_eq_true]

/-- At most one task is guarded, and then the gate is held. -/
structure SingleFlight (s : System) : Prop where
  busy : ∀ id, s.guarded id → s.shared.busy
  one : ∀ id id', s.guarded id → s.guarded id' → id = id'

variable {s : System} {a : Action} {id : Nat}

/-- A guarded task that had no turn was guarded before. -/
theorem guarded_kept (h : (act env s a).guarded id) (ha : ∀ reply, a ≠ .turn id reply) : s.guarded id := by
  obtain ⟨w', hw', hg⟩ := guarded_iff.1 h
  cases came env hw' with
  | turn reply w hturn => exact absurd hturn (ha reply)
  | kept _ hk => exact guarded_iff.2 ⟨w', hk, hg⟩
  | asked r hr hw => rw [hw] at hg; cases hg

theorem act_busy (ha : ∀ id reply, a ≠ .turn id reply) : (act env s a).shared.busy = s.shared.busy := by
  cases a with
  | request r => rfl
  | launch root => simp only [act]; split <;> rfl
  | turn id reply => exact absurd rfl (ha id reply)
  | change c =>
    cases c with
    | send event => exact Shared.busy_send _ _ event
    | endStream => exact Shared.busy_dropSender _
    | _ => rfl

theorem turn_admission (reply : Reply) (hb : s.guarded id → s.shared.busy) :
    Admission s.shared (s.guarded id) (act env s (.turn id reply)).shared ((act env s (.turn id reply)).guarded id) := by
  cases hw : s.work? id with
  | none =>
    have hg : s.guarded id = false := by simp [guarded, hw]
    rw [turn_of_none env reply hw]
    exact .apart rfl hg hg
  | some w =>
    have hg : s.guarded id = w.isGuarded := by simp [guarded, hw]
    have hy : Yields (w.resume env s.shared reply) _ _ := Work.resume_admission fun h => hb (hg.trans h)
    rw [hg, shared_turn env reply hw, guarded, work?_turn env reply hw]
    rcases hr : w.resume env s.shared reply with ⟨sh', w' | o⟩
    · rw [hr] at hy
      exact hy
    · rw [hr] at hy
      exact hy

/-- No action lets a second task through the gate. -/
theorem SingleFlight.act (h : SingleFlight s) (a : Action) : SingleFlight (act env s a) := by
  by_cases ha : ∃ id reply, a = .turn id reply
  · obtain ⟨id₀, reply, rfl⟩ := ha
    have hadm := turn_admission env reply (h.busy id₀)
    -- A task other than the one that had its turn held the gate before, so it still does.
    have hother : ∀ id, id ≠ id₀ → (System.act env s (.turn id₀ reply)).guarded id →
        s.guarded id ∧ s.guarded id₀ = false := by
      intro id hne hg
      have hg' := guarded_kept env hg fun r hr => hne (by cases hr; rfl)
      refine ⟨hg', ?_⟩
      cases hg₀ : s.guarded id₀ with
      | false => rfl
      | true => exact absurd (h.one id id₀ hg' hg₀) hne
    have hclosed : ∀ id, id ≠ id₀ → (System.act env s (.turn id₀ reply)).guarded id →
        (System.act env s (.turn id₀ reply)).shared.busy = true ∧ (System.act env s (.turn id₀ reply)).guarded id₀ = false := by
      intro id hne hg
      obtain ⟨hg', hg₀⟩ := hother id hne hg
      have hbusy : (s.shared.busy && !s.guarded id₀) = true := by simp [h.busy id hg', hg₀]
      refine ⟨by rw [hadm.busy, hbusy]; rfl, ?_⟩
      cases hg₁ : (System.act env s (.turn id₀ reply)).guarded id₀ with
      | false => rfl
      | true => exact absurd (hadm.alone hg₁) (by simp [hbusy])
    constructor
    · intro id hg
      by_cases hid : id = id₀
      · rw [hid] at hg
        rw [hadm.busy, hg, Bool.or_true]
      · exact (hclosed id hid hg).1
    · intro id id' hg hg'
      by_cases hid : id = id₀
      · by_cases hid' : id' = id₀
        · rw [hid, hid']
        · have := (hclosed id' hid' hg').2
          rw [hid, this] at hg
          cases hg
      · by_cases hid' : id' = id₀
        · have := (hclosed id hid hg).2
          rw [hid', this] at hg'
          cases hg'
        · exact h.one id id' (hother id hid hg).1 (hother id' hid' hg').1
  · have hne : ∀ id reply, a ≠ .turn id reply := fun id reply he => ha ⟨id, reply, he⟩
    refine ⟨fun id hg => ?_, fun id id' hg hg' => ?_⟩
    · rw [act_busy env hne]
      exact h.busy id (guarded_kept env hg (hne id))
    · exact h.one id id' (guarded_kept env hg (hne id)) (guarded_kept env hg' (hne id'))

theorem singleFlight_run {s₀ : System} (hs : s₀.Idle) (acts : List Action) : SingleFlight (run env s₀ acts) := by
  induction acts using List.reverseRecOn with
  | nil =>
    have hg : ∀ id, s₀.guarded id = false := fun id => by simp [guarded, hs.work?]
    refine ⟨fun id h => ?_, fun id id' h => ?_⟩ <;> rw [run_nil, hg] at h <;> cases h
  | append_singleton acts a ih =>
    rw [run_snoc]
    exact ih.act env a

end System

end CommitteeSync
