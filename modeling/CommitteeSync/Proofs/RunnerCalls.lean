/-
  CommitteeSync.Proofs.RunnerCalls — what is made of the background run by starting and
  stopping it.

  A turn of a supervisor, or a launch, makes start and stop calls on the run
  (`System.runCalls`). From the calls made so far one can tell whether the run is still to be
  started, or goes on with its handle held, or has been stopped (`Phase`).

  Proved:
  (1) A turn changes the background run by its calls and in no other way, but for the handler
      of fatal errors and the ends of the run's own tasks (`Work.resume_flags`,
      `Work.startup_flags`).
  (2) So after any run of actions the state of the run's handle is that of the phase which the
      calls have brought it to (`System.phase_run`).
  (3) Startup is noted as ended only by a startup that ends, and stays so once the run has
      been launched (`System.startupEnded_act`, `System.startupEnded_stays`).
-/

import CommitteeSync.Proofs.StartupCourse

namespace CommitteeSync

open Turn

variable (env : Setup)

/-! ## Calls on the background run -/

inductive RunCall where
  | start (root : Token)
  | stop
  deriving DecidableEq, Repr

/-- The background run after a call on it. -/
def Background.after (b : Background) : RunCall → Background
  | .start root => if b.held || b.launched then b else ⟨Handler.new root (Shared.childOf root), true, true, false, false⟩
  | .stop => { b with held := false }

/-- What the calls on it leave of a background run. -/
inductive Phase where
  /-- Not started yet. -/
  | fresh
  /-- Started, and its handle is held. -/
  | running
  | stopped
  deriving DecidableEq, Repr

namespace Phase

def after : Phase → RunCall → Phase
  | .fresh, .start _ => .running
  | .running, .stop => .stopped
  | p, _ => p

def launched : Phase → Bool
  | .fresh => false
  | .running | .stopped => true

def held : Phase → Bool
  | .running => true
  | .fresh | .stopped => false

end Phase

namespace Background

variable {b : Background} {p : Phase}

/-- The background run is in this phase. -/
structure At (b : Background) (p : Phase) : Prop where
  launched : b.launched = p.launched
  held : b.held = p.held

theorem after_at (h : b.At p) (c : RunCall) : (b.after c).At (p.after c) := by
  obtain ⟨hl, hh⟩ := h
  cases c with
  | start root =>
    simp only [after, hl, hh]
    cases p with
    | fresh => exact ⟨rfl, rfl⟩
    | running => exact ⟨hl, hh⟩
    | stopped => exact ⟨hl, hh⟩
  | stop =>
    cases p with
    | fresh => exact ⟨hl, rfl⟩
    | running => exact ⟨hl, rfl⟩
    | stopped => exact ⟨hl, rfl⟩

theorem foldl_at (calls : List RunCall) (h : b.At p) : (calls.foldl after b).At (calls.foldl Phase.after p) := by
  induction calls generalizing b p with
  | nil => exact h
  | cons c calls ih => exact ih (after_at h c)

/-- No call notes that startup has ended, and none forgets it of a run that was launched. -/
theorem after_startupEnded (b : Background) (c : RunCall) :
    ((b.after c).startupEnded → b.startupEnded) ∧
    (b.launched → (b.after c).launched ∧ (b.after c).startupEnded = b.startupEnded) := by
  cases c with
  | start root =>
    simp only [after]
    by_cases h : (b.held || b.launched) = true
    · rw [if_pos h]
      exact ⟨fun he => he, fun hl => ⟨hl, rfl⟩⟩
    · rw [if_neg h]
      exact ⟨nofun, fun hl => absurd (Bool.or_eq_true_iff.2 (Or.inr hl)) h⟩
  | stop => exact ⟨fun he => he, fun hl => ⟨hl, rfl⟩⟩

theorem foldl_startupEnded (calls : List RunCall) (b : Background) :
    ((calls.foldl after b).startupEnded → b.startupEnded) ∧
    (b.launched → (calls.foldl after b).startupEnded = b.startupEnded) := by
  induction calls generalizing b with
  | nil => exact ⟨fun he => he, fun _ => rfl⟩
  | cons c calls ih =>
    obtain ⟨hback, hstays⟩ := ih (b.after c)
    obtain ⟨hback', hstays'⟩ := after_startupEnded b c
    refine ⟨fun he => hback' (hback he), fun hl => ?_⟩
    obtain ⟨hl', he⟩ := hstays' hl
    exact (hstays hl').trans he

end Background

/-! ## The calls of a turn -/

/-- Whether a runner that watches the run has a reason to stop it. -/
def Shared.quits (sh : Shared) (root : Token) : Bool := sh.interrupt || sh.isCancelled root

/-- The calls that the next turn makes on the background run. -/
def Work.runCalls (sh : Shared) : Work → List RunCall
  | .asked .stop => [.stop]
  | .asked (.runnerStart root) => [.start root]
  | .asked (.runnerStop _) => [.stop]
  | .asked (.runnerRun root) => .start root :: if sh.quits root then [.stop] else []
  | .runner root .running => if sh.quits root then [.stop] else []
  | _ => []

/-- What is known of the run and its startup, but for the handler. -/
def Background.flags (b : Background) : Bool × Bool × Bool := (b.launched, b.held, b.startupEnded)

def Shared.flags (sh : Shared) : Bool × Bool × Bool := sh.background.flags

theorem Shared.flags_of_signals {sh sh' : Shared} (h : sh'.signals = sh.signals) : sh'.flags = sh.flags :=
  congrArg (fun x : Tokens × Background => x.2.flags) h

/-! ## Supervisors -/

section Supervisors

variable {sh : Shared}

theorem Background.after_stop_of_not_held {b : Background} (h : ¬ b.held) : b.after .stop = b := by
  obtain ⟨handler, launched, held, startupEnded, reporterEnded⟩ := b
  cases held with
  | false => rfl
  | true => exact absurd rfl h

namespace Stopping

theorem joinReporter_background (failure : Option Cause) (sh : Shared) :
    (joinReporter failure sh).1.background = sh.background := by
  unfold joinReporter
  split <;> rfl

theorem joinStartup_background (sh : Shared) : (joinStartup sh).1.background = sh.background := by
  unfold joinStartup
  split
  · exact joinReporter_background _ _
  · rfl

theorem start_background (sh : Shared) : (start sh).1.background = sh.background.after .stop :=
  joinStartup_background _

theorem resume_background (sh : Shared) (s : Stopping) : (s.resume sh).1.background = sh.background := by
  cases s with
  | startup => exact joinStartup_background sh
  | reporter failure => exact joinReporter_background failure sh

end Stopping

namespace Supervisor

theorem launch_background (root : Token) (sh : Shared) :
    (launch root sh).1.background = sh.background.after (.start root) := by
  unfold launch
  by_cases hh : sh.background.held = true
  · simp only [hh, Background.after, Bool.true_or, if_true]
  · by_cases hl : sh.background.launched = true
    · simp only [hh, hl, Background.after, Bool.or_true, if_true, Bool.false_eq_true, if_false]
    · simp only [hh, hl, Background.after, Bool.false_eq_true, Bool.or_self, if_false]
      rfl

theorem stop_background (root : Token) (sh : Shared) : (stop root sh).1.background = sh.background.after .stop := by
  unfold stop
  by_cases hh : sh.background.held = true
  · rw [if_pos hh]
    exact (andThen_view Shared.background _ _ fun _ _ => rfl).trans (Stopping.start_background _)
  · rw [if_neg hh, Background.after_stop_of_not_held hh]

/-- With a reason to stop the run a runner stops it, whichever reason it notes. -/
theorem watch_of_quits {root : Token} {sh : Shared} (h : sh.quits root) :
    ∃ event, watch env root sh = stop root (sh.log event) := by
  unfold watch
  split
  · exact ⟨_, rfl⟩
  · rename_i hcancelled
    split
    · exact ⟨_, rfl⟩
    · rename_i hi
      rw [Shared.quits, Bool.eq_false_iff.2 hi, Bool.false_or] at h
      exact absurd ⟨h, Or.inl (by rw [Bool.eq_false_iff.2 hi]; rfl)⟩ hcancelled

theorem watch_of_not_quits {root : Token} {sh : Shared} (h : ¬ sh.quits root) : watch env root sh = (sh, .waits .running) := by
  rw [Shared.quits, Bool.or_eq_true, not_or] at h
  rw [watch, if_neg fun hc => h.2 hc.1, if_neg h.1]

theorem watch_background (root : Token) (sh : Shared) :
    (watch env root sh).1.background = (if sh.quits root then [RunCall.stop] else []).foldl Background.after sh.background := by
  by_cases hq : sh.quits root
  · obtain ⟨event, hw⟩ := watch_of_quits env hq
    rw [hw, if_pos hq]
    exact stop_background root _
  · rw [watch_of_not_quits env hq, if_neg hq]
    rfl

theorem run_background (root : Token) (sh : Shared) :
    (run env root sh).1.background =
      (RunCall.start root :: if sh.quits root then [RunCall.stop] else []).foldl Background.after sh.background := by
  have hl := launch_background root sh
  rw [List.foldl_cons, ← hl]
  unfold run launch
  by_cases hh : sh.background.held = true
  · rw [if_pos hh]
    exact watch_background env root _
  · by_cases hb : sh.background.launched = true
    · rw [if_neg hh, if_pos hb]
      show sh.background = _
      by_cases hq : sh.quits root = true
      · rw [if_pos hq]
        exact (Background.after_stop_of_not_held hh).symm
      · rw [if_neg hq]
        rfl
    · rw [if_neg hh, if_neg hb]
      exact watch_background env root _

theorem stopping_background (root : Token) (sh : Shared) (s : Stopping) :
    (resume env root sh (.stopping s)).1.background = sh.background :=
  (andThen_view Shared.background _ _ fun _ _ => rfl).trans (Stopping.resume_background sh s)

end Supervisor

end Supervisors

/-! ## All other work -/

theorem CatchUp.resume_signals (token : Token) (sh : Shared) (c : CatchUp) (reply : Reply) :
    (c.resume env token sh reply).1.signals = sh.signals := by
  have hexit : ∀ (sh : Shared) (r : Report), (finish sh r).1.signals = sh.signals := fun _ _ => rfl
  cases c with
  | reading =>
    simp only [resume]
    cases sh.readRecord env reply with
    | error cause => rfl
    | ok record =>
      have he : (sh.enter .service (.passDenied .manual)).1.signals = sh.signals :=
        congrArg Prod.snd (Shared.backdrop_enter ..)
      simp only [follow]
      split
      · rename_i h; rwa [h] at he
      · rename_i sh' h
        rw [h] at he
        refine (andThen_view Shared.signals _ _ hexit).trans ?_
        exact (congrArg Prod.snd (Follow.start_writes token _ sh').backdrop).trans he
  | following f =>
    exact (andThen_view Shared.signals _ _ hexit).trans (congrArg Prod.snd (Follow.resume_writes env token sh f reply).backdrop)

theorem RangePass.start_signals (token : Token) (resume target : Epoch) (sh : Shared) :
    (start token resume target sh).1.signals = sh.signals := by
  have he : (sh.enter .service (.passDenied .range)).1.signals = sh.signals := congrArg Prod.snd (Shared.backdrop_enter ..)
  unfold start
  split
  · rename_i h; rwa [h] at he
  · rename_i sh' h
    rw [h] at he
    refine (andThen_view Shared.signals _ _ fun _ _ => rfl).trans ?_
    exact (congrArg Prod.snd (Pass.start_writes token resume target sh').backdrop).trans he

theorem RangePass.resume_signals (token : Token) (sh : Shared) (r : RangePass) (reply : Reply) :
    (r.resume env token sh reply).1.signals = sh.signals :=
  (andThen_view Shared.signals _ _ fun _ _ => rfl).trans
    (congrArg Prod.snd (Pass.resume_writes env token sh r.pass reply).backdrop)

theorem Reporter.windDown_signals (sh : Shared) (r : Reporter) (lag : Nat) :
    (windDown env sh r lag).1.signals = sh.signals := by
  induction lag generalizing sh r with
  | zero => rfl
  | succ lag ih =>
    unfold windDown
    split
    · exact ih _ _
    · rfl

theorem Reporter.resume_signals (token : Token) (sh : Shared) (r : Reporter) :
    (r.resume env token sh).1.signals = sh.signals := by
  unfold resume
  split
  · exact Reporter.windDown_signals env sh r _
  · split <;> rfl

namespace Work

/-- A part of the work that leaves the signals alone, and an end that leaves the flags alone. -/
theorem wrapped_flags {σ ρ : Type} {t : Shared × Turn σ ρ} {sh : Shared} {wrap : σ → Work} {next : Shared → ρ → Result}
    (h : t.1.signals = sh.signals) (hn : ∀ sh x, (next sh x).1.flags = sh.flags) : (andThen t wrap next).1.flags = sh.flags :=
  (andThen_view Shared.flags t wrap hn).trans (Shared.flags_of_signals h)

/-- A supervisor's part of the work. -/
theorem ruled_flags {σ ρ : Type} {t : Shared × Turn σ ρ} {b : Background} {wrap : σ → Work} {outcome : ρ → Outcome}
    (h : t.1.background = b) : (andThen t wrap (ending outcome)).1.flags = b.flags :=
  (andThen_view Shared.flags t wrap fun _ _ => rfl).trans (congrArg Background.flags h)

theorem start_flags (sh : Shared) (r : Request) (hk : r.kind ≠ .startup) :
    (start env sh r).1.flags = ((Work.asked r).runCalls sh |>.foldl Background.after sh.background).flags := by
  cases r with
  | catchUp token => rfl
  | range token resume target => exact wrapped_flags (RangePass.start_signals token resume target sh) fun _ _ => rfl
  | head guard token event =>
    exact wrapped_flags (congrArg Prod.snd (HeadUpdate.start_backdrop env event sh)) fun _ _ => rfl
  | latestEpoch => rfl
  | readRecord => rfl
  | writeEpoch token epoch =>
    exact wrapped_flags (congrArg Prod.snd (EpochWrite.start_writes token epoch sh).backdrop) fun _ _ => rfl
  | stage epoch ending => rfl
  | pass token resume target =>
    exact wrapped_flags (congrArg Prod.snd (Pass.start_writes token resume target sh).backdrop) fun _ _ => rfl
  | listen token feed =>
    exact wrapped_flags (Listener.serve_signals env token feed (sh.log .listening) _ _) fun _ _ => rfl
  | waitForFatal => simp only [start, lookForFatal]; split <;> rfl
  | stop => exact ruled_flags (Stopping.start_background sh)
  | runnerStart root => exact ruled_flags (Supervisor.launch_background root sh)
  | runnerStop root => exact ruled_flags (Supervisor.stop_background root sh)
  | runnerRun root => exact ruled_flags (Supervisor.run_background env root sh)
  | reporter => exact wrapped_flags (Reporter.resume_signals env sh.runToken sh _) fun _ _ => rfl
  | startup => exact absurd rfl hk

/-- Other work than startup changes the background run by its calls alone. -/
theorem resume_flags (sh : Shared) (w : Work) (reply : Reply) (hk : w.kind ≠ .startup) :
    (w.resume env sh reply).1.flags = ((w.runCalls sh).foldl Background.after sh.background).flags := by
  cases w with
  | asked r => exact start_flags env sh r hk
  | catchUp token c => exact wrapped_flags (CatchUp.resume_signals env token sh c reply) fun _ _ => rfl
  | range token r => exact wrapped_flags (RangePass.resume_signals env token sh r reply) fun _ _ => rfl
  | head guard token u =>
    exact wrapped_flags (congrArg Prod.snd (HeadUpdate.resume_backdrop env guard token sh u reply)) fun _ _ => rfl
  | latestEpoch => rfl
  | readRecord => rfl
  | writeEpoch token epoch w =>
    exact wrapped_flags (congrArg Prod.snd (EpochWrite.resume_writes env token epoch sh w reply).backdrop) fun _ _ => rfl
  | stage epoch ending s =>
    exact wrapped_flags (congrArg Prod.snd (Staging.resume_writes env epoch sh s reply).backdrop) fun _ _ => rfl
  | pass token p =>
    exact wrapped_flags (congrArg Prod.snd (Pass.resume_writes env token sh p reply).backdrop) fun _ _ => rfl
  | listen token feed l =>
    exact wrapped_flags (l.resume_signals env .parts token feed sh reply) fun _ _ => rfl
  | waitForFatal => simp only [resume, lookForFatal]; split <;> rfl
  | stop s => exact ruled_flags (Stopping.resume_background sh s)
  | runner root s =>
    cases s with
    | running => exact ruled_flags (Supervisor.watch_background env root sh)
    | stopping s => exact ruled_flags (Supervisor.stopping_background env root sh s)
  | reporter r => exact wrapped_flags (Reporter.resume_signals env sh.runToken sh r) fun _ _ => rfl
  | startup s => exact absurd rfl hk

/-- Startup notes its own end and calls nothing. -/
theorem startup_flags (sh : Shared) (w : Work) (reply : Reply) (hk : w.kind = .startup) :
    Yields (w.resume env sh reply) (fun sh' _ => sh'.flags = sh.flags)
      (fun sh' _ => sh'.flags = (sh.background.launched, sh.background.held, true)) ∧ w.runCalls sh = [] := by
  rcases of_startup hk with rfl | ⟨st, rfl⟩
  · exact ⟨rfl, rfl⟩
  · have hkept : (st.resume env sh.runToken sh reply).1.flags = sh.flags := by
      rw [Shared.flags_of_signals (st.resume_signals env sh.runToken sh reply)]
      cases st.fatal? env sh.runToken sh reply <;> rfl
    refine ⟨(yields_andThen ..).2 ((yields_of_fst (P := fun sh' => sh'.flags = sh.flags) hkept).mono
      (fun _ _ h => h) fun sh' _ h => ?_), rfl⟩
    simp only [Shared.flags, Background.flags, Prod.mk.injEq] at h
    show (sh'.background.launched, sh'.background.held, true) = _
    rw [h.1, h.2.1]

end Work

/-! ## Along a run -/

namespace System

variable {s s₀ : System} {acts : List Action} {a : Action} {p : Phase}

/-- The calls that an action makes on the background run. -/
def runCalls (s : System) : Action → List RunCall
  | .launch root => [.start root]
  | .turn id _ =>
    match s.work? id with
    | some w => w.runCalls s.shared
    | none => []
  | _ => []

/-- The phase that the calls of a run have brought the background run to. -/
def phase (s₀ : System) (acts : List Action) : Phase := (along env runCalls s₀ acts).foldl Phase.after .fresh

theorem phase_append (acts acts' : List Action) :
    phase env s₀ (acts ++ acts') = (along env runCalls (run env s₀ acts) acts').foldl Phase.after (phase env s₀ acts) := by
  rw [phase, along_append, List.foldl_append, phase]

theorem phase_snoc (acts : List Action) (a : Action) :
    phase env s₀ (acts ++ [a]) = ((run env s₀ acts).runCalls a).foldl Phase.after (phase env s₀ acts) := by
  rw [phase_append, along, along, List.append_nil]

theorem runCalls_turn {id : Nat} {w : Work} (hw : s.work? id = some w) (reply : Reply) :
    s.runCalls (.turn id reply) = w.runCalls s.shared := by
  simp only [runCalls, hw]

theorem at_of_flags {b b' : Background} (h : b.flags = b'.flags) (ha : b'.At p) : b.At p := by
  simp only [Background.flags, Prod.mk.injEq] at h
  exact ⟨h.1.trans ha.launched, h.2.1.trans ha.held⟩

theorem at_act (h : s.shared.background.At p) (a : Action) :
    (act env s a).shared.background.At ((s.runCalls a).foldl Phase.after p) := by
  cases a with
  | request r => exact h
  | launch root =>
    have hafter := Background.after_at h (.start root)
    simp only [act]
    by_cases hl : s.shared.background.launched = true
    · rw [if_pos hl]
      rwa [Background.after, hl, Bool.or_true, if_pos rfl] at hafter
    · rw [if_neg hl]
      rw [h.launched] at hl
      cases p with
      | fresh => exact ⟨rfl, rfl⟩
      | running => exact absurd rfl hl
      | stopped => exact absurd rfl hl
  | turn id reply =>
    cases hw : s.work? id with
    | none =>
      rw [turn_of_none env reply hw, runCalls, hw]
      exact h
    | some w =>
      rw [shared_turn env reply hw, runCalls_turn hw]
      by_cases hk : w.kind = .startup
      · obtain ⟨hflags, hnone⟩ := Work.startup_flags env s.shared w reply hk
        rw [hnone]
        -- Whether startup goes on or ends, the run and its handle are as they were.
        refine Yields.fst (P := fun sh' => sh'.background.At p)
          (hflags.mono (fun _ _ he => at_of_flags he h) fun sh' _ he => ?_)
        simp only [Shared.flags, Background.flags, Prod.mk.injEq] at he
        exact ⟨he.1.trans h.launched, he.2.1.trans h.held⟩
      · exact at_of_flags (Work.resume_flags env s.shared w reply hk) (Background.foldl_at _ h)
  | change c =>
    rw [show (act env s (.change c)).shared.background = _ from change_background env c s.shared]
    exact h

/-- The phase is told by the calls alone. -/
theorem phase_run (hb : s₀.shared.background = .absent) (acts : List Action) :
    (run env s₀ acts).shared.background.At (phase env s₀ acts) := by
  induction acts using List.reverseRecOn with
  | nil =>
    rw [run_nil, hb]
    exact ⟨rfl, rfl⟩
  | append_singleton acts a ih =>
    rw [run_snoc, phase_snoc]
    exact at_act env ih a

/-- A run that was stopped stays stopped. -/
theorem phase_stopped {part : List Action} (h : phase env s₀ part = .stopped) (rest : List Action) :
    phase env s₀ (part ++ rest) = .stopped := by
  rw [phase_append, h]
  have hstays : ∀ calls : List RunCall, calls.foldl Phase.after .stopped = .stopped := by
    intro calls
    induction calls with
    | nil => rfl
    | cons c calls ih => exact ih
  exact hstays _

/-- Startup is noted as ended when it ends. -/
theorem startupEnded_act (h : (act env s a).shared.background.startupEnded) :
    s.shared.background.startupEnded ∨
    ∃ id reply w, a = .turn id reply ∧ s.work? id = some w ∧ w.kind = .startup ∧ (act env s a).work? id = none := by
  cases a with
  | request r => exact Or.inl h
  | launch root =>
    simp only [act] at h
    split at h
    · exact Or.inl h
    · cases h
  | turn id reply =>
    cases hw : s.work? id with
    | none =>
      rw [turn_of_none env reply hw] at h
      exact Or.inl h
    | some w =>
      by_cases hk : w.kind = .startup
      · have hflags := (Work.startup_flags env s.shared w reply hk).1
        have hwork := work?_turn env reply hw
        rw [shared_turn env reply hw] at h
        rcases hr : w.resume env s.shared reply with ⟨sh', w' | o⟩
        · rw [hr] at h hflags
          exact Or.inl ((congrArg (fun f : Bool × Bool × Bool => f.2.2) hflags).symm.trans h)
        · rw [hr] at hwork
          exact Or.inr ⟨id, reply, w, rfl, hw, hk, hwork⟩
      · have hflags := congrArg (fun f : Bool × Bool × Bool => f.2.2) (Work.resume_flags env s.shared w reply hk)
        rw [shared_turn env reply hw] at h
        exact Or.inl ((Background.foldl_startupEnded _ _).1 (hflags.symm.trans h))
  | change c =>
    rw [show (act env s (.change c)).shared.background = _ from change_background env c s.shared] at h
    exact Or.inl h

theorem startupEnded_stays (hl : s.shared.background.launched) (h : s.shared.background.startupEnded) (a : Action) :
    (act env s a).shared.background.startupEnded := by
  cases a with
  | request r => exact h
  | launch root => simp only [act, hl, if_true, h]
  | turn id reply =>
    cases hw : s.work? id with
    | none => rwa [turn_of_none env reply hw]
    | some w =>
      rw [shared_turn env reply hw]
      by_cases hk : w.kind = .startup
      · refine Yields.fst (P := fun sh' => sh'.background.startupEnded = true)
          ((Work.startup_flags env s.shared w reply hk).1.mono (fun _ _ he => ?_) fun _ _ he => ?_)
        · exact (congrArg (fun f : Bool × Bool × Bool => f.2.2) he).trans h
        · exact congrArg (fun f : Bool × Bool × Bool => f.2.2) he
      · have hflags := congrArg (fun f : Bool × Bool × Bool => f.2.2) (Work.resume_flags env s.shared w reply hk)
        exact hflags.trans (((Background.foldl_startupEnded _ _).2 hl).trans h)
  | change c => rwa [show (act env s (.change c)).shared.background = _ from change_background env c s.shared]

end System

end CommitteeSync
