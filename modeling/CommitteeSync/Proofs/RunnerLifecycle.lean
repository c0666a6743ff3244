/-
  CommitteeSync.Proofs.RunnerLifecycle — starting and stopping a runner, and the quiet after.

  A runner starts the background run once and holds its handle until it is told to stop. The
  stop cancels the root token, waits for startup, which may be at any wait and may still find
  a fatal error (the end of the stream too, where it comes before the cancelled token), and
  then for the reporter. Only after startup has ended does it look for the error.

  Proved, for any calls on the runner and on the service in any interleaving, with any calls
  of startup failing and any tokens cancelled (`runner_lifecycle`):
  (1) There is at most one startup in all.
  (2) A start or stop changes nothing but in the phase that it ends. A start succeeds until
      the runner is stopped, and fails from then on; a stop of a runner that is not running
      succeeds.
  (3) When the stop of a running runner has returned, startup has ended: it makes no call any
      more, no pass but those of others is behind the gate, and no transaction is open but
      those of others. The root token is cancelled.
  (4) The stop gives the first fatal error of startup, in full under a message of its own, and
      an error only so.
-/

import CommitteeSync.Proofs.Denial
import CommitteeSync.Proofs.RunnerCalls
import CommitteeSync.Proofs.TxProtocol

namespace CommitteeSync

open Turn

variable (env : Setup)

/-! ## Tasks that are startups -/

def Outcome.isStartup : Outcome → Bool
  | .startup => true
  | _ => false

/-- Whether the task is a startup, or was one before it ended. -/
def Task.isStartup : Task → Bool
  | .active w => w.kind = .startup
  | .ended o => o.isStartup

namespace Work

variable {env}

theorem wrapped_isStartup {σ ρ : Type} (t : Shared × Turn σ ρ) {b : Bool} {wrap : σ → Work} {next : Shared → ρ → Result}
    (hw : ∀ s, (Task.active (wrap s)).isStartup = b)
    (hn : ∀ sh x, Yields (next sh x) (fun _ _ => False) (fun _ o => o.isStartup = b)) :
    (System.taskOf (andThen t wrap next).2).isStartup = b := by
  obtain ⟨sh, s | x⟩ := t
  · exact hw s
  · have hend := hn sh x
    show (System.taskOf (next sh x).2).isStartup = b
    rcases hr : next sh x with ⟨sh', w | o⟩
    · rw [hr] at hend
      exact hend.elim
    · rw [hr] at hend
      exact hend

theorem start_isStartup (sh : Shared) (r : Request) :
    (System.taskOf (start env sh r).2).isStartup = (Task.active (.asked r)).isStartup := by
  cases r with
  | latestEpoch => rfl
  | readRecord => rfl
  | stage epoch ending => rfl
  | waitForFatal => simp only [start, lookForFatal]; split <;> rfl
  | _ => exact wrapped_isStartup _ (fun _ => rfl) fun _ _ => rfl

/-- A task stays a startup, and becomes none, by its turns. -/
theorem resume_isStartup (sh : Shared) (w : Work) (reply : Reply) :
    (System.taskOf (w.resume env sh reply).2).isStartup = (Task.active w).isStartup := by
  cases w with
  | asked r => exact start_isStartup sh r
  | latestEpoch => rfl
  | readRecord => rfl
  | waitForFatal => simp only [resume, lookForFatal]; split <;> rfl
  | _ => exact wrapped_isStartup _ (fun _ => rfl) fun _ _ => rfl

end Work

/-! ## Stopping -/

namespace Stopping

/-- What the stop has found when it waits: after startup it waits with the error there was. -/
def Waits (sh : Shared) : Stopping → Prop
  | .startup => True
  | .reporter failure => sh.background.startupEnded ∧ failure = sh.captured

/-- What it has found when it ends. -/
structure Ends (sh : Shared) (r : Result) : Prop where
  startup : sh.background.startupEnded
  result : r = outcome sh.captured

variable {sh sh' : Shared}

theorem Waits.mono {s : Stopping} (h : s.Waits sh)
    (hk : sh.background.startupEnded → sh'.background.startupEnded ∧ sh'.captured = sh.captured) : s.Waits sh' := by
  cases s with
  | startup => trivial
  | reporter failure =>
    obtain ⟨he, hc⟩ := hk h.1
    exact ⟨he, h.2.trans hc.symm⟩

theorem Ends.mono {r : Result} (h : Ends sh r)
    (hk : sh.background.startupEnded → sh'.background.startupEnded ∧ sh'.captured = sh.captured) : Ends sh' r := by
  obtain ⟨he, hc⟩ := hk h.startup
  exact ⟨he, h.result.trans (congrArg outcome hc.symm)⟩

theorem joinReporter_finds {failure : Option Cause} (he : sh.background.startupEnded) (hc : failure = sh.captured) :
    Yields (joinReporter failure sh) (fun sh' s => s.Waits sh') Ends := by
  unfold joinReporter
  split
  · exact ⟨he, congrArg outcome hc⟩
  · exact ⟨he, hc⟩

theorem joinStartup_finds (sh : Shared) : Yields (joinStartup sh) (fun sh' s => s.Waits sh') Ends := by
  unfold joinStartup
  split
  · rename_i he
    exact joinReporter_finds he rfl
  · trivial

theorem resume_finds {s : Stopping} (h : s.Waits sh) : Yields (s.resume sh) (fun sh' s => s.Waits sh') Ends := by
  cases s with
  | startup => exact joinStartup_finds sh
  | reporter failure => exact joinReporter_finds h.1 h.2

end Stopping

/-- The root token that a runner's work goes by. -/
def Work.root? : Work → Option Token
  | .asked (.runnerStart root) | .asked (.runnerStop root) | .asked (.runnerRun root) => some root
  | .runner root _ => some root
  | _ => none

namespace Supervisor

variable {sh : Shared} {root : Token}

/-- A supervisor that is stopping the run, and how far it is. -/
def Stops (sh : Shared) : Supervisor → Prop
  | .running => False
  | .stopping s => s.Waits sh

/-- The stop takes the handle and cancels the root token. -/
theorem stop_held (h : sh.background.held) :
    Yields (stop root sh) (fun sh' s => s.Stops sh') Stopping.Ends ∧ (stop root sh).1.isCancelled root := by
  have hc : (sh.cancel root).isCancelled root := by
    cases root <;> simp [Shared.cancel, Shared.isCancelled, Tokens.cancel, Tokens.isCancelled]
  have hstop : stop root sh = andThen (Stopping.start (sh.cancel root)) .stopping (fun sh r => (sh, .ends r)) := by
    unfold stop
    rw [if_pos h]
  have heffects : Effects .aside (sh.cancel root) (stop root sh).1 := by
    rw [hstop]
    exact (Stopping.start_effects _).andThen _ fun sh _ => .none sh
  refine ⟨?_, heffects.cancelled hc⟩
  rw [hstop]
  exact (yields_andThen ..).2 (Stopping.joinStartup_finds _)

/-- A runner that watches the run stops it as soon as it has a reason to. -/
theorem watch_quits (hq : sh.quits root) (h : sh.background.held) :
    Yields (watch env root sh) (fun sh' s => s.Stops sh') Stopping.Ends ∧ (watch env root sh).1.isCancelled root := by
  obtain ⟨event, hw⟩ := watch_of_quits env hq
  rw [hw]
  exact stop_held h

theorem resume_finds (root : Token) {s : Supervisor} (h : s.Stops sh) :
    Yields (s.resume env root sh) (fun sh' s => s.Stops sh') Stopping.Ends := by
  cases s with
  | running => exact h.elim
  | stopping s => exact (yields_andThen ..).2 (Stopping.resume_finds h)

end Supervisor

/-- The turn in which a runner's work ends the running phase, or one that has not begun, is the
    first of its stop. -/
theorem Work.resume_stops {sh : Shared} {root : Token} {w : Work} {p : Phase} (hw : w.root? = some root)
    (hat : sh.background.At p) (hp : p ≠ .stopped) (hs : (w.runCalls sh).foldl Phase.after p = .stopped) (reply : Reply) :
    Yields (w.resume env sh reply) (fun sh' w' => ∃ s, w' = .runner root s ∧ s.Stops sh')
      (fun sh' o => ∃ r, o = .stopped r ∧ Stopping.Ends sh' r) ∧ (w.resume env sh reply).1.isCancelled root := by
  have hwrap : ∀ {t : Shared × Turn Supervisor Supervisor.Result},
      Yields t (fun sh' s => s.Stops sh') Stopping.Ends ∧ t.1.isCancelled root →
      Yields (andThen t (Work.runner root) (ending .stopped)) (fun sh' w' => ∃ s, w' = .runner root s ∧ s.Stops sh')
        (fun sh' o => ∃ r, o = .stopped r ∧ Stopping.Ends sh' r) ∧
      (andThen t (Work.runner root) (ending .stopped)).1.isCancelled root := by
    rintro ⟨sh', s | r⟩ ⟨ht, hc⟩
    · exact ⟨⟨s, rfl, ht⟩, hc⟩
    · exact ⟨⟨r, rfl, ht⟩, hc⟩
  cases w with
  | asked r =>
    cases r with
    | runnerStart root' =>
      cases p with
      | stopped => exact absurd rfl hp
      | fresh => cases hs
      | running => cases hs
    | runnerStop root' =>
      cases hw
      cases p with
      | stopped => exact absurd rfl hp
      | fresh => cases hs
      | running => exact hwrap (Supervisor.stop_held hat.held)
    | runnerRun root' =>
      cases hw
      by_cases hq : sh.quits root = true
      · refine hwrap ?_
        show Yields (Supervisor.run env root sh) _ _ ∧ _
        -- Either way the run is launched by now and its handle held.
        cases p with
        | stopped => exact absurd rfl hp
        | fresh =>
          have hrun : Supervisor.run env root sh = Supervisor.watch env root ((sh.launch root).log .runnerStarted) := by
            have hh : sh.background.held = false := hat.held
            have hl : sh.background.launched = false := hat.launched
            simp only [Supervisor.run, Supervisor.launch, hh, hl, Bool.false_eq_true, if_false]
          rw [hrun]
          exact Supervisor.watch_quits env hq rfl
        | running =>
          have hh : sh.background.held = true := hat.held
          have hrun : Supervisor.run env root sh = Supervisor.watch env root (sh.log .runnerStarted) := by
            simp only [Supervisor.run, Supervisor.launch, hh, if_true]
          rw [hrun]
          exact Supervisor.watch_quits env hq hh
      · simp only [runCalls, hq, Bool.false_eq_true, if_false, List.foldl_cons, List.foldl_nil] at hs
        cases p with
        | stopped => exact absurd rfl hp
        | fresh => cases hs
        | running => cases hs
    | _ => cases hw
  | runner root' s =>
    cases hw
    cases s with
    | running =>
      by_cases hq : sh.quits root = true
      · simp only [runCalls, hq, if_true, List.foldl_cons, List.foldl_nil] at hs
        cases p with
        | stopped => exact absurd rfl hp
        | fresh => cases hs
        | running => exact hwrap (Supervisor.watch_quits env hq hat.held)
      · simp only [runCalls, hq, Bool.false_eq_true, if_false, List.foldl_nil] at hs
        exact absurd hs hp
    | stopping s => exact absurd hs hp
  | _ => cases hw

/-! ## Startup that has ended -/

namespace System

variable {s s₀ : System} {acts : List Action} {a : Action} {id : Nat} {root : Token}

theorem isStartup_launched (before after : Shared) (h : before.background.launched → after.background.launched) :
    (launched before after).countP Task.isStartup + before.background.launched.toNat =
      after.background.launched.toNat := by
  unfold launched
  cases hb : before.background.launched with
  | true => rw [h hb]; rfl
  | false => cases after.background.launched <;> rfl

/-- A startup is spawned by the launch and by nothing else. -/
theorem startups_act (ha : ∀ r, a = .request r → r.kind ≠ .startup) :
    (act env s a).tasks.countP Task.isStartup + s.shared.background.launched.toNat =
      s.tasks.countP Task.isStartup + (act env s a).shared.background.launched.toNat := by
  cases a with
  | request r =>
    have hr : (Task.active (.asked r)).isStartup = false := decide_eq_false (ha r rfl)
    simp only [act, request, List.countP_append, List.countP_singleton, hr, Bool.false_eq_true, if_false, Nat.add_zero]
  | launch root =>
    simp only [act]
    split
    · rfl
    · have hnew := isStartup_launched s.shared (s.shared.launch root) fun _ => rfl
      simp only [launch, List.countP_append]
      omega
  | turn id reply =>
    cases hw : s.work? id with
    | none => rw [turn_of_none env reply hw]
    | some w =>
      have hlt : id < s.tasks.length := (List.getElem?_eq_some_iff.1 (work?_eq_some.1 hw)).1
      have htask : s.tasks[id] = .active w := (List.getElem?_eq_some_iff.1 (work?_eq_some.1 hw)).2
      have hset := countP_set_toNat Task.isStartup hlt (taskOf (w.resume env s.shared reply).2)
      have hnew := isStartup_launched s.shared (act env s (.turn id reply)).shared fun hl => (turn_effects env reply hw).stays_launched hl
      rw [Work.resume_isStartup, htask] at hset
      rw [shared_turn env reply hw] at hnew ⊢
      rw [turn_of_some env reply hw, List.countP_append]
      omega
  | change c =>
    rw [show (act env s (.change c)).shared.background = _ from change_background env c s.shared]
    rfl

theorem startups_run (hs : s₀.Idle) (hb : s₀.shared.background = .absent) (h : Only (fun k => k ≠ .startup) acts) :
    (run env s₀ acts).tasks.countP Task.isStartup = (run env s₀ acts).shared.background.launched.toNat := by
  induction acts using List.reverseRecOn with
  | nil =>
    rw [run_nil, hs.noTask, hb]
    rfl
  | append_singleton acts a ih =>
    have hstep := startups_act env (s := run env s₀ acts) h.last_ne_startup
    have hsofar := ih h.of_snoc
    rw [run_snoc]
    omega

/-- The run has been launched, and its startup is over. -/
structure Rested (s : System) : Prop where
  launched : s.shared.background.launched
  gone : ∀ id w, s.work? id = some w → w.kind ≠ .startup

theorem Rested.act (h : Rested s) (ha : ∀ r, a = .request r → r.kind ≠ .startup) : Rested (act env s a) := by
  refine ⟨launched_act env h.launched, fun id w' hw' hk => ?_⟩
  rcases startup_came env ha hw' hk with ⟨w, hw, hk'⟩ | ⟨hl, -⟩
  · exact h.gone id w hw hk'
  · rw [h.launched] at hl
    cases hl

theorem Rested.captured (h : Rested s) (a : Action) : (System.act env s a).shared.captured = s.shared.captured :=
  captured_kept env h.launched fun id _ w _ hw => h.gone id w hw

/-- Where startup is noted as ended it is over. -/
theorem rested_run (hs : s₀.Idle) (hb : s₀.shared.background = .absent) (h : Only (fun k => k ≠ .startup) acts)
    (he : (run env s₀ acts).shared.background.startupEnded) : Rested (run env s₀ acts) := by
  induction acts using List.reverseRecOn with
  | nil =>
    rw [run_nil, hb] at he
    cases he
  | append_singleton acts a ih =>
    have hspawned := spawned_run env hs h.of_snoc
    rw [run_snoc] at he ⊢
    rcases startupEnded_act env he with he' | ⟨id₀, reply, w₀, rfl, hw₀, hk₀, hover⟩
    · exact (ih h.of_snoc he').act env h.last_ne_startup
    · have hl := hspawned.launched id₀ w₀ hw₀ hk₀
      refine ⟨launched_act env hl, fun id w' hw' hk => ?_⟩
      rcases startup_came env h.last_ne_startup hw' hk with ⟨w, hw, hk'⟩ | ⟨hl', -⟩
      · rw [hspawned.one id id₀ w w₀ hw hw₀ hk' hk₀, hover] at hw'
        cases hw'
      · rw [hl] at hl'
        cases hl'

/-- The one startup of a run is over, and was there. -/
theorem Rested.ended (h : Rested s) (hone : s.tasks.countP Task.isStartup = s.shared.background.launched.toNat) :
    ∃ id, s.outcome? id = some .startup := by
  have hpos : 0 < s.tasks.countP Task.isStartup := by
    rw [hone, h.launched]
    exact Nat.one_pos
  obtain ⟨task, hmem, hstartup⟩ := List.countP_pos_iff.1 hpos
  obtain ⟨id, hid⟩ := List.mem_iff_getElem?.1 hmem
  refine ⟨id, outcome?_eq_some.2 ?_⟩
  cases task with
  | active w => exact absurd (of_decide_eq_true hstartup) (h.gone id w (work?_eq_some.2 hid))
  | ended o =>
    cases o with
    | startup => exact hid
    | _ => cases hstartup

/-! ## The first fatal error -/

/-- The fatal errors that startups find in an action. -/
def fatals (s : System) : Action → List (String × Cause)
  | .turn id reply => (s.fatal? env id reply).toList
  | _ => []

/-- The fatal error that was found first in a run. -/
def firstFatal? (s₀ : System) (acts : List Action) : Option (String × Cause) := (along env (fatals env) s₀ acts).head?

/-- Only a startup finds a fatal error. -/
theorem fatals_of_other (h : ∀ id reply w, a = .turn id reply → s.work? id = some w → w.kind ≠ .startup) :
    fatals env s a = [] := by
  cases a with
  | turn id reply =>
    rw [fatals, fatal?]
    cases hst : s.startup? id with
    | none => rfl
    | some st => exact absurd rfl (h id reply _ rfl (startup?_eq_some.1 hst))
  | _ => rfl

/-- Whoever is a startup is the only one, and nothing was fatal so far. -/
theorem watched_run (hs : s₀.Idle) (h : Only (fun k => k ≠ .startup) acts) {w : Work}
    (hw : (run env s₀ acts).work? id = some w) (hk : w.kind = .startup) : Watched (run env s₀ acts) id := by
  induction acts using List.reverseRecOn generalizing w with
  | nil =>
    rw [run_nil, hs.work?] at hw
    cases hw
  | append_singleton acts a ih =>
    have hcame := hw
    rw [run_snoc] at hcame
    rcases startup_came env h.last_ne_startup hcame hk with ⟨v, hv, hk'⟩ | ⟨-, -, rfl, -⟩
    · rw [run_snoc]
      exact (ih h.of_snoc hv hk').act env h.last_ne_startup
    · exact watched_asked env hs h hw

theorem fatals_before_launch (hs : s₀.Idle) (h : Only (fun k => k ≠ .startup) acts)
    (hl : (run env s₀ acts).shared.background.launched = false) : along env (fatals env) s₀ acts = [] := by
  refine List.eq_nil_iff_forall_not_mem.2 fun error hm => ?_
  obtain ⟨before, a, since, rfl, hf⟩ := (mem_along env).1 hm
  have hother : fatals env (run env s₀ before) a = [] := by
    refine fatals_of_other env fun id reply w _ hw hk => ?_
    have hl' := (spawned_run env hs h.of_append_left).launched id w hw hk
    have hlater := (runs_run env hl' (a :: since)).1
    rw [← run_append, hl] at hlater
    cases hlater
  rw [hother] at hf
  cases hf

/-- What is captured is the fatal error that was found first. -/
theorem captured_run (hs : s₀.Idle) (hb : s₀.shared.background = .absent) (h : Only (fun k => k ≠ .startup) acts)
    (hl : (run env s₀ acts).shared.background.launched) :
    (run env s₀ acts).shared.captured = (firstFatal? env s₀ acts).map fun error => .fatal error.1 error.2 := by
  induction acts using List.reverseRecOn with
  | nil =>
    rw [run_nil, hb] at hl
    cases hl
  | append_singleton acts a ih =>
    rw [firstFatal?, along_snoc]
    by_cases ha : ∃ id reply w, a = .turn id reply ∧ (run env s₀ acts).work? id = some w ∧ w.kind = .startup
    · obtain ⟨id, reply, w, rfl, hw, hk⟩ := ha
      have hwatched := watched_run env hs h.of_snoc hw hk
      have hnone : along env (fatals env) s₀ acts = [] := by
        have hc := ih h.of_snoc hwatched.launched
        rw [hwatched.quiet w hw] at hc
        exact List.head?_eq_none_iff.1 (Option.map_eq_none_iff.1 hc.symm)
      rw [run_snoc, (hwatched.turn_captures env hw reply).1, hnone, List.nil_append, fatals]
      cases (run env s₀ acts).fatal? env id reply <;> rfl
    · have hother : ∀ id reply w, a = .turn id reply → (run env s₀ acts).work? id = some w → w.kind ≠ .startup :=
        fun id reply w he hw hk => ha ⟨id, reply, w, he, hw, hk⟩
      rw [fatals_of_other env hother, List.append_nil]
      cases hl' : (run env s₀ acts).shared.background.launched with
      | true =>
        rw [run_snoc, captured_kept env hl' hother]
        exact ih h.of_snoc hl'
      | false =>
        rw [fatals_before_launch env hs h.of_snoc hl']
        rw [run_snoc] at hl ⊢
        exact captured_act env (fun hl => by rw [hl'] at hl; cases hl) hother hl

/-! ## The stop of a run -/

/-- Task `id` is the stop of the run by a runner with this root token, under way or over. -/
inductive Stopper (root : Token) (s : System) (id : Nat) : Prop
  | waits (st : Supervisor) : s.work? id = some (.runner root st) → st.Stops s.shared → Stopper root s id
  | ended (r : Stopping.Result) : s.outcome? id = some (.stopped r) → Stopping.Ends s.shared r → Stopper root s id

theorem Stopper.act (h : Stopper root s id) (hl : s.shared.background.launched)
    (hr : s.shared.background.startupEnded → Rested s) (a : Action) : Stopper root (System.act env s a) id := by
  -- What the stop has found of startup stays true of it.
  have hkept : s.shared.background.startupEnded → (System.act env s a).shared.background.startupEnded ∧
      (System.act env s a).shared.captured = s.shared.captured :=
    fun he => ⟨startupEnded_stays env hl he a, (hr he).captured env a⟩
  cases h with
  | waits st hw hst =>
    by_cases ha : ∃ reply, a = .turn id reply
    · obtain ⟨reply, rfl⟩ := ha
      have hfinds := Supervisor.resume_finds env root hst
      have hshared := shared_turn env reply hw
      have hwork := work?_turn env reply hw
      have houtcome := outcome?_turn env reply hw
      rw [show (Work.runner root st).resume env s.shared reply =
        andThen (st.resume env root s.shared) (.runner root) (Work.ending .stopped) from rfl] at hshared hwork houtcome
      rcases hr' : st.resume env root s.shared with ⟨sh', st' | r⟩
      · rw [hr'] at hfinds hshared hwork
        exact .waits st' hwork (by rw [hshared]; exact hfinds)
      · rw [hr'] at hfinds hshared houtcome
        exact .ended r houtcome (by rw [hshared]; exact hfinds)
    · refine .waits st (work?_kept env hw fun reply he => ha ⟨reply, he⟩) ?_
      cases st with
      | running => exact hst
      | stopping st => exact Stopping.Waits.mono hst hkept
  | ended r ho he =>
    have htask := outcome?_eq_some.1 ho
    have hlt : id < s.tasks.length := (List.getElem?_eq_some_iff.1 htask).1
    have hidle : ∀ reply w, a = .turn id reply → s.work? id ≠ some w := by
      intro reply w _ hw
      rw [work?_of_outcome? ho] at hw
      cases hw
    refine .ended r (outcome?_eq_some.2 ?_) (he.mono hkept)
    rw [tasks_idle env hlt hidle, htask]

theorem stopper_run (hs : s₀.Idle) (hb : s₀.shared.background = .absent) {part rest : List Action}
    (h : Only (fun k => k ≠ .startup) (part ++ rest)) (hl : (run env s₀ part).shared.background.launched)
    (hst : Stopper root (run env s₀ part) id) : Stopper root (run env s₀ (part ++ rest)) id := by
  induction rest using List.reverseRecOn with
  | nil => rwa [List.append_nil]
  | append_singleton rest a ih =>
    rw [← List.append_assoc] at h ⊢
    rw [run_snoc]
    refine (ih h.of_snoc).act env ?_ (rested_run env hs hb h.of_snoc) a
    rw [run_append]
    exact (runs_run env hl rest).1

/-- The turn that stops a running runner, or one that it starts itself, begins its stop. -/
theorem stopper_turn (hb : s₀.shared.background = .absent) {part : List Action} {reply : Reply} {w : Work}
    (hw : (run env s₀ part).work? id = some w) (hroot : w.root? = some root) (hp : phase env s₀ part ≠ .stopped)
    (hp' : phase env s₀ (part ++ [.turn id reply]) = .stopped) :
    Stopper root (run env s₀ (part ++ [.turn id reply])) id ∧
    (run env s₀ (part ++ [.turn id reply])).shared.isCancelled root := by
  rw [phase_snoc, runCalls_turn hw] at hp'
  obtain ⟨hstops, hcancelled⟩ := Work.resume_stops env hroot (phase_run env hb part) hp hp' reply
  have hshared := shared_turn env reply hw
  have hwork := work?_turn env reply hw
  have houtcome := outcome?_turn env reply hw
  rw [run_snoc]
  rcases hr : w.resume env (run env s₀ part).shared reply with ⟨sh', w' | o⟩
  · rw [hr] at hstops hcancelled hshared hwork
    obtain ⟨st, rfl, hst⟩ := hstops
    rw [hshared]
    exact ⟨.waits st hwork (by rw [hshared]; exact hst), hcancelled⟩
  · rw [hr] at hstops hcancelled hshared houtcome
    obtain ⟨r, rfl, he⟩ := hstops
    rw [hshared]
    exact ⟨.ended r houtcome (by rw [hshared]; exact he), hcancelled⟩

/-! ## The lifecycle -/

/-- Task `id` has ended with this answer, and nothing else is different. -/
def answered (s : System) (id : Nat) (r : Stopping.Result) : System :=
  { s with tasks := s.tasks.set id (.ended (.stopped r)) }

theorem answered_turn {w : Work} {reply : Reply} {r : Stopping.Result} (hw : s.work? id = some w)
    (h : w.resume env s.shared reply = (s.shared, .ends (.stopped r))) : act env s (.turn id reply) = s.answered id r := by
  have hnone : launched s.shared s.shared = [] := by
    unfold launched
    cases s.shared.background.launched <;> rfl
  rw [turn_of_some env reply hw, h, hnone, List.append_nil]
  rfl

/-- A stop that finds nothing to stop. -/
theorem stop_idle (hb : s₀.shared.background = .absent) {reply : Reply}
    (hw : (run env s₀ acts).work? id = some (.asked (.runnerStop root))) (hp : phase env s₀ acts ≠ .running) :
    run env s₀ (acts ++ [.turn id reply]) = (run env s₀ acts).answered id (.ok ()) := by
  have hh : (run env s₀ acts).shared.background.held = false := by
    rw [(phase_run env hb acts).held]
    cases hp' : phase env s₀ acts with
    | running => exact absurd hp' hp
    | fresh => rfl
    | stopped => rfl
  rw [run_snoc]
  refine answered_turn env hw ?_
  simp only [Work.resume, Work.start, Supervisor.stop, hh, Bool.false_eq_true, if_false]
  rfl

/-- What is left of the background run after `acts`, when its stop has given `o`. -/
structure Quiesced (root : Token) (s₀ : System) (acts : List Action) (o : Outcome) : Prop where
  cancelled : (run env s₀ acts).shared.isCancelled root
  /-- The startup has ended and does nothing any more; the gate and the transactions are left to others. -/
  quiet : ∃ startup, (run env s₀ acts).outcome? startup = some .startup ∧
    (∀ since, callsBy env startup (run env s₀ acts) since = [] ∧ commitsBy env startup (run env s₀ acts) since = []) ∧
    ((run env s₀ acts).shared.busy → ∃ other, other ≠ startup ∧ (run env s₀ acts).guarded other) ∧
    (Only (fun k => k ≠ .stage) acts → (∀ other, other ≠ startup → (run env s₀ acts).write? other = none) →
      (run env s₀ acts).shared.store.begun + s₀.shared.store.commits + s₀.shared.store.cancellations =
        s₀.shared.store.begun + (run env s₀ acts).shared.store.commits +
          (run env s₀ acts).shared.store.cancellations + (along env refusals s₀ acts).length)
  captured : (run env s₀ acts).shared.captured = (firstFatal? env s₀ acts).map fun error => .fatal error.1 error.2
  /-- The error is the first fatal one, under its context. -/
  result : match firstFatal? env s₀ acts with
    | none => o = .stopped (.ok ())
    | some (context, cause) => ∃ error, o = .stopped (.error error) ∧
        error.chain = "epoch sync aborted" :: context :: (context :: cause.chain)
  /-- From now on a stop has nothing to stop. -/
  later : ∀ since id reply root', (run env s₀ (acts ++ since)).work? id = some (.asked (.runnerStop root')) →
    run env s₀ (acts ++ since ++ [.turn id reply]) = (run env s₀ (acts ++ since)).answered id (.ok ())

/-- After `acts`, a run of the system from `s₀`. -/
structure RunnerLifecycle (s₀ : System) (acts : List Action) : Prop where
  /-- No task is ever taken off the list. -/
  one_startup : (run env s₀ acts).tasks.countP Task.isStartup ≤ 1
  start : ∀ id reply root, (run env s₀ acts).work? id = some (.asked (.runnerStart root)) →
    match phase env s₀ acts with
    | .fresh => (run env s₀ (acts ++ [.turn id reply])).outcome? id = some (.stopped (.ok ()))
    | .running => run env s₀ (acts ++ [.turn id reply]) = (run env s₀ acts).answered id (.ok ())
    | .stopped => run env s₀ (acts ++ [.turn id reply]) = (run env s₀ acts).answered id (.error .alreadyRan)
  /-- It cancels nothing. -/
  idle_stop : ∀ id reply root, (run env s₀ acts).work? id = some (.asked (.runnerStop root)) →
    phase env s₀ acts ≠ .running →
      run env s₀ (acts ++ [.turn id reply]) = (run env s₀ acts).answered id (.ok ())
  /-- A stop that began in some turn of the run, when there was something to stop. -/
  stop : ∀ part id reply rest w root o, acts = part ++ .turn id reply :: rest →
    (run env s₀ part).work? id = some w → w.root? = some root →
    phase env s₀ part ≠ .stopped → phase env s₀ (part ++ [.turn id reply]) = .stopped →
    (run env s₀ acts).outcome? id = some o → Quiesced env root s₀ acts o

theorem quiesced_run (hs : s₀.Idle) (hb : s₀.shared.background = .absent) (hfree : s₀.shared.busy = false)
    (h : Only (fun k => k ≠ .startup) acts) {part rest : List Action} {reply : Reply} {w : Work} {o : Outcome}
    (hacts : acts = part ++ .turn id reply :: rest) (hw : (run env s₀ part).work? id = some w)
    (hroot : w.root? = some root) (hp : phase env s₀ part ≠ .stopped)
    (hp' : phase env s₀ (part ++ [.turn id reply]) = .stopped) (ho : (run env s₀ acts).outcome? id = some o) :
    Quiesced env root s₀ acts o := by
  have hsplit : acts = part ++ [.turn id reply] ++ rest := by rw [hacts, List.append_assoc]; rfl
  obtain ⟨hbegun, hcancelled⟩ := stopper_turn env hb hw hroot hp hp'
  have hlaunched : (run env s₀ (part ++ [.turn id reply])).shared.background.launched := by
    have hat := phase_run env hb (part ++ [.turn id reply])
    rw [hp'] at hat
    exact hat.launched
  have hstopper : Stopper root (run env s₀ acts) id := by
    rw [hsplit] at h ⊢
    exact stopper_run env hs hb h hlaunched hbegun
  obtain ⟨r, rfl, hends⟩ : ∃ r, o = .stopped r ∧ Stopping.Ends (run env s₀ acts).shared r := by
    cases hstopper with
    | waits st hw' =>
      rw [work?_of_outcome? ho] at hw'
      cases hw'
    | ended r ho' he =>
      rw [ho] at ho'
      cases ho'
      exact ⟨r, rfl, he⟩
  have hrested := rested_run env hs hb h hends.startup
  have hcaptured := captured_run env hs hb h hrested.launched
  have hstopped : phase env s₀ acts = .stopped := by
    rw [hsplit]
    exact phase_stopped env hp' rest
  constructor
  · rw [hsplit]
    exact isCancelled_run env hcancelled rest
  · obtain ⟨startup, hstartup⟩ := hrested.ended (startups_run env hs hb h)
    have hover := work?_of_outcome? hstartup
    have hlt : startup < (run env s₀ acts).tasks.length :=
      (List.getElem?_eq_some_iff.1 (outcome?_eq_some.1 hstartup)).1
    refine ⟨startup, hstartup, nothing_by_over env hlt hover, fun hbusy => ?_, fun hstage hnone => ?_⟩
    · obtain ⟨other, hother⟩ := busy_guarded env hs hfree hbusy
      refine ⟨other, ?_, hother⟩
      rintro rfl
      obtain ⟨w', hw', -⟩ := guarded_iff.1 hother
      rw [hover] at hw'
      cases hw'
    · have hheld : (run env s₀ acts).held = 0 := by
        refine held_of_closed fun other => ?_
        by_cases hne : other = startup
        · rw [hne, write?_of_none hover]
        · exact hnone other hne
      have hbalance := balance_run env hs hstage
      dsimp only at hbalance
      omega
  · exact hcaptured
  · rw [hends.result, hcaptured]
    cases firstFatal? env s₀ acts with
    | none => rfl
    | some error => exact ⟨_, rfl, rfl⟩
  · intro since id' reply' root' hw'
    refine stop_idle env hb hw' ?_
    rw [phase_stopped env hstopped since]
    exact nofun

/-- A runner starts its one startup once, answers any other call without doing anything, and
    leaves nothing of the run behind when its stop has returned. -/
theorem runner_lifecycle (hs : s₀.Idle) (hb : s₀.shared.background = .absent) (hfree : s₀.shared.busy = false)
    (acts : List Action) (h : Only (fun k => k ≠ .startup) acts) : RunnerLifecycle env s₀ acts := by
  have hat := phase_run env hb acts
  constructor
  · rw [startups_run env hs hb h]
    exact Bool.toNat_le _
  · intro id reply root hw
    rw [run_snoc]
    cases hp : phase env s₀ acts with
    | fresh =>
      rw [hp] at hat
      have hh : (run env s₀ acts).shared.background.held = false := hat.held
      have hl : (run env s₀ acts).shared.background.launched = false := hat.launched
      dsimp only
      rw [outcome?_turn env reply hw]
      simp only [Work.resume, Work.start, Supervisor.start, Supervisor.launch, hh, hl, Bool.false_eq_true, if_false]
      rfl
    | running =>
      rw [hp] at hat
      have hh : (run env s₀ acts).shared.background.held = true := hat.held
      refine answered_turn env hw ?_
      simp only [Work.resume, Work.start, Supervisor.start, Supervisor.launch, hh, if_true]
      rfl
    | stopped =>
      rw [hp] at hat
      have hh : (run env s₀ acts).shared.background.held = false := hat.held
      have hl : (run env s₀ acts).shared.background.launched = true := hat.launched
      refine answered_turn env hw ?_
      simp only [Work.resume, Work.start, Supervisor.start, Supervisor.launch, hh, hl, Bool.false_eq_true, if_false, if_true]
      rfl
  · exact fun id reply root => stop_idle env hb
  · exact fun part id reply rest w root o => quiesced_run env hs hb hfree h

/-- The runner is stopped while its startup waits for the record, which then cannot be read. -/
def stoppedAmidReading : List Action :=
  [.request (.runnerStart (.root 0)), .turn 0 .granted, .turn 2 .granted,
    .request (.runnerStop (.root 0)), .turn 3 .granted, .turn 2 (.failed (.reported ["disk full"])),
    .turn 3 .granted, .turn 1 .granted, .turn 3 .granted]

theorem runner_lifecycle_failing_amid_stop :
    let s₀ := opened [] (fun _ => []) [1]
    let s := run .plain s₀ stoppedAmidReading
    let restarted := stoppedAmidReading ++ [.request (.runnerStart (.root 0))]
    s.shared.isCancelled (.root 0) ∧
    (∃ error, s.outcome? 3 = some (.stopped (.error error)) ∧ error.chain =
      ["epoch sync aborted", Startup.unreadable, Startup.unreadable, "failed to read progress metadata", "disk full"]) ∧
    run .plain s₀ (restarted ++ [.turn 4 .granted]) = (run .plain s₀ restarted).answered 4 (.error .alreadyRan) := by
  dsimp only
  have hlifecycle := fun acts => runner_lifecycle .plain (opened_idle [] (fun _ => []) [1]) rfl rfl acts
  obtain ⟨o, ho⟩ : ∃ o, (run .plain (opened [] (fun _ => []) [1]) stoppedAmidReading).outcome? 3 = some o :=
    Option.isSome_iff_exists.1 (by decide +kernel)
  have hquiesced := (hlifecycle stoppedAmidReading (by decide)).stop (stoppedAmidReading.take 4) 3 .granted
    (stoppedAmidReading.drop 5) (.asked (.runnerStop (.root 0))) (.root 0) o rfl (by decide +kernel) rfl
    (by decide +kernel) (by decide +kernel) ho
  refine ⟨hquiesced.cancelled, ?_, ?_⟩
  · have hfirst : firstFatal? .plain (opened [] (fun _ => []) [1]) stoppedAmidReading =
        some (Startup.unreadable, .readRecord (.reported ["disk full"])) := by decide +kernel
    have hresult := hquiesced.result
    rw [hfirst] at hresult
    obtain ⟨error, rfl, hchain⟩ := hresult
    exact ⟨error, ho, hchain⟩
  · have hphase : phase .plain (opened [] (fun _ => []) [1])
        (stoppedAmidReading ++ [.request (.runnerStart (.root 0))]) = .stopped := by decide +kernel
    have hstart := (hlifecycle (stoppedAmidReading ++ [.request (.runnerStart (.root 0))]) (by decide)).start 4 .granted
      (.root 0) (by decide +kernel)
    rw [hphase] at hstart
    exact hstart

/-- Where the stream ends while the runner stops, startup may meet the cancelled token or the end. -/
example :
    let met := fun lag => firstFatal? { Setup.plain with lag := fun _ => lag } (opened [] (fun _ => []) [0])
      (.request (.runnerStart (.root 0)) :: .turn 0 .granted :: List.replicate 7 (.turn 2 .granted) ++
        [.change .endStream, .request (.runnerStop (.root 0)), .turn 3 .granted, .turn 2 .granted])
    met 0 = none ∧ met 1 = some (Startup.stopped, .streamClosed) := by
  decide +kernel

end System

end CommitteeSync
