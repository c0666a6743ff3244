/-
  CommitteeSync.Proofs.History — interruptions and the order of triggers leave no trace.

  A history is a run in which only triggers come, one at a time; calls may fail and tokens be
  cancelled anywhere. What it leaves behind depends only on how far it got: if the farthest
  target of all was reached by a trigger that ended well, the committees and the record are
  those that one pass by itself leaves, from the first resume point up to that target
  (`history_as_one_pass`).

  The argument: epochs are committed in order from the first resume point (`InOrder`), none of
  them past the farthest target (`within_run`), and that one is among them (`covered_run`). So
  the history and the pass commit the same epochs, but for epochs that the history commits
  twice in a row, and the store is the replay of its commits (`replayed_run`).
-/

import CommitteeSync.Proofs.Triggers
import CommitteeSync.Proofs.Unbroken

namespace CommitteeSync

open Turn

variable (env : Setup)

/-! ## Histories -/

/-- Triggers come, and the chain serves the same all along. -/
def Action.inHistory : Action → Bool
  | .request r => r.isTrigger
  | .turn _ _ => true
  | .launch _ | .change (.serve _) => false
  | .change _ => true

def Task.isEnded : Task → Bool
  | .active _ => false
  | .ended _ => true

namespace System

variable {s s₀ : System} {acts : List Action} {a : Action} {n : Nat} {r : Request} {k : Task}

/-- No task is under way. -/
def atRest (s : System) : Bool := s.tasks.all Task.isEnded

/-- The requests of a run, in order. -/
def requests (acts : List Action) : List Request := acts.filterMap fun | .request r => some r | _ => none

/-- The targets of the triggers of a run that are over, and whether they ended well. -/
def targets (s₀ : System) (acts : List Action) : List (Epoch × Bool) :=
  ((requests acts).zip (run env s₀ acts).tasks).filterMap fun
    | (r, .ended o) => o.target? env r
    | _ => none

/-- Only triggers come, and each when all before it are over. -/
structure History (s₀ : System) (acts : List Action) : Prop where
  triggers : ∀ a ∈ acts, a.inHistory
  serial : ∀ part r, part ++ [.request r] <+: acts → (run env s₀ part).atRest

theorem History.of_prefix (h : History env s₀ acts) {part : List Action} (hp : part <+: acts) : History env s₀ part :=
  ⟨fun a ha => h.triggers a (hp.subset ha), fun before r hb => h.serial before r (hb.trans hp)⟩

theorem History.of_snoc (h : History env s₀ (acts ++ [a])) : History env s₀ acts := h.of_prefix env (List.prefix_append acts [a])

theorem History.last (h : History env s₀ (acts ++ [a])) : a.inHistory :=
  h.triggers a (List.mem_append_right _ (List.mem_singleton.2 rfl))

theorem History.fromRecord (h : History env s₀ acts) : Only Kind.fromRecord acts :=
  fun r hr => Request.fromRecord_of_trigger (h.triggers (.request r) hr)

theorem History.steady (h : History env s₀ acts) : Steady acts := fun _ hm => Bool.false_ne_true (h.triggers _ hm)

/-- Where the last action is a request, all before it are over. -/
def startsAtRest (s₀ : System) (part : List Action) : Bool :=
  match part.getLast? with
  | some (.request _) => (run env s₀ part.dropLast).atRest
  | _ => true

theorem history_iff : History env s₀ acts ↔ acts.all Action.inHistory ∧ acts.inits.all (startsAtRest env s₀) := by
  rw [List.all_eq_true, List.all_eq_true]
  constructor
  · refine fun h => ⟨h.triggers, fun part hp => ?_⟩
    unfold startsAtRest
    split
    · rename_i r hr
      refine h.serial part.dropLast r ?_
      rw [List.dropLast_append_getLast? _ hr]
      exact (List.mem_inits _ _).1 hp
    · rfl
  · refine fun h => ⟨h.1, fun part r hp => ?_⟩
    have hs := h.2 _ ((List.mem_inits _ _).2 hp)
    rwa [startsAtRest, List.getLast?_concat, List.dropLast_concat] at hs

instance : Decidable (History env s₀ acts) := decidable_of_iff _ (history_iff env).symm

theorem requests_request (acts : List Action) (r : Request) : requests (acts ++ [.request r]) = requests acts ++ [r] := by
  rw [requests, List.filterMap_append]
  rfl

theorem requests_other (acts : List Action) (ha : ∀ r, a ≠ .request r) : requests (acts ++ [a]) = requests acts := by
  rw [requests, List.filterMap_append]
  cases a with
  | request r => exact absurd rfl (ha r)
  | _ => exact List.append_nil _

/-! ## Tasks and their triggers -/

/-- A statement about the task that a turn leaves. -/
theorem yields_taskOf {t : Shared × Turn Work Outcome} {P : Task → Prop}
    (h : Yields t (fun _ w => P (.active w)) (fun _ o => P (.ended o))) : P (taskOf t.2) := by
  obtain ⟨sh, w | o⟩ := t <;> exact h

/-- The task of each number serves the trigger of that number. -/
structure Attended (s₀ : System) (acts : List Action) : Prop where
  length : (run env s₀ acts).tasks.length = (requests acts).length
  serves : ∀ (n : Nat) (r : Request) (k : Task), (requests acts)[n]? = some r → (run env s₀ acts).tasks[n]? = some k →
    k.Serves env r

theorem History.trigger (h : History env s₀ acts) (hr : r ∈ requests acts) : r.isTrigger := by
  obtain ⟨a, ha, hr⟩ := List.mem_filterMap.1 hr
  cases a with
  | request r' =>
    cases hr
    exact h.triggers _ ha
  | _ => cases hr

theorem launched_same {before after : Shared} (h : after.background.launched = before.background.launched) :
    launched before after = [] := by
  simp [launched, h]

/-- An action of a history is a trigger, a turn of a trigger's task, or neither adds nor changes a task. -/
theorem Attended.step_cases (ha : Attended env s₀ acts) (h : History env s₀ (acts ++ [a])) :
    (∃ r, a = .request r ∧ act env (run env s₀ acts) a = (run env s₀ acts).request r) ∨
    (∃ id reply w r, a = .turn id reply ∧ (requests acts)[id]? = some r ∧ (run env s₀ acts).work? id = some w ∧
      w.Serves env r ∧ act env (run env s₀ acts) a = ⟨(w.resume env (run env s₀ acts).shared reply).1,
        (run env s₀ acts).tasks.set id (taskOf (w.resume env (run env s₀ acts).shared reply).2)⟩) ∨
    ((∀ r, a ≠ .request r) ∧ (act env (run env s₀ acts) a).tasks = (run env s₀ acts).tasks ∧
      (act env (run env s₀ acts) a).shared.ledger = (run env s₀ acts).shared.ledger) := by
  have hin := h.last env
  cases a with
  | request r => exact Or.inl ⟨r, rfl, rfl⟩
  | launch root => cases hin
  | turn id reply =>
    right
    cases hw : (run env s₀ acts).work? id with
    | none =>
      rw [turn_of_none env reply hw]
      exact Or.inr ⟨by simp, rfl, rfl⟩
    | some w =>
      have htask := work?_eq_some.1 hw
      have hlt : id < (requests acts).length := ha.length ▸ (List.getElem?_eq_some_iff.1 htask).1
      have hr := List.getElem?_eq_getElem hlt
      have hserves : w.Serves env _ := ha.serves id _ _ hr htask
      have haside : w.kind ≠ .aside := by
        rw [hserves.kind_eq]
        rcases Request.kind_of_trigger ((h.of_snoc env).trigger env (List.mem_of_getElem? hr)) with hk | hk <;> rw [hk] <;> simp
      refine Or.inl ⟨id, reply, w, _, rfl, hr, hw, hserves, ?_⟩
      rw [turn_of_some env reply hw, launched_same ((Work.resume_effects env _ w reply).launched haside), List.append_nil]
  | change c => exact Or.inr (Or.inr ⟨by simp, rfl, change_ledger env c _⟩)

/-- Where the task of a trigger after an action comes from. -/
theorem Attended.came (ha : Attended env s₀ acts) (h : History env s₀ (acts ++ [a]))
    (hr : (requests (acts ++ [a]))[n]? = some r) (hk : (run env s₀ (acts ++ [a])).tasks[n]? = some k) :
    (a = .request r ∧ k = .active (.asked r)) ∨
    (∃ reply w, a = .turn n reply ∧ (run env s₀ acts).work? n = some w ∧ w.Serves env r ∧ (requests acts)[n]? = some r ∧
      k = taskOf (w.resume env (run env s₀ acts).shared reply).2) ∨
    ((requests acts)[n]? = some r ∧ (run env s₀ acts).tasks[n]? = some k) := by
  rw [run_snoc] at hk
  rcases ha.step_cases env h with ⟨r', rfl, hact⟩ | ⟨id, reply, w, r', rfl, hr', hw, hserves, hact⟩ | ⟨hne, htasks, -⟩
  · rw [hact, request, List.getElem?_append, ha.length] at hk
    rw [requests_request, List.getElem?_append] at hr
    split at hk
    · rename_i hlt
      rw [if_pos hlt] at hr
      exact Or.inr (Or.inr ⟨hr, hk⟩)
    · rename_i hge
      rw [if_neg hge] at hr
      rw [List.mem_singleton.1 (List.mem_of_getElem? hr), List.mem_singleton.1 (List.mem_of_getElem? hk)]
      exact Or.inl ⟨rfl, rfl⟩
  · rw [requests_other acts (by simp)] at hr
    rw [hact, List.getElem?_set] at hk
    split at hk
    · rename_i hid
      subst hid
      cases hr'.symm.trans hr
      split at hk
      · exact Or.inr (Or.inl ⟨reply, w, rfl, hw, hserves, hr, (Option.some_inj.1 hk).symm⟩)
      · cases hk
    · exact Or.inr (Or.inr ⟨hr, hk⟩)
  · rw [requests_other acts hne] at hr
    rw [htasks] at hk
    exact Or.inr (Or.inr ⟨hr, hk⟩)

theorem attended_run (hs : s₀.Idle) (h : History env s₀ acts) : Attended env s₀ acts := by
  induction acts using List.reverseRecOn with
  | nil => exact ⟨by rw [run_nil, hs.noTask]; rfl, fun n r k hr => by cases hr⟩
  | append_singleton acts a ih =>
    have ha := ih (h.of_snoc env)
    refine ⟨?_, fun n r k hr hk => ?_⟩
    · rw [run_snoc]
      rcases ha.step_cases env h with ⟨r, rfl, hact⟩ | ⟨id, reply, w, r, rfl, hr, hw, hserves, hact⟩ | ⟨hne, htasks, -⟩
      · rw [hact, requests_request, request, List.length_append, List.length_append, ha.length]
        rfl
      · rw [hact, requests_other acts (by simp), List.length_set, ha.length]
      · rw [htasks, requests_other acts hne, ha.length]
    · have ht := h.trigger env (List.mem_of_getElem? hr)
      rcases ha.came env h hr hk with ⟨-, rfl⟩ | ⟨reply, w, -, -, hserves, -, rfl⟩ | ⟨hr, hk⟩
      · exact rfl
      · exact yields_taskOf (P := fun k => k.Serves env r) (Work.resume_serves env ht hserves)
      · exact ha.serves n r k hr hk

theorem Attended.exists_request (ha : Attended env s₀ acts) (hk : (run env s₀ acts).tasks[n]? = some k) :
    ∃ r, (requests acts)[n]? = some r ∧ k.Serves env r := by
  have hlt : n < (requests acts).length := ha.length ▸ (List.getElem?_eq_some_iff.1 hk).1
  have hr := List.getElem?_eq_getElem hlt
  exact ⟨_, hr, ha.serves n _ k hr hk⟩

/-! ## One at a time -/

theorem work?_of_atRest (h : s.atRest) (id : Nat) : s.work? id = none := by
  cases hw : s.work? id with
  | none => rfl
  | some w => exact absurd (List.all_eq_true.1 h _ (List.mem_of_getElem? (work?_eq_some.1 hw))) Bool.false_ne_true

theorem Attended.active_act (ha : Attended env s₀ acts) (h : History env s₀ (acts ++ [a])) {id : Nat} {w' : Work}
    (hw' : (act env (run env s₀ acts) a).work? id = some w') :
    (∃ r, a = .request r ∧ id = (run env s₀ acts).tasks.length) ∨ ∃ w, (run env s₀ acts).work? id = some w := by
  have htask := work?_eq_some.1 hw'
  rcases ha.step_cases env h with ⟨r, rfl, hact⟩ | ⟨id₀, reply, w, r, rfl, -, hw, -, hact⟩ | ⟨-, htasks, -⟩
  · -- A trigger comes when all before it are over.
    have hrest := h.serial acts r (List.prefix_refl _)
    rw [hact, request, List.getElem?_append] at htask
    split at htask
    · have hnone := work?_of_atRest hrest id
      rw [work?_eq_some.2 htask] at hnone
      cases hnone
    · rename_i hge
      have hlt := (List.getElem?_eq_some_iff.1 htask).1
      rw [List.length_singleton] at hlt
      exact Or.inl ⟨r, rfl, by omega⟩
  · by_cases hid : id₀ = id
    · exact Or.inr ⟨w, hid ▸ hw⟩
    · rw [hact, List.getElem?_set_ne hid] at htask
      exact Or.inr ⟨w', work?_eq_some.2 htask⟩
  · rw [htasks] at htask
    exact Or.inr ⟨w', work?_eq_some.2 htask⟩

/-- No two tasks are under way. -/
theorem History.one (hs : s₀.Idle) (h : History env s₀ acts) {id id' : Nat} {w w' : Work} (hw : (run env s₀ acts).work? id = some w)
    (hw' : (run env s₀ acts).work? id' = some w') : id = id' := by
  induction acts using List.reverseRecOn generalizing w w' with
  | nil =>
    rw [run_nil, hs.work?] at hw
    cases hw
  | append_singleton acts a ih =>
    have ha := attended_run env hs (h.of_snoc env)
    rw [run_snoc] at hw hw'
    rcases ha.active_act env h hw with ⟨r, hr, hid⟩ | ⟨v, hv⟩
    · rcases ha.active_act env h hw' with ⟨-, -, hid'⟩ | ⟨v', hv'⟩
      · rw [hid, hid']
      · rw [hr] at h
        rw [work?_of_atRest (h.serial acts r (List.prefix_refl _))] at hv'
        cases hv'
    · rcases ha.active_act env h hw' with ⟨r, hr, -⟩ | ⟨v', hv'⟩
      · rw [hr] at h
        rw [work?_of_atRest (h.serial acts r (List.prefix_refl _))] at hv
        cases hv
      · exact ih (h.of_snoc env) hv hv'

theorem History.noOverlap (hs : s₀.Idle) (h : History env s₀ acts) : NoOverlap env s₀ acts := by
  rintro part hp id other ⟨hne, ho, ho', -⟩
  have hwork : ∀ {id}, (run env s₀ part).isOpen id → ∃ w, (run env s₀ part).work? id = some w := by
    intro id ho
    cases hw : (run env s₀ part).work? id with
    | none => simp [isOpen, guarded, direct, hw] at ho
    | some w => exact ⟨w, rfl⟩
  obtain ⟨w, hw⟩ := hwork ho
  obtain ⟨w', hw'⟩ := hwork ho'
  exact hne ((h.of_prefix env hp).one env hs hw hw')

theorem History.noOverride (hs : s₀.Idle) (h : History env s₀ acts) : NoOverride env s₀ acts := by
  intro part hp id hw
  obtain ⟨r, -, hserves⟩ := (attended_run env hs (h.of_prefix env hp)).exists_request env (work?_eq_some.1 hw)
  cases r <;> cases hserves

/-! ## What a history has come to -/

variable {r₀ : Record}

/-- Some trigger aims, or aimed, as far as `epoch`. -/
def WithinGoal (s₀ : System) (acts : List Action) (epoch : Epoch) : Prop :=
  ∃ (n : Nat) (r : Request) (k : Task) (t : Epoch), (requests acts)[n]? = some r ∧ (run env s₀ acts).tasks[n]? = some k ∧
    k.goal? env r = some t ∧ epoch ≤ t

theorem WithinGoal.snoc (ha : Attended env s₀ acts) (h : History env s₀ (acts ++ [a])) {epoch : Epoch}
    (he : WithinGoal env s₀ acts epoch) : WithinGoal env s₀ (acts ++ [a]) epoch := by
  obtain ⟨n, r, k, t, hr, hk, hg, hle⟩ := he
  have hlt := (List.getElem?_eq_some_iff.1 hr).1
  have hlt' := (List.getElem?_eq_some_iff.1 hk).1
  unfold WithinGoal
  rw [run_snoc]
  rcases ha.step_cases env h with ⟨r', rfl, hact⟩ | ⟨id, reply, w, r', rfl, hr', hw, hserves, hact⟩ | ⟨hne, htasks, -⟩
  · rw [requests_request, hact]
    exact ⟨n, r, k, t, by rw [List.getElem?_append_left hlt, hr], by rw [request, List.getElem?_append_left hlt', hk], hg, hle⟩
  · rw [requests_other acts (by simp), hact]
    by_cases hid : id = n
    · subst hid
      cases hr.symm.trans hr'
      cases hk.symm.trans (work?_eq_some.1 hw)
      have hy : Yields (w.resume env (run env s₀ acts).shared reply) _ _ := Work.resume_goal env hserves hg
      obtain ⟨t', hg', hle'⟩ := yields_taskOf (P := fun k => ∃ t', k.goal? env r = some t' ∧ t ≤ t') hy
      exact ⟨id, r, _, t', hr, List.getElem?_set_self hlt', hg', UInt64.le_trans hle hle'⟩
    · exact ⟨n, r, k, t, hr, by rw [List.getElem?_set_ne hid, hk], hg, hle⟩
  · rw [requests_other acts hne, htasks]
    exact ⟨n, r, k, t, hr, hk, hg, hle⟩

/-- Nothing is committed past the goals of the triggers. -/
theorem within_run (hs : s₀.Idle) (h : History env s₀ acts) (h₀ : recorded env s₀ = .ok r₀) {e : Epoch}
    (he : e ∈ (run env s₀ acts).shared.commitLog) : WithinGoal env s₀ acts e := by
  induction acts using List.reverseRecOn with
  | nil =>
    rw [run_nil, hs.log] at he
    cases he
  | append_singleton acts a ih =>
    have hbefore := h.of_snoc env
    have ha := attended_run env hs hbefore
    rw [run_snoc] at he
    rcases standing_act env hs (Only.not_stage (hbefore.fromRecord env)) a with hsame | ⟨id, epoch, tx, written, rfl, hv, hcommit⟩
    · rw [show (act env (run env s₀ acts) a).shared.commitLog = _ from congrArg Standing.log hsame] at he
      exact (ih hbefore he).snoc env ha h
    · rw [show (act env (run env s₀ acts) (.turn id .granted)).shared.commitLog = _ from congrArg Standing.log hcommit] at he
      rcases List.mem_append.1 he with he | he
      · exact (ih hbefore he).snoc env ha h
      · rw [List.mem_singleton.1 he]
        obtain ⟨w, hw, hv⟩ := write?_eq_some.1 hv
        obtain ⟨r, hr, hserves⟩ := ha.exists_request env (work?_eq_some.1 hw)
        have hlaw := (gapless_lawful env (hbefore.noOverride env hs) hs (hbefore.fromRecord env) h₀).2 id w hw
        obtain ⟨t, hg, hle⟩ := Work.write_le_goal env hserves hlaw hv
        exact WithinGoal.snoc env ha h ⟨id, r, _, t, hr, work?_eq_some.1 hw, hg, hle⟩

/-- What ended well has its target committed, unless that was before the first epoch. -/
theorem covered_run (hs : s₀.Idle) (h : History env s₀ acts) (h₀ : recorded env s₀ = .ok r₀) {o : Outcome} {t : Epoch}
    (hr : (requests acts)[n]? = some r) (ho : (run env s₀ acts).tasks[n]? = some (.ended o))
    (ht : o.target? env r = some (t, true)) (hf : r₀.resumePoint none ≤ t) : t ∈ (run env s₀ acts).shared.commitLog := by
  induction acts using List.reverseRecOn with
  | nil => cases hr
  | append_singleton acts a ih =>
    have hbefore := h.of_snoc env
    have ha := attended_run env hs hbefore
    rcases ha.came env h hr ho with ⟨-, hk⟩ | ⟨reply, w, rfl, hw, hserves, hr, hk⟩ | ⟨hr, hk⟩
    · cases hk
    · obtain ⟨hg, hlaw⟩ := gapless_lawful env (hbefore.noOverride env hs) hs (hbefore.fromRecord env) h₀
      have htrigger := hbefore.trigger env (List.mem_of_getElem? hr)
      have hy : Yields (w.resume env (run env s₀ acts).shared reply) _ _ :=
        Work.resume_covers env h₀ htrigger hserves hg (hlaw n w hw)
      rw [run_snoc, shared_turn env reply hw]
      rcases hres : w.resume env (run env s₀ acts).shared reply with ⟨sh', w' | o'⟩
      · rw [hres] at hk
        cases hk
      · rw [hres] at hk hy
        cases hk
        exact hy t ht hf
    · have hm := ih hbefore hr hk
      rw [run_snoc]
      rcases standing_act env hs (Only.not_stage (hbefore.fromRecord env)) a with hsame | ⟨id, epoch, tx, written, rfl, hv, hcommit⟩
      · rw [show (act env (run env s₀ acts) a).shared.commitLog = _ from congrArg Standing.log hsame]
        exact hm
      · rw [show (act env (run env s₀ acts) (.turn id .granted)).shared.commitLog = _ from congrArg Standing.log hcommit]
        exact List.mem_append_left _ hm

theorem mem_targets {t : Epoch} {well : Bool} : (t, well) ∈ targets env s₀ acts ↔
    ∃ (n : Nat) (r : Request) (o : Outcome), (requests acts)[n]? = some r ∧ (run env s₀ acts).tasks[n]? = some (.ended o) ∧
      o.target? env r = some (t, well) := by
  rw [targets, List.mem_filterMap]
  constructor
  · rintro ⟨⟨r, k⟩, hm, ht⟩
    obtain ⟨n, hn⟩ := List.mem_iff_getElem?.1 hm
    obtain ⟨hr, hk⟩ := List.getElem?_zip_eq_some.1 hn
    cases k with
    | active w => cases ht
    | ended o => exact ⟨n, r, o, hr, hk, ht⟩
  · rintro ⟨n, r, o, hr, ho, ht⟩
    exact ⟨(r, .ended o), List.mem_iff_getElem?.2 ⟨n, List.getElem?_zip_eq_some.2 ⟨hr, ho⟩⟩, ht⟩

/-- When all is over, nothing has been committed past the targets. -/
theorem le_of_targets (hs : s₀.Idle) (h : History env s₀ acts) (h₀ : recorded env s₀ = .ok r₀) (hrest : (run env s₀ acts).atRest)
    {last e : Epoch} (hmax : ∀ x ∈ targets env s₀ acts, x.1 ≤ last) (he : e ∈ (run env s₀ acts).shared.commitLog) : e ≤ last := by
  obtain ⟨n, r, k, t, hr, hk, hg, hle⟩ := within_run env hs h h₀ he
  have hended := List.all_eq_true.1 hrest k (List.mem_of_getElem? hk)
  cases k with
  | active w => cases hended
  | ended o =>
    obtain ⟨well, ht⟩ := Outcome.target?_of_goal env ((attended_run env hs h).serves n r _ hr hk) hg
    exact UInt64.le_trans hle (hmax (t, well) ((mem_targets env).2 ⟨n, r, o, hr, hk, ht⟩))

/-- A history that is over, and whose farthest target was reached by a trigger that ended well,
    has left the committees and the record that one pass by itself leaves. -/
theorem history_as_one_pass (hs : s₀.Idle) (h : History env s₀ acts) (h₀ : recorded env s₀ = .ok r₀)
    (hrest : (run env s₀ acts).atRest) {last : Epoch} (hlast : (last, true) ∈ targets env s₀ acts)
    (hmax : ∀ x ∈ targets env s₀ acts, x.1 ≤ last) {token : Token} (htoken : s₀.shared.isCancelled token = false) :
    let s := run env s₀ acts
    let first := r₀.resumePoint none
    (∃ n report,
      let one := run env s₀ (lonePass token first last n)
      one.outcome? 0 = some (.pass report) ∧ report.isCompleted ∧
      s.shared.store.committees = one.shared.store.committees ∧ recorded env s = recorded env one) ∧
    (last < first → s.shared.store.committees = s₀.shared.store.committees ∧ recorded env s = recorded env s₀) := by
  dsimp only
  have hfrom := h.fromRecord env
  have hover := h.noOverride env hs
  have hreplayed := replayed_run env hs (Only.not_stage hfrom) (h.steady env)
  have hmem : r₀.resumePoint none ≤ last → last ∈ (run env s₀ acts).shared.commitLog := by
    intro hf
    obtain ⟨n, r, o, hr, ho, ht⟩ := (mem_targets env).1 hlast
    exact covered_run env hs h h₀ hr ho ht hf
  have hord : InOrder _ _ _ := (inOrder_run env hover hs hfrom h₀ (h.noOverlap env hs)).1
  obtain ⟨hreplay, hend⟩ := replay_inOrder env hord.head hord.chain (fun e he => le_of_targets env hs h h₀ hrest hmax he) hmem
  constructor
  · -- The history has committed every epoch of the pass, so the chain serves all of each.
    have hwhole : ∀ e ∈ upTo (r₀.resumePoint none) last, ∀ a ∈ s₀.shared.chain (env.layout.firstSlot e),
        env.layout.epochOf a.slot = e := by
      intro e he
      obtain ⟨hf, hle⟩ := mem_upTo he
      have hm := hmem (UInt64.le_trans hf hle)
      refine hreplayed.whole e ?_
      by_cases heq : e = last
      · rw [heq]
        exact hm
      · exact ((gapless_lawful env hover hs hfrom h₀).1.reaches last hm).2 e hf (UInt64.lt_of_le_of_ne hle heq)
    obtain ⟨n, report, hout, hc, hlog⟩ := lonePass_completes env hs htoken hwhole
    have hone := replayed_run env hs (lonePass_only token (r₀.resumePoint none) last n) (lonePass_steady token _ last n)
    refine ⟨n, report, hout, hc, ?_, ?_⟩
    · rw [hreplayed.committees, hone.committees, hlog]
      exact hreplay _
    · rw [recorded, recorded, hreplayed.stored, hone.stored, hlog]
      exact congrArg (fun e => Record.decode ((Option.map _ e).or _)) hend
  · intro hlt
    rw [upTo_empty hlt] at hend
    have hlog : (run env s₀ acts).shared.commitLog = [] := List.getLast?_eq_none_iff.1 hend
    refine ⟨by rw [hreplayed.committees, hlog]; rfl, ?_⟩
    rw [recorded, hreplayed.stored, hlog]
    rfl

/-- Two committees for every slot that is asked for. -/
def twoEach : Slot → List Assignment := fun slot => [⟨slot, 0, [7]⟩, ⟨slot + 1, 3, [8, 9]⟩]

/-- A catch-up up to epoch 1 fails after epoch 0. The event of epoch 2 is cancelled after
    epoch 1 and then comes again, and the event of epoch 1 comes last of all. -/
def brokenUp : List Action :=
  .request (.catchUp (.root 0)) :: List.replicate 9 (.turn 0 .granted) ++ .turn 0 (.failed (.reported ["node offline"])) ::
  .request (.head .service (.root 0) ⟨8, true⟩) :: List.replicate 15 (.turn 1 .granted) ++
  .change (.cancel (.root 0)) :: .turn 1 .granted ::
  .request (.head .service (.root 1) ⟨8, true⟩) :: List.replicate 9 (.turn 2 .granted) ++
  .request (.head .service (.root 1) ⟨4, true⟩) :: List.replicate 2 (.turn 3 .granted)

/-- What came of the four triggers is what one pass from epoch 0 up to epoch 2 leaves. -/
theorem history_as_one_pass_broken_up :
    let s₀ := opened [] twoEach [1]
    let s := run .plain s₀ brokenUp
    targets .plain s₀ brokenUp = [(1, false), (2, false), (2, true), (1, true)] ∧ s.shared.commitLog = [0, 0, 1, 2] ∧
    ∃ n report,
      let one := run .plain s₀ (lonePass (.root 1) 0 2 n)
      one.outcome? 0 = some (.pass report) ∧ report.isCompleted ∧
      s.shared.store.committees = one.shared.store.committees ∧ recorded .plain s = recorded .plain one := by
  dsimp only
  have htargets : targets .plain (opened [] twoEach [1]) brokenUp = [(1, false), (2, false), (2, true), (1, true)] := by
    decide +kernel
  have hmax : ∀ x ∈ targets .plain (opened [] twoEach [1]) brokenUp, x.1 ≤ 2 := by
    rw [htargets]
    simp only [List.forall_mem_cons]
    exact ⟨by decide, by decide, by decide, by decide, nofun⟩
  have hlast : ((2 : Epoch), true) ∈ targets .plain (opened [] twoEach [1]) brokenUp := by simp [htargets]
  have h₀ : recorded .plain (opened [] twoEach [1]) = .ok ⟨0⟩ := rfl
  refine ⟨htargets, by decide +kernel, ?_⟩
  exact (history_as_one_pass .plain (opened_idle [] twoEach [1]) (by decide +kernel) h₀ (by decide +kernel) hlast hmax
    (rfl : (opened [] twoEach [1]).shared.isCancelled (.root 1) = false)).1

end System

end CommitteeSync
