/-
  CommitteeSync.Proofs.TaskCalls — the calls that a task makes, turn by turn.

  Calls are made in the turns of tasks and nowhere else, so the calls of a run come apart into
  the calls of its tasks (`System.callsBy`).

  Proved:
  (1) In a turn of any task but a staging request the open write goes on, or it is over and
      the task has gone on without it, or there was none (`System.turned`).
  (2) Such a turn makes at most one call, the one whose reply the task then waits for
      (`System.calls_turn`). No other action makes a call or touches the store
      (`System.act_account`).
-/

import CommitteeSync.Proofs.Staged

namespace CommitteeSync

open Turn

variable (env : Setup)

/-! ## The wait for a reply -/

theorem EpochWrite.call?_waitsFor (token token' : Token) (epoch : Epoch) (w : EpochWrite) :
    (w.waitsFor env token epoch).call? = (w.waitsFor env token' epoch).call? := by
  cases w <;> rfl

theorem HeadUpdate.call?_waitsFor (token token' : Token) (u : HeadUpdate) :
    (u.waitsFor env token).call? = (u.waitsFor env token').call? := by
  cases u with
  | reading epoch => rfl
  | direct epoch write => exact EpochWrite.call?_waitsFor env token token' epoch write
  | filling epoch pass => exact EpochWrite.call?_waitsFor env token token' pass.epoch pass.write

/-- Which call is waited for does not depend on the token that the background run is under. -/
theorem Work.call?_waitsFor (run run' : Token) (w : Work) :
    (w.waitsFor env run).call? = (w.waitsFor env run').call? := by
  cases w with
  | startup s =>
    cases s with
    | reading => rfl
    | following f => exact EpochWrite.call?_waitsFor env run run' f.pass.epoch f.pass.write
    | subscribing => rfl
    | listening feed l =>
      cases l with
      | idle => rfl
      | handling u => exact HeadUpdate.call?_waitsFor env run run' u
  | _ => rfl

theorem HeadUpdate.waitsFor_open {u : HeadUpdate} {epoch : Epoch} {v : EpochWrite} (h : u.write? = some (epoch, v))
    (token : Token) :
    u.waitsFor env token = v.waitsFor env token epoch := by
  cases u with
  | reading e => cases h
  | direct e write => cases h; rfl
  | filling e pass => cases h; rfl

theorem Listener.waitsFor_open {l : Listener} {epoch : Epoch} {v : EpochWrite} (h : l.write? = some (epoch, v))
    (token : Token)
    (feed : Nat) : l.waitsFor env token feed = v.waitsFor env token epoch := by
  cases l with
  | idle => cases h
  | handling u => exact HeadUpdate.waitsFor_open env h token

/-- A task with an open write waits for what the write waits for. -/
theorem Work.waitsFor_open {w : Work} {run token : Token} {epoch : Epoch} {v : EpochWrite}
    (h : w.write? = some (epoch, v))
    (ht : w.token? run = some token) : w.waitsFor env run = v.waitsFor env token epoch := by
  cases w with
  | asked r => cases h
  | catchUp token c =>
    cases ht
    cases c with
    | reading => cases h
    | following f => cases h; rfl
  | range token r => cases ht; cases h; rfl
  | head guard token u => cases ht; exact HeadUpdate.waitsFor_open env h token
  | writeEpoch token epoch w => cases ht; cases h; rfl
  | pass token pass => cases ht; cases h; rfl
  | listen token feed l => cases ht; exact Listener.waitsFor_open env h token feed
  | startup s =>
    cases ht
    cases s with
    | reading => cases h
    | following f => cases h; rfl
    | subscribing => cases h
    | listening feed l => exact Listener.waitsFor_open env h run feed
  | _ => cases ht

namespace System

variable {s s₀ s' : System} {acts : List Action} {id : Nat} {reply : Reply} {w : Work}

/-! ## One turn of a task -/

/-- The call whose reply the task waits for. -/
def pending? (s : System) (id : Nat) : Option Call := (s.waitsFor? env id).bind Wait.call?

/-- The token that the task handles epochs under. -/
def token? (s : System) (id : Nat) : Option Token := (s.work? id).bind (·.token? s.shared.runToken)

/-- Whether the task may ask for the record in its next turn. -/
def mayAsk (s : System) (id : Nat) : Bool := (s.work? id).any Work.mayAsk

/-- Whether the task is a listener. -/
def listens (s : System) (id : Nat) : Bool := (s.work? id).any Work.listens

/-- In its turn the task finds that the record it asked for a head event cannot be read. -/
def misses (s : System) (id : Nat) (reply : Reply) : Bool := (s.work? id).any (·.misses env s.shared reply)

theorem pending?_of_some (hw : s.work? id = some w) : s.pending? env id = (w.waitsFor env s.shared.runToken).call? := by
  simp only [pending?, waitsFor?, hw, Option.map_some, Option.bind_some]

theorem pending?_of_none (hw : s.work? id = none) : s.pending? env id = none := by
  simp only [pending?, waitsFor?, hw, Option.map_none, Option.bind_none]

theorem write?_of_some (hw : s.work? id = some w) : s.write? id = w.write? := by
  simp only [write?, hw, Option.bind_some]

theorem write?_of_none (hw : s.work? id = none) : s.write? id = none := by
  simp only [write?, hw, Option.bind_none]

/-- A task with an open write waits for the reply that the write waits for. -/
theorem pending?_of_write {epoch : Epoch} {v : EpochWrite} (h : s.write? id = some (epoch, v)) (token : Token) :
    s.pending? env id = (v.waitsFor env token epoch).call? := by
  obtain ⟨w, hw, hv⟩ := write?_eq_some.1 h
  obtain ⟨token', ht, -⟩ := Work.resume_open env s.shared .granted hv
  rw [pending?_of_some env hw, Work.waitsFor_open env hv ht, EpochWrite.call?_waitsFor]

/-- The task waits for the record, with no write open. -/
structure AsksRecord (s : System) (id : Nat) : Prop where
  closed : s.write? id = none
  pending : s.pending? env id = some (.metadata env.metadataKey)

/-- From `sh` the task has gone on to `s'` with no write open. -/
structure WentOn (sh : Shared) (token? : Option Token) (mayAsk : Bool) (s' : System) (id : Nat) : Prop where
  account : s'.shared.account = sh.account.ask (s'.pending? env id)
  fresh : ∀ epoch v, s'.write? id = some (epoch, v) → v = .beginning
  /-- Under a cancelled token the task is over, or it asks for the record where it may. -/
  stops : ∀ t ∈ token?, sh.isCancelled t → s'.work? id = none ∨ mayAsk ∧ AsksRecord env s' id

theorem WentOn.store {sh : Shared} {token? : Option Token} {mayAsk : Bool} (h : WentOn env sh token? mayAsk s' id) :
    s'.shared.store = sh.store :=
  congrArg Account.store h.account

/-- A task that waits after its turn is of the kind it was of, under the token it was under. -/
theorem turn_keeps {w w' : Work} (hw : s.work? id = some w) (hw' : (act env s (.turn id reply)).work? id = some w') :
    w'.kind = w.kind ∧ ∀ run, w'.token? run = w.token? run := by
  obtain ⟨w₀, hw₀, hr⟩ := work?_turn_eq_some env hw'
  cases hw.symm.trans hw₀
  have hk := w.resume_kind env s.shared reply
  rw [hr] at hk
  refine ⟨hk, fun run => ?_⟩
  have ht : Yields (w.resume env s.shared reply) (fun _ w' => w'.token? run = w.token? run) _ := Work.resume_token run w
  rw [hr] at ht
  exact ht

/-- A write that is open after an action of others was open before. -/
theorem write?_before {a : Action} {ev : Epoch × EpochWrite} (ha : ∀ reply, a ≠ .turn id reply)
    (h : (act env s a).write? id = some ev) : s.write? id = some ev := by
  obtain ⟨w', hw', hv⟩ := Option.bind_eq_some_iff.1 h
  cases came env hw' with
  | turn reply w he => exact absurd he (ha reply)
  | kept _ hw => rw [write?_of_some hw, hv]
  | asked r _ hr =>
    subst hr
    cases hv

/-- What a turn of the task comes to, from `s` to `s'`. -/
inductive Turned (s : System) (id : Nat) (reply : Reply) (s' : System) : Prop
  /-- The open write makes its next call. -/
  | advances (token : Token) (epoch : Epoch) (v v' : EpochWrite) :
      s.write? id = some (epoch, v) → s.token? id = some token →
      v.resume env token epoch s.shared reply = (s'.shared, .waits v') →
      v.Advances env token epoch s.shared reply s'.shared v' → s'.write? id = some (epoch, v') → Turned s id reply s'
  /-- The open write is over, and the task goes on from there. -/
  | closes (token : Token) (epoch : Epoch) (v : EpochWrite) (sh : Shared) :
      s.write? id = some (epoch, v) → s.token? id = some token → sh.tokens = s.shared.tokens →
      v.Closes s.shared.account (s.shared.isCancelled token) reply sh.account →
      WentOn env sh (some token) (s.mayAsk id) s' id → Turned s id reply s'
  /-- No write was open. -/
  | closed : s.write? id = none →
      WentOn env (s.shared.missing (s.misses env id reply)) (s.token? id) (s.mayAsk id) s' id → Turned s id reply s'

theorem wentOn_of_proceeds {sh : Shared} {token? : Option Token} {mayAsk : Bool} {run : Token}
    {t : Shared × Turn Work Outcome} (h : sh.Proceeds env token? mayAsk Work.write? (Work.waitsFor env run) t)
    (hs : s'.shared = t.1) (hw : s'.work? id = match t.2 with | .waits w => some w | .ends _ => none) :
    WentOn env sh token? mayAsk s' id := by
  obtain ⟨sh', w | o⟩ := t
  · have h : sh.Opens env token? mayAsk sh' w.write? (w.waitsFor env run) := h
    have hpending : s'.pending? env id = (w.waitsFor env run).call? := by
      rw [pending?_of_some env hw, Work.call?_waitsFor env run]
    refine ⟨?_, ?_, fun t ht hc => ?_⟩
    · rw [hs, h.account, hpending]
    · rw [write?_of_some hw]
      exact h.fresh
    · obtain ⟨hmay, hclosed, hcall⟩ := h.stops t ht hc
      exact Or.inr ⟨hmay, by rw [write?_of_some hw, hclosed], by rw [hpending, hcall]⟩
  · have h : sh.Keeps sh' := h
    refine ⟨?_, ?_, fun _ _ _ => Or.inl hw⟩
    · rw [hs, h.account, pending?_of_none env hw, Account.ask_none]
    · rw [write?_of_none hw]
      exact nofun

/-- A turn of a task makes the next call of its open write, or closes it, or finds none. -/
theorem turned (hw : s.work? id = some w) (hk : w.kind ≠ .stage) (reply : Reply) :
    Turned env s id reply (act env s (.turn id reply)) := by
  have hshared := shared_turn env reply hw
  have hwork := work?_turn env reply hw
  cases hv : w.write? with
  | none =>
    refine .closed (by rw [write?_of_some hw, hv]) ?_
    have hp := Work.resume_closed env s.shared reply hk hv
    rw [mayAsk, token?, misses, hw]
    exact wentOn_of_proceeds env hp hshared hwork
  | some ev =>
    obtain ⟨epoch, v⟩ := ev
    obtain ⟨token, htoken, wrap, next, he, hwrap, hnext⟩ := Work.resume_open env s.shared reply hv
    have hs : s.write? id = some (epoch, v) := by rw [write?_of_some hw, hv]
    have ht : s.token? id = some token := by rw [token?, hw]; exact htoken
    have hm : s.mayAsk id = w.mayAsk := by rw [mayAsk, hw]; rfl
    have hcourse := v.resume_course env token epoch s.shared reply
    have hkept := congrArg Surroundings.tokens (v.resume_writes env token epoch s.shared reply).surroundings
    rw [he] at hshared hwork
    rcases hr : v.resume env token epoch s.shared reply with ⟨sh, v' | r⟩
    · rw [hr] at hshared hwork hcourse
      replace hwork : (act env s (.turn id reply)).work? id = some (wrap v') := hwork
      refine .advances token epoch v v' hs ht ?_ ?_ ?_
      · rw [hr, hshared]
        rfl
      · rw [hshared]
        exact hcourse
      · rw [write?_of_some hwork, (hwrap v').1]
    · rw [hr] at hshared hwork hcourse hkept
      exact .closes token epoch v sh hs ht hkept hcourse (hm ▸ wentOn_of_proceeds env (hnext sh r) hshared hwork)

/-! ## The account of any action -/

theorem change_account (c : Change) (sh : Shared) : (c.apply env sh).account = sh.account := by
  cases c with
  | send event => exact Shared.send_view Shared.account (fun _ _ _ => rfl) sh _ event
  | endStream => exact Shared.dropSender_view Shared.account (fun _ _ _ => rfl) sh
  | _ => rfl

/-- Only a turn touches the account. -/
theorem act_account {a : Action} (h : ∀ id reply w, a = .turn id reply → s.work? id ≠ some w) :
    (act env s a).shared.account = s.shared.account := by
  cases a with
  | request r => rfl
  | launch root => simp only [act]; split <;> rfl
  | turn id reply =>
    cases hw : s.work? id with
    | none => rw [turn_of_none env reply hw]
    | some w => exact absurd hw (h id reply w rfl)
  | change c => exact change_account env c s.shared

/-- A turn makes at most one call, and then the task waits for the reply to it. -/
theorem calls_turn (hw : s.work? id = some w) (hk : w.kind ≠ .stage) (reply : Reply) :
    (act env s (.turn id reply)).shared.calls =
      s.shared.calls ++ ((act env s (.turn id reply)).pending? env id).toList := by
  rw [← Shared.calls_account, ← Shared.calls_account]
  cases turned env hw hk reply with
  | advances token epoch v v' _ _ _ hadv hv' =>
    rw [hadv.account, pending?_of_write env hv' token, Account.calls_ask, EpochWrite.calls_granted]
  | closes token epoch v sh _ _ _ hcl hon =>
    rw [hon.account, Account.calls_ask, hcl.calls]
  | closed _ hon =>
    rw [hon.account, Account.calls_ask, Shared.account_missing, Account.calls_miss]

/-! ## Along a run -/

/-- What `f` finds in the actions of a run, in order. -/
def along {α : Type} (f : System → Action → List α) (s : System) : List Action → List α
  | [] => []
  | a :: acts => f s a ++ along f (act env s a) acts

theorem run_cons (s : System) (a : Action) (acts : List Action) :
    run env s (a :: acts) = run env (act env s a) acts := rfl

theorem run_append (s : System) (acts acts' : List Action) :
    run env s (acts ++ acts') = run env (run env s acts) acts' := by
  simp only [run, List.foldl_append]

theorem along_append {α : Type} (f : System → Action → List α) (s : System) (acts acts' : List Action) :
    along env f s (acts ++ acts') = along env f s acts ++ along env f (run env s acts) acts' := by
  induction acts generalizing s with
  | nil => rfl
  | cons a acts ih => rw [List.cons_append, along, along, ih, List.append_assoc, run_cons]

theorem along_snoc {α : Type} (f : System → Action → List α) (s : System) (acts : List Action) (a : Action) :
    along env f s (acts ++ [a]) = along env f s acts ++ f (run env s acts) a := by
  rw [along_append, along, along, List.append_nil]

theorem mem_along {α : Type} {f : System → Action → List α} {s : System} {x : α} :
    x ∈ along env f s acts ↔ ∃ before a since, acts = before ++ a :: since ∧ x ∈ f (run env s before) a := by
  induction acts generalizing s with
  | nil => simp [along]
  | cons a acts ih =>
    rw [along, List.mem_append, ih]
    constructor
    · rintro (hx | ⟨before, b, since, rfl, hx⟩)
      · exact ⟨[], a, acts, rfl, hx⟩
      · exact ⟨a :: before, b, since, rfl, hx⟩
    · rintro ⟨before, b, since, he, hx⟩
      cases before with
      | nil => cases he; exact Or.inl hx
      | cons a' before =>
        cases he
        exact Or.inr ⟨before, b, since, rfl, hx⟩

/-- The calls made in a turn of the task. -/
def callsOf (id : Nat) (s : System) : Action → List Call
  | .turn task reply =>
    if task = id then (act env s (.turn task reply)).shared.calls.drop s.shared.calls.length else []
  | _ => []

/-- The calls that the task makes in a run, in order. -/
def callsBy (id : Nat) (s : System) (acts : List Action) : List Call := along env (callsOf env id) s acts

/-- What is committed in a turn of the task. -/
def commitsOf (id : Nat) (s : System) : Action → List (Epoch × Transaction)
  | .turn task reply => if task = id then (s.commits? (.turn task reply)).toList else []
  | _ => []

/-- The epochs that the task commits in a run, with their transactions, in order. -/
def commitsBy (id : Nat) (s : System) (acts : List Action) : List (Epoch × Transaction) :=
    along env (commitsOf id) s acts

theorem commitsOf_other {a : Action} (h : ∀ reply, a ≠ .turn id reply) : commitsOf id s a = [] := by
  cases a with
  | turn task reply =>
    have hne : task ≠ id := fun he => h reply (by rw [he])
    rw [commitsOf, if_neg hne]
  | _ => rfl

theorem callsOf_turn (hw : s.work? id = some w) (hk : w.kind ≠ .stage) (reply : Reply) :
    callsOf env id s (.turn id reply) = ((act env s (.turn id reply)).pending? env id).toList := by
  rw [callsOf, if_pos rfl, calls_turn env hw hk, List.drop_left]

theorem callsOf_none (hw : s.work? id = none) (reply : Reply) : callsOf env id s (.turn id reply) = [] := by
  rw [callsOf, if_pos rfl, turn_of_none env reply hw, List.drop_length]

theorem callsOf_other {a : Action} (h : ∀ reply, a ≠ .turn id reply) : callsOf env id s a = [] := by
  cases a with
  | turn task reply =>
    have hne : task ≠ id := fun he => h reply (by rw [he])
    rw [callsOf, if_neg hne]
  | _ => rfl

/-! ## A task that is over -/

theorem over_act (hid : id < s.tasks.length) (h : s.work? id = none) (a : Action) : (act env s a).work? id = none := by
  by_cases ha : ∃ reply, a = .turn id reply
  · obtain ⟨reply, rfl⟩ := ha
    rwa [turn_of_none env reply h]
  · have hkept := tasks_kept env hid fun reply he => ha ⟨reply, he⟩
    rw [work?, hkept]
    exact h

/-- A turn that is not the task's own, or comes when it is over, does nothing for it. -/
theorem tasks_idle {a : Action} (hid : id < s.tasks.length) (h : ∀ reply w, a = .turn id reply → s.work? id ≠ some w) :
    (act env s a).tasks[id]? = s.tasks[id]? := by
  by_cases ha : ∃ reply, a = .turn id reply
  · obtain ⟨reply, rfl⟩ := ha
    have hnone : s.work? id = none := Option.eq_none_iff_forall_ne_some.2 fun w => h reply w rfl
    rw [turn_of_none env reply hnone]
  · exact tasks_kept env hid fun reply he => ha ⟨reply, he⟩

theorem idle_turn {a : Action} (hid : id < s.tasks.length) (h : ∀ reply w, a = .turn id reply → s.work? id ≠ some w) :
    (act env s a).work? id = s.work? id ∧ callsOf env id s a = [] := by
  refine ⟨by rw [work?, work?, tasks_idle env hid h], ?_⟩
  by_cases ha : ∃ reply, a = .turn id reply
  · obtain ⟨reply, rfl⟩ := ha
    exact callsOf_none env (Option.eq_none_iff_forall_ne_some.2 fun w => h reply w rfl) reply
  · exact callsOf_other env fun reply he => ha ⟨reply, he⟩

/-- A task that is over makes no calls and commits nothing. -/
theorem nothing_by_over (hid : id < s.tasks.length) (h : s.work? id = none) (acts : List Action) :
    callsBy env id s acts = [] ∧ commitsBy env id s acts = [] := by
  induction acts generalizing s with
  | nil => exact ⟨rfl, rfl⟩
  | cons a acts ih =>
    obtain ⟨hcalls, hcommits⟩ := ih (Nat.lt_of_lt_of_le hid (length_act env s a)) (over_act env hid h a)
    have hnow : callsOf env id s a = [] ∧ commitsOf id s a = [] := by
      by_cases ha : ∃ reply, a = .turn id reply
      · obtain ⟨reply, rfl⟩ := ha
        refine ⟨callsOf_none env h reply, ?_⟩
        rw [commitsOf, if_pos rfl, commits?, write?_of_none h]
        rfl
      · have hne : ∀ reply, a ≠ .turn id reply := fun reply he => ha ⟨reply, he⟩
        exact ⟨callsOf_other env hne, commitsOf_other hne⟩
    constructor
    · rw [callsBy, along, hnow.1]
      exact hcalls
    · rw [commitsBy, along, hnow.2]
      exact hcommits

theorem length_run (s : System) (acts : List Action) : s.tasks.length ≤ (run env s acts).tasks.length := by
  induction acts using List.reverseRecOn with
  | nil => exact Nat.le_refl _
  | append_singleton acts a ih =>
    rw [run_snoc]
    exact Nat.le_trans ih (length_act env _ a)

theorem over_run (hid : id < s.tasks.length) (h : s.work? id = none) (acts : List Action) :
    (run env s acts).work? id = none := by
  induction acts generalizing s with
  | nil => exact h
  | cons a acts ih => exact ih (Nat.lt_of_lt_of_le hid (length_act env s a)) (over_act env hid h a)

end System

end CommitteeSync
