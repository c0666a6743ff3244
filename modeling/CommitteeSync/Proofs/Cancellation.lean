/-
  CommitteeSync.Proofs.Cancellation — a cancelled token stops work at once and splits no epoch.

  The token is looked at whenever a wait ends, before anything else is asked for. Only three
  waits end without it: the one for the record, the one for a commit, and a listener's for the
  next event, which may come before its cancelled token. After the record the token is looked
  at before a write is begun, and after the commit before the next epoch; so whatever events
  a listener still takes, all that comes of them is that the record is asked for.

  Proved, for any run in which startups come by launching, any token and any task under it:
  from the moment the token is cancelled, with each of its turns the task is over or asks for
  the record, with no write open, and it asks only in its first turn or as a listener. It makes
  no call but that question, commits nothing but what was in commit already, cancels the
  transaction that is open and not in commit, and counts no failure for being interrupted
  (`cancelled_stops`).
-/

import CommitteeSync.Proofs.Background
import CommitteeSync.Proofs.TaskCalls

namespace CommitteeSync

open Turn

variable (env : Setup)

/-! ## An interrupted write -/

namespace EpochWrite

variable {a a' : Account} {v : EpochWrite} {reply : Reply}

theorem Closes.of_staged {tx : Transaction} (h : v.staged? = some tx) (hc : v.Closes a true reply a') :
    a' = a.cancel tx.staged := by
  cases hc with
  | unbegun => cases h
  | cancelled _ tx' staged hs hi =>
    cases h.symm.trans hs
    rw [hi rfl]
    rfl
  | committed tx' written _ => cases h
  | refused tx' written cause _ => cases h

theorem Closes.failures (hc : v.Closes a true reply a') :
    a'.failures = a.failures ∨ ∃ tx written cause, v = .committing tx written ∧ reply = .failed cause := by
  cases hc with
  | unbegun => exact Or.inl rfl
  | cancelled _ tx staged _ _ => exact Or.inl rfl
  | committed tx written _ => exact Or.inl rfl
  | refused tx written cause hr => exact Or.inr ⟨tx, written, cause, rfl, hr⟩

/-- Of an open transaction every wait but that for its commit ends with the token. -/
theorem isReady_of_staged {sh : Shared} {token : Token} {epoch : Epoch} {tx : Transaction} (h : v.staged? = some tx)
    (hc : sh.isCancelled token) : (v.waitsFor env token epoch).isReady sh := by
  cases v with
  | beginning => cases h
  | staging s => exact hc
  | recording tx written => exact hc
  | committing tx written => cases h

end EpochWrite

/-! ## Tokens of a task -/

namespace Work

theorem token?_of_kind {w : Work} (h : w.kind ≠ .startup) (run run' : Token) : w.token? run = w.token? run' := by
  cases w with
  | asked r =>
    cases r with
    | startup => exact absurd rfl h
    | _ => rfl
  | startup s => exact absurd rfl h
  | _ => rfl

theorem kind_of_token {w : Work} {run t : Token} (h : w.token? run = some t) : w.kind ≠ .stage := by
  cases w with
  | asked r =>
    cases r with
    | stage epoch ending => cases h
    | _ => exact nofun
  | stage epoch ending s => cases h
  | _ => exact nofun

/-- A task that is no listener asks for the record at its beginning. -/
theorem asked_of_mayAsk {w : Work} (h : w.mayAsk) (hl : w.listens = false) : ∃ r, w = .asked r := by
  cases w with
  | asked r => exact ⟨r, rfl⟩
  | _ => exact absurd h (Bool.eq_false_iff.1 hl)

/-- With a write open only a listener may ask for it. -/
theorem listens_of_write {w : Work} {ev : Epoch × EpochWrite} (hv : w.write? = some ev) (h : w.mayAsk) : w.listens := by
  cases w with
  | asked r => cases hv
  | _ => exact h

/-- After its first turn a task that is no listener does not ask for the record any more. -/
theorem start_asks (sh : Shared) {r : Request} (h : (asked r).listens = false) :
    Yields (start env sh r) (fun _ w => w.mayAsk = false) (fun _ _ => True) := by
  cases r with
  | listen token feed => cases h
  | latestEpoch => rfl
  | readRecord => rfl
  | stage epoch ending => rfl
  | waitForFatal => simp only [start, lookForFatal]; split <;> trivial
  | startup => rfl
  | _ => simp only [start]; exact andThen_wrapped _ (fun _ => rfl) fun _ _ => trivial

end Work

namespace System

variable {s s₀ : System} {acts : List Action} {a : Action} {id : Nat} {t : Token} {reply : Reply}

/-! ## A task under a cancelled token -/

theorem not_mayAsk_after {r : Request} (hw : s.work? id = some (.asked r)) (hl : (Work.asked r).listens = false)
    (reply : Reply) : (act env s (.turn id reply)).mayAsk id = false := by
  cases hw' : (act env s (.turn id reply)).work? id with
  | none => rw [mayAsk, hw']; rfl
  | some w' =>
    obtain ⟨w, hw₀, hr⟩ := work?_turn_eq_some env hw'
    cases hw.symm.trans hw₀
    have hasks := Work.start_asks env s.shared hl
    rw [show Work.start env s.shared r = _ from hr] at hasks
    rw [mayAsk, hw']
    exact hasks

/-- The task handles epochs under `t`, and `t` is cancelled. -/
structure Cancelled (s : System) (id : Nat) (t : Token) : Prop where
  token : s.token? id = some t
  cancelled : s.shared.isCancelled t
  /-- The token of a startup is that of a run under way. -/
  launched : ∀ w, s.work? id = some w → w.kind = .startup → s.shared.background.launched

namespace Cancelled

theorem work (h : Cancelled s id t) :
    ∃ w, s.work? id = some w ∧ w.token? s.shared.runToken = some t ∧ w.kind ≠ .stage := by
  obtain ⟨w, hw, ht⟩ := Option.bind_eq_some_iff.1 h.token
  exact ⟨w, hw, ht, Work.kind_of_token ht⟩

theorem exists_task (h : Cancelled s id t) : id < s.tasks.length := by
  obtain ⟨w, hw, -⟩ := h.work
  exact (List.getElem?_eq_some_iff.1 (work?_eq_some.1 hw)).1

/-- A task that still waits after the action is still under the token. -/
theorem still (h : Cancelled s id t) {w w' : Work} (hw : s.work? id = some w) (hw' : (act env s a).work? id = some w')
    (hk : w'.kind = w.kind) (ht : ∀ run, w'.token? run = w.token? run) : Cancelled (act env s a) id t := by
  have htoken := h.token
  rw [token?, hw, Option.bind_some] at htoken
  refine ⟨?_, isCancelled_act env h.cancelled a, fun v hv hs => ?_⟩
  · rw [token?, hw', Option.bind_some, ht]
    by_cases hs : w.kind = .startup
    · rw [(runs_act env (h.launched w hw hs) a).1, htoken]
    · rw [Work.token?_of_kind hs _ s.shared.runToken, htoken]
  · cases hw'.symm.trans hv
    exact launched_act env (h.launched w hw (by rw [← hk, hs]))

/-- The actions of others leave the task where it is. -/
theorem kept (h : Cancelled s id t) (ha : ∀ reply, a ≠ .turn id reply) :
    Cancelled (act env s a) id t ∧ (act env s a).work? id = s.work? id := by
  obtain ⟨w, hw, -⟩ := h.work
  have hw' := work?_kept env hw ha
  exact ⟨h.still env hw hw' rfl fun _ => rfl, by rw [hw', hw]⟩

/-- An action is a turn of the task, or it leaves the task where it is and is none of its doing. -/
theorem turn_or_kept (h : Cancelled s id t) (a : Action) :
    (∃ reply, a = .turn id reply) ∨
    Cancelled (act env s a) id t ∧ (act env s a).work? id = s.work? id ∧
      callsOf env id s a = [] ∧ commitsOf id s a = [] := by
  by_cases ha : ∃ reply, a = .turn id reply
  · exact Or.inl ha
  · have hne : ∀ reply, a ≠ .turn id reply := fun reply he => ha ⟨reply, he⟩
    obtain ⟨hstill, hw⟩ := h.kept env hne
    exact Or.inr ⟨hstill, hw, callsOf_other env hne, commitsOf_other hne⟩

/-- With its turn the task is over or asks for the record, and its open write is over. -/
theorem turn (h : Cancelled s id t) (reply : Reply) :
    ((act env s (.turn id reply)).work? id = none ∨ s.mayAsk id ∧ AsksRecord env (act env s (.turn id reply)) id) ∧
    ∃ a, (act env s (.turn id reply)).shared.account = a.ask ((act env s (.turn id reply)).pending? env id) ∧
      match s.write? id with
      | none => a = s.shared.account.miss (s.misses env id reply)
      | some (_, v) => v.Closes s.shared.account true reply a := by
  obtain ⟨w, hwork, -, hk⟩ := h.work
  cases turned env hwork hk reply with
  | advances token epoch v v' _ htok _ hadv _ =>
    cases h.token.symm.trans htok
    have hrun := hadv.running
    rw [h.cancelled] at hrun
    cases hrun
  | closes token epoch v sh hv htok hsame hcl hon =>
    cases h.token.symm.trans htok
    refine ⟨hon.stops t rfl (by rw [Shared.isCancelled, hsame]; exact h.cancelled), sh.account, hon.account, ?_⟩
    rw [hv]
    show v.Closes _ _ _ _
    rwa [h.cancelled] at hcl
  | closed hv hon =>
    refine ⟨hon.stops t h.token (by rw [Shared.isCancelled_missing]; exact h.cancelled), _, hon.account, ?_⟩
    rw [hv]
    exact Shared.account_missing _ _

/-- No write is open after that. -/
theorem turn_closed (h : Cancelled s id t) (reply : Reply) : (act env s (.turn id reply)).write? id = none := by
  rcases (h.turn env reply).1 with hover | ⟨-, hasks⟩
  · exact write?_of_none hover
  · exact hasks.closed

/-- All that the task may still call for is the record. -/
theorem turn_calls (h : Cancelled s id t) (reply : Reply) :
    ∀ c ∈ callsOf env id s (.turn id reply), c = .metadata env.metadataKey := by
  obtain ⟨w, hw, -, hk⟩ := h.work
  rw [callsOf_turn env hw hk]
  intro c hc
  rcases (h.turn env reply).1 with hover | ⟨-, hasks⟩
  · rw [pending?_of_none env hover] at hc
    cases hc
  · rw [hasks.pending] at hc
    exact List.mem_singleton.1 hc

/-- From action to action the task stays under the token until it is over. -/
theorem stays (h : Cancelled s id t) (a : Action) : (act env s a).work? id = none ∨ Cancelled (act env s a) id t := by
  rcases h.turn_or_kept env a with ⟨reply, rfl⟩ | ⟨hstill, -⟩
  · obtain ⟨w, hw, -⟩ := h.work
    cases hw' : (act env s (.turn id reply)).work? id with
    | none => exact Or.inl rfl
    | some w' =>
      obtain ⟨hkind, htoken⟩ := turn_keeps env hw hw'
      exact Or.inr (h.still env hw hw' hkind htoken)
  · exact Or.inr hstill

theorem stays_run (h : Cancelled s id t) (acts : List Action) :
    (run env s acts).work? id = none ∨ Cancelled (run env s acts) id t := by
  induction acts generalizing s with
  | nil => exact Or.inr h
  | cons a acts ih =>
    rw [run_cons]
    rcases h.stays env a with hover | hstill
    · exact Or.inl (over_run env (Nat.lt_of_lt_of_le h.exists_task (length_act env s a)) hover acts)
    · exact ih hstill

/-- Until its next turn the task stays as it is. -/
theorem kept_run (h : Cancelled s id t) (hn : ∀ reply, .turn id reply ∉ acts) :
    Cancelled (run env s acts) id t ∧ (run env s acts).work? id = s.work? id := by
  induction acts generalizing s with
  | nil => exact ⟨h, rfl⟩
  | cons a acts ih =>
    rw [run_cons]
    obtain ⟨hstill, hw⟩ := h.kept env (a := a) fun reply he => hn reply (he ▸ List.mem_cons_self)
    obtain ⟨hend, hw'⟩ := ih hstill fun reply hm => hn reply (List.mem_cons_of_mem a hm)
    exact ⟨hend, hw'.trans hw⟩

/-- Once it is over there is nothing more of it. -/
theorem nothing_then (h : Cancelled s id t) (hover : (act env s a).work? id = none) (acts : List Action) :
    callsBy env id (act env s a) acts = [] ∧ commitsBy env id (act env s a) acts = [] :=
  nothing_by_over env (Nat.lt_of_lt_of_le h.exists_task (length_act env s a)) hover acts

/-- It calls for the record at most, and commits at most what it waits to commit. -/
theorem stops_run (h : Cancelled s id t) (acts : List Action) :
    (∀ c ∈ callsBy env id s acts, c = .metadata env.metadataKey) ∧
    (commitsBy env id s acts = [] ∨
      ∃ epoch tx written, s.write? id = some (epoch, .committing tx written) ∧
        commitsBy env id s acts = [(epoch, tx)]) := by
  induction acts generalizing s with
  | nil => exact ⟨List.forall_mem_nil _, Or.inl rfl⟩
  | cons a acts ih =>
    rw [callsBy, along, List.forall_mem_append, ← callsBy, commitsBy, along, ← commitsBy]
    rcases h.turn_or_kept env a with ⟨reply, rfl⟩ | ⟨hstill, hw, hnocalls, hnocommits⟩
    · -- After one turn no write is open, so what is committed is committed in that turn.
      have hthen : (∀ c ∈ callsBy env id (act env s (.turn id reply)) acts, c = .metadata env.metadataKey) ∧
          commitsBy env id (act env s (.turn id reply)) acts = [] := by
        rcases h.stays env (.turn id reply) with hover | hstill
        · obtain ⟨hcalls, hcommits⟩ := h.nothing_then env hover acts
          exact ⟨hcalls ▸ List.forall_mem_nil _, hcommits⟩
        · obtain ⟨hcalls, hnone | ⟨epoch, tx, written, hopen, -⟩⟩ := ih hstill
          · exact ⟨hcalls, hnone⟩
          · rw [h.turn_closed env reply] at hopen
            cases hopen
      refine ⟨⟨h.turn_calls env reply, hthen.1⟩, ?_⟩
      rw [hthen.2, List.append_nil, commitsOf, if_pos rfl]
      cases hc : s.commits? (.turn id reply) with
      | none => exact Or.inl rfl
      | some et =>
        obtain ⟨epoch, tx⟩ := et
        obtain ⟨id', written, hturn, hv⟩ := commits?_eq_some.1 hc
        cases hturn
        exact Or.inr ⟨epoch, tx, written, hv, rfl⟩
    · have hv : (act env s a).write? id = s.write? id := by rw [write?, hw]; rfl
      obtain ⟨hcalls, hcommits⟩ := ih hstill
      rw [hv] at hcommits
      rw [hnocalls, hnocommits]
      exact ⟨⟨List.forall_mem_nil _, hcalls⟩, hcommits⟩

/-- A task that does not ask for the record is over with its next turn, and calls no one. -/
theorem silent (h : Cancelled s id t) (hm : s.mayAsk id = false) (acts : List Action) : callsBy env id s acts = [] := by
  induction acts generalizing s with
  | nil => rfl
  | cons a acts ih =>
    rw [callsBy, along, ← callsBy]
    rcases h.turn_or_kept env a with ⟨reply, rfl⟩ | ⟨hstill, hw, hnocalls, -⟩
    · obtain ⟨w, hw, -, hk⟩ := h.work
      have hover : (act env s (.turn id reply)).work? id = none :=
        (h.turn env reply).1.resolve_right fun hasks => by rw [hm] at hasks; cases hasks.1
      rw [callsOf_turn env hw hk, pending?_of_none env hover, (h.nothing_then env hover acts).1]
      rfl
    · rw [hnocalls, ih hstill (by rw [mayAsk, hw]; exact hm)]
      rfl

/-- A task that is no listener asks for the record at most once, and with no write open. -/
theorem asks_once (h : Cancelled s id t) (hl : s.listens id = false) (acts : List Action) :
    callsBy env id s acts = [] ∨ s.write? id = none ∧ callsBy env id s acts = [.metadata env.metadataKey] := by
  induction acts generalizing s with
  | nil => exact Or.inl rfl
  | cons a acts ih =>
    rw [callsBy, along, ← callsBy]
    rcases h.turn_or_kept env a with ⟨reply, rfl⟩ | ⟨hstill, hw, hnocalls, -⟩
    · obtain ⟨w, hw, -, hk⟩ := h.work
      rw [listens, hw, Option.any_some] at hl
      rw [callsOf_turn env hw hk]
      rcases (h.turn env reply).1 with hover | ⟨hmay, hasks⟩
      · left
        rw [pending?_of_none env hover, (h.nothing_then env hover acts).1]
        rfl
      · right
        rw [mayAsk, hw, Option.any_some] at hmay
        obtain ⟨r, rfl⟩ := Work.asked_of_mayAsk hmay hl
        refine ⟨by rw [write?_of_some hw]; rfl, ?_⟩
        have hsilent : callsBy env id (act env s (.turn id reply)) acts = [] := by
          rcases h.stays env (.turn id reply) with hover | hstill
          · exact (h.nothing_then env hover acts).1
          · exact hstill.silent env (not_mayAsk_after env hw hl reply) acts
        rw [hasks.pending, hsilent]
        rfl
    · have hv : (act env s a).write? id = s.write? id := by rw [write?, hw]; rfl
      rw [hnocalls, List.nil_append, ← hv]
      exact ih hstill (by rw [listens, hw]; exact hl)

end Cancelled

/-! ## What cancelling comes to -/

/-- From `s` on, whatever comes, the work of the task stops. -/
structure Stops (s : System) (id : Nat) (acts : List Action) : Prop where
  /-- It makes no call any more but for the record. -/
  calls : ∀ c ∈ callsBy env id s acts, c = .metadata env.metadataKey
  /-- Unless it is a listener it makes none at all, or it had no turn before and asks just once. -/
  once : s.listens id = false →
    callsBy env id s acts = [] ∨ s.write? id = none ∧ callsBy env id s acts = [.metadata env.metadataKey]
  /-- With each of its turns it is over, or it asks for the record with no write open, which it does
      only in its first turn or as a listener. -/
  turns : ∀ part reply, part ++ [.turn id reply] <+: acts →
    let after := run env s (part ++ [.turn id reply])
    after.work? id = none ∨ (run env s part).mayAsk id ∧ AsksRecord env after id
  /-- At most one epoch is committed, and only by a commit that was running. -/
  commits : commitsBy env id s acts = [] ∨
    ∃ epoch tx written, s.write? id = some (epoch, .committing tx written) ∧ commitsBy env id s acts = [(epoch, tx)]
  /-- An open transaction that is not in commit needs no reply to be cancelled. -/
  ready : ∀ epoch v tx, s.write? id = some (epoch, v) → v.staged? = some tx →
    ∃ wait, s.waitsFor? env id = some wait ∧ wait.isReady s.shared
  /-- It is cancelled by the task's next turn, and all that may come of that turn besides is that a
      listener asks for the record of the next event. -/
  cancels : ∀ epoch v tx, s.write? id = some (epoch, v) → v.staged? = some tx →
    ∀ part reply, part ++ [.turn id reply] <+: acts → (∀ r, .turn id r ∉ part) →
      let before := run env s part
      let after := run env s (part ++ [.turn id reply])
      after.shared.ledger = before.shared.ledger ∧
        after.shared.account = (before.shared.account.cancel tx.staged).ask (after.pending? env id) ∧
        (after.work? id = none ∨ s.listens id ∧ AsksRecord env after id)
  /-- The failures of an epoch that was cancelled are not counted. -/
  counts : ∀ part reply, part ++ [.turn id reply] <+: acts →
    let before := run env s part
    let after := run env s (part ++ [.turn id reply])
    after.shared.telemetry.epochFailures = before.shared.telemetry.epochFailures ∨
    (∃ epoch tx written cause, before.write? id = some (epoch, .committing tx written) ∧ reply = .failed cause) ∨
    before.misses env id reply

namespace Cancelled

/-- In any turn of the task no failure is counted but that of a running commit or of a record. -/
theorem counts (h : Cancelled s id t) (reply : Reply) :
    (act env s (.turn id reply)).shared.telemetry.epochFailures = s.shared.telemetry.epochFailures ∨
    (∃ epoch tx written cause, s.write? id = some (epoch, .committing tx written) ∧ reply = .failed cause) ∨
    s.misses env id reply := by
  obtain ⟨-, a, ha, hturn⟩ := h.turn env reply
  have hafter : (act env s (.turn id reply)).shared.telemetry.epochFailures = a.failures := by
    show (act env s (.turn id reply)).shared.account.failures = a.failures
    rw [ha]
    rfl
  rw [hafter]
  cases hv : s.write? id with
  | none =>
    rw [hv] at hturn
    replace hturn : a = _ := hturn
    cases hm : s.misses env id reply with
    | true => exact Or.inr (Or.inr rfl)
    | false =>
      rw [hm] at hturn
      exact Or.inl (congrArg Account.failures hturn)
  | some ev =>
    obtain ⟨epoch, v⟩ := ev
    rw [hv] at hturn
    rcases EpochWrite.Closes.failures hturn with hsame | ⟨tx, written, cause, rfl, hreply⟩
    · exact Or.inl hsame
    · exact Or.inr (Or.inl ⟨epoch, tx, written, cause, rfl, hreply⟩)

theorem stops (h : Cancelled s id t) (acts : List Action) : Stops env s id acts := by
  constructor
  · exact (h.stops_run env acts).1
  · exact fun hl => h.asks_once env hl acts
  · intro part reply _
    dsimp only
    rw [run_snoc]
    rcases h.stays_run env part with hover | hstill
    · left
      rw [turn_of_none env reply hover]
      exact hover
    · exact (hstill.turn env reply).1
  · exact (h.stops_run env acts).2
  · intro epoch v tx hv htx
    obtain ⟨w, hw, htok, -⟩ := h.work
    rw [write?_of_some hw] at hv
    refine ⟨w.waitsFor env s.shared.runToken, by rw [waitsFor?, hw]; rfl, ?_⟩
    rw [Work.waitsFor_open env hv htok]
    exact EpochWrite.isReady_of_staged env htx h.cancelled
  · intro epoch v tx hv htx part reply _ hfirst
    dsimp only
    obtain ⟨hstill, hsame⟩ := h.kept_run env hfirst
    obtain ⟨w, hw, -, hk⟩ := hstill.work
    have hw₀ : s.work? id = some w := hsame ▸ hw
    rw [write?_of_some hw₀] at hv
    obtain ⟨hends, a, ha, hturn⟩ := hstill.turn env reply
    rw [write?_of_some hw, hv] at hturn
    rw [run_snoc]
    refine ⟨?_, ?_, hends.imp_right fun hasks => ⟨?_, hasks.2⟩⟩
    · have hl := Work.resume_ledger env (run env s part).shared w reply hk
      rw [hv] at hl
      rw [shared_turn env reply hw, hl]
      cases v with
      | committing tx written => cases htx
      | _ => rfl
    · rw [ha, EpochWrite.Closes.of_staged htx hturn]
    · have hmay := hasks.1
      rw [mayAsk, hw, Option.any_some] at hmay
      rw [listens, hw₀, Option.any_some]
      exact Work.listens_of_write hv hmay
  · intro part reply hp
    dsimp only
    rw [run_snoc]
    rcases h.stays_run env part with hover | hstill
    · left
      rw [turn_of_none env reply hover]
    · exact hstill.counts env reply

end Cancelled

/-- Cancellation stops work at once and never splits an epoch: from the moment a token is
    cancelled, every task that handles epochs under it, then or later, stops. -/
theorem cancelled_stops (hs : s₀.Idle) {before since : List Action} (h : Only (fun k => k ≠ .startup) (before ++ since))
    (hc : (run env s₀ before).shared.isCancelled t) :
    ∀ part rest, since = part ++ rest → ∀ id, (run env s₀ (before ++ part)).token? id = some t →
      Stops env (run env s₀ (before ++ part)) id rest := by
  rintro part rest rfl id htoken
  rw [← List.append_assoc] at h
  have hcancelled : Cancelled (run env s₀ (before ++ part)) id t :=
    ⟨htoken, isCancelled_run env hc part, fun w hw hk => (spawned_run env hs h.of_append_left).launched id w hw hk⟩
  exact hcancelled.stops env rest

/-- A catch-up is cancelled while it fetches the committees of epoch 0. -/
def interruptedFetch : List Action :=
  .request (.catchUp (.root 0)) :: List.replicate 3 (.turn 0 .granted) ++ [.change (.cancel (.root 0))]

theorem cancelled_stops_fetch :
    let s := run .plain (opened [] (fun _ => []) [1]) interruptedFetch
    let s' := run .plain s [.turn 0 .granted]
    s.write? 0 = some (0, .staging (.fetching .empty)) ∧ s.shared.store.begun = 1 ∧
    callsBy .plain 0 s [.turn 0 .granted] = [] ∧ s'.shared.account = s.shared.account.cancel 0 ∧ s'.work? 0 = none := by
  dsimp only
  have honly : Only (fun k => k ≠ .startup) (interruptedFetch ++ [.turn 0 .granted]) := by decide
  have hcancelled : (run .plain (opened [] (fun _ => []) [1]) interruptedFetch).shared.isCancelled (.root 0) := by
    decide +kernel
  have hstops := cancelled_stops .plain (opened_idle [] (fun _ => []) [1]) honly hcancelled [] _ rfl 0
    (by decide +kernel)
  rw [List.append_nil] at hstops
  have hopen : (run .plain (opened [] (fun _ => []) [1]) interruptedFetch).write? 0 =
    some (0, .staging (.fetching .empty)) := by
    decide +kernel
  have hlistens : (run .plain (opened [] (fun _ => []) [1]) interruptedFetch).listens 0 = false := by decide +kernel
  obtain ⟨-, hcancel, hends⟩ := hstops.cancels 0 _ .empty hopen rfl [] .granted (List.prefix_refl _) (by simp)
  rw [List.nil_append] at hcancel hends
  have hover := hends.resolve_right fun hasks => by rw [hlistens] at hasks; cases hasks.1
  refine ⟨hopen, by decide +kernel, ?_, ?_, hover⟩
  · rcases hstops.once hlistens with hnone | ⟨hv, -⟩
    · exact hnone
    · rw [hopen] at hv
      cases hv
  · rw [hcancel, pending?_of_none _ hover, Account.ask_none]
    rfl

/-- A listener that meets the next event before its cancelled token asks for the record, and that is all. -/
example :
    let env := { Setup.plain with lag := fun _ => 1 }
    let s := run env (opened [] (fun _ => []) [0]) (.launch (.root 0) :: List.replicate 7 (.turn 1 .granted) ++
      [.change (.send ⟨4, true⟩), .change (.cancel (.child 0))])
    callsBy env 1 s [.turn 1 .granted, .turn 1 .granted] = [.metadata "progress"] ∧
    (run env s [.turn 1 .granted, .turn 1 .granted]).work? 1 = none := by
  decide +kernel

end System

end CommitteeSync
