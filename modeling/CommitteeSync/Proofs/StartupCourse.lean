/-
  CommitteeSync.Proofs.StartupCourse — the course of the one startup of a background run.

  Startup reads the record, catches up with the head under the guard, subscribes to the head
  and then listens, with any other requests going on beside it. Where shutdown comes together
  with the reply to the subscription, shutdown counts; where it comes together with the end of
  the stream, startup may meet either.

  Proved, for any run in which startups come by launching, from the moment that the startup
  was asked for (`startup_course`):
  (1) Its first call is for the record, and it subscribes at most once.
  (2) It subscribes in the turn in which its catch-up ends, with whatever report, if and only
      if the run token is not cancelled by then. In that turn the guard is released.
  (3) If the record cannot be read, at a gate that is held, or once the run token is cancelled,
      it does not subscribe any more.
  (4) An error is captured if and only if one of its turns found it: the record could not be
      read, the subscription failed, or it met the end of the stream. As long as shutdown and
      the end of the stream do not come together, it meets the end wherever it looks at a
      stream that is over, without shutdown.
  (5) In those turns it cancels the tokens of the run and of the root, and in no other turn
      any token.
-/

import CommitteeSync.Proofs.Background
import CommitteeSync.Proofs.StartupTurns
import CommitteeSync.Proofs.TaskCalls

namespace CommitteeSync

open Turn

variable (env : Setup)

/-- A startup is asked for or under way. -/
theorem Work.of_startup {w : Work} (h : w.kind = .startup) : w = .asked .startup ∨ ∃ st, w = .startup st := by
  cases w with
  | asked r =>
    cases r with
    | startup => exact Or.inl rfl
    | _ => cases h
  | startup st => exact Or.inr ⟨st, rfl⟩
  | _ => cases h

theorem Startup.call?_subscribe {token : Token} {st : Startup} (h : (st.waitsFor env token).call? = some .subscribe) :
    st = .subscribing := by
  have hwrite : ∀ {epoch : Epoch} {v : EpochWrite}, (v.waitsFor env token epoch).call? ≠ some .subscribe := by
    intro epoch v hv
    cases v with
    | staging s => cases s <;> cases hv
    | _ => cases hv
  cases st with
  | reading => cases h
  | following f => exact absurd h hwrite
  | subscribing => rfl
  | listening feed l =>
    cases l with
    | idle => cases h
    | handling u =>
      cases u with
      | reading epoch => cases h
      | direct epoch write => exact absurd h hwrite
      | filling epoch pass => exact absurd h hwrite

namespace System

variable {s s₀ : System} {acts : List Action} {a : Action} {id : Nat} {reply : Reply} {st : Startup}

/-! ## The turns of startup -/

def startup? (s : System) (id : Nat) : Option Startup :=
  match s.work? id with
  | some (.startup st) => some st
  | _ => none

/-- The fatal error that task `id` finds in its next turn, if it is a startup. -/
def fatal? (s : System) (id : Nat) (reply : Reply) : Option (String × Cause) :=
  (s.startup? id).bind (·.fatal? env s.shared.runToken s.shared reply)

/-- The report of the catch-up that ends in its next turn. -/
def caughtUp? (s : System) (id : Nat) (reply : Reply) : Option Report :=
  (s.startup? id).bind (·.caughtUp? env s.shared.runToken s.shared reply)

theorem startup?_eq_some : s.startup? id = some st ↔ s.work? id = some (.startup st) := by
  unfold startup?
  split <;> simp_all

theorem fatal?_of_work (h : s.work? id = some (.startup st)) (reply : Reply) :
    s.fatal? env id reply = st.fatal? env s.shared.runToken s.shared reply := by
  rw [fatal?, startup?_eq_some.2 h, Option.bind_some]

theorem caughtUp?_of_work (h : s.work? id = some (.startup st)) (reply : Reply) :
    s.caughtUp? env id reply = st.caughtUp? env s.shared.runToken s.shared reply := by
  rw [caughtUp?, startup?_eq_some.2 h, Option.bind_some]

/-- Where a turn leaves startup. -/
theorem startup_turn (h : s.work? id = some (.startup st)) (reply : Reply) :
    let t := st.resume env s.shared.runToken s.shared reply
    (act env s (.turn id reply)).work? id = (match t.2 with | .waits st' => some (.startup st') | .ends _ => none) ∧
    (act env s (.turn id reply)).shared.busy = t.1.busy ∧
    (act env s (.turn id reply)).shared.tokens = t.1.tokens ∧
    (act env s (.turn id reply)).shared.background.handler = t.1.background.handler := by
  have hshared := shared_turn env reply h
  have hwork := work?_turn env reply h
  have hr : (Work.startup st).resume env s.shared reply =
    andThen (st.resume env s.shared.runToken s.shared reply) .startup Work.endStartup := rfl
  rw [hr] at hshared hwork
  dsimp only
  rw [hwork, hshared]
  rcases st.resume env s.shared.runToken s.shared reply with ⟨sh', st' | u⟩ <;> exact ⟨rfl, rfl, rfl, rfl⟩

/-- The first turn of startup asks for the record. -/
theorem asked_turn (h : s.work? id = some (.asked .startup)) (reply : Reply) :
    (act env s (.turn id reply)).work? id = some (.startup .reading) ∧
    (act env s (.turn id reply)).shared.tokens = s.shared.tokens ∧
    (act env s (.turn id reply)).shared.background = s.shared.background := by
  have hshared := shared_turn env reply h
  have hwork := work?_turn env reply h
  rw [hwork, hshared]
  exact ⟨rfl, rfl, rfl⟩

/-! ## A startup and nothing else of its kind -/

/-- Task `id` is the startup of the run, or it was, and nothing was fatal as long as it is. -/
structure Watched (s : System) (id : Nat) : Prop where
  here : id < s.tasks.length
  launched : s.shared.background.launched
  only : ∀ id' w, s.work? id' = some w → (w.kind = .startup ↔ id' = id)
  quiet : ∀ w, s.work? id = some w → s.shared.captured = none

/-- A startup that was asked for has captured nothing yet, and neither has anything before it. -/
theorem asked_quiet (hs : s₀.Idle) (h : Only (fun k => k ≠ .startup) acts)
    (ha : (run env s₀ acts).work? id = some (.asked .startup))
    (hl : (run env s₀ acts).shared.background.launched) : (run env s₀ acts).shared.captured = none := by
  induction acts using List.reverseRecOn with
  | nil =>
    rw [run_nil, hs.work?] at ha
    cases ha
  | append_singleton acts a ih =>
    have hsp := spawned_run env hs h.of_snoc
    rw [run_snoc] at ha hl ⊢
    rcases startup_came env h.last_ne_startup ha rfl with ⟨w, hw, hk⟩ | ⟨hb, -⟩
    · have hne : ∀ reply, a ≠ .turn id reply := by
        rintro reply rfl
        rcases Work.of_startup hk with rfl | ⟨st, rfl⟩
        · rw [(asked_turn env hw reply).1] at ha
          cases ha
        · rw [(startup_turn env hw reply).1] at ha
          split at ha <;> cases ha
      have hbefore := work?_kept env hw hne
      cases ha.symm.trans hbefore
      refine captured_act env (ih h.of_snoc hw) (fun id' reply w' he hw' hk' => ?_) hl
      exact hne reply (by rw [he, hsp.one id' id w' _ hw' hw hk' rfl])
    · refine captured_act env (fun hb' => ?_) (fun id' reply w' _ hw' hk' => ?_) hl
      · rw [hb] at hb'
        cases hb'
      · rw [hsp.launched id' w' hw' hk'] at hb
        cases hb

theorem watched_asked (hs : s₀.Idle) (h : Only (fun k => k ≠ .startup) acts)
    (ha : (run env s₀ acts).work? id = some (.asked .startup)) : Watched (run env s₀ acts) id := by
  have hsp := spawned_run env hs h
  have hl := hsp.launched id _ ha rfl
  refine ⟨(List.getElem?_eq_some_iff.1 (work?_eq_some.1 ha)).1, hl, fun id' w hw => ⟨fun hk => ?_, ?_⟩, fun _ _ => ?_⟩
  · exact hsp.one id' id w _ hw ha hk rfl
  · rintro rfl
    cases ha.symm.trans hw
    rfl
  · exact asked_quiet env hs h ha hl

namespace Watched

theorem kind (h : Watched s id) {w : Work} (hw : s.work? id = some w) : w.kind = .startup := (h.only id w hw).2 rfl

/-- Only its own turns capture an error. -/
theorem captured_other (h : Watched s id) (ha : ∀ reply w, a = .turn id reply → s.work? id ≠ some w) :
    (act env s a).shared.captured = s.shared.captured := by
  refine captured_kept env h.launched fun id' reply w he hw hk => ?_
  cases (h.only id' w hw).1 hk
  exact ha reply w he hw

/-- In its own turn startup captures the fatal error that it finds, and touches no token but so. -/
theorem turn_captures (h : Watched s id) {w : Work} (hw : s.work? id = some w) (reply : Reply) :
    (act env s (.turn id reply)).shared.captured = (s.fatal? env id reply).map (fun error => .fatal error.1 error.2) ∧
    (act env s (.turn id reply)).shared.tokens =
      match s.fatal? env id reply with
      | some _ => (s.shared.tokens.cancel s.shared.runToken).cancel s.shared.background.handler.root
      | none => s.shared.tokens := by
  have hquiet : s.shared.background.handler.captured = none := h.quiet w hw
  rcases Work.of_startup (h.kind hw) with rfl | ⟨st, rfl⟩
  · obtain ⟨-, htokens, hback⟩ := asked_turn env hw reply
    have hnone : s.fatal? env id reply = none := by rw [fatal?, startup?, hw]; rfl
    rw [hnone, Shared.captured, hback, htokens]
    exact ⟨hquiet, rfl⟩
  · obtain ⟨-, -, htokens, hhandler⟩ := startup_turn env hw reply
    have hsignals := st.resume_signals env s.shared.runToken s.shared reply
    rw [fatal?_of_work env hw, Shared.captured, hhandler, htokens]
    have ht := congrArg Prod.fst hsignals
    have hb := congrArg (fun x : Tokens × Background => x.2.handler) hsignals
    simp only [Shared.signals] at ht hb
    rw [ht, hb]
    cases st.fatal? env s.shared.runToken s.shared reply with
    | none => exact ⟨hquiet, rfl⟩
    | some error =>
      simp only [Startup.failing, Shared.trigger, Handler.trigger_of_none hquiet]
      exact ⟨Handler.captured_capture hquiet _ _, rfl⟩

/-- A startup that found a fatal error is over. -/
theorem over_of_fatal (hw : s.work? id = some (.startup st)) {error : String × Cause}
    (hf : s.fatal? env id reply = some error) :
    (act env s (.turn id reply)).work? id = none := by
  rw [fatal?_of_work env hw] at hf
  rw [(startup_turn env hw reply).1, result?_eq_some.1 (Startup.ends_of_fatal env hf)]

theorem act (h : Watched s id) (ha : ∀ r, a = .request r → r.kind ≠ .startup) : Watched (System.act env s a) id := by
  refine ⟨Nat.lt_of_lt_of_le h.here (length_act env s a), launched_act env h.launched,
    fun id' w' hw' => ⟨fun hk => ?_, ?_⟩, ?_⟩
  · rcases startup_came env ha hw' hk with ⟨w, hw, hk'⟩ | ⟨hb, -⟩
    · exact (h.only id' w hw).1 hk'
    · rw [h.launched] at hb
      cases hb
  · rintro rfl
    obtain ⟨w, hw, hk⟩ := kind_before env h.here hw'
    rw [hk, h.kind hw]
  · intro w' hw'
    obtain ⟨w, hw, -⟩ := kind_before env h.here hw'
    by_cases hturn : ∃ reply, a = .turn id reply
    · obtain ⟨reply, rfl⟩ := hturn
      rw [(h.turn_captures env hw reply).1]
      cases hf : s.fatal? env id reply with
      | none => rfl
      | some error =>
        obtain ⟨st, hst, -⟩ := Option.bind_eq_some_iff.1 hf
        rw [over_of_fatal env (startup?_eq_some.1 hst) hf] at hw'
        cases hw'
    · rw [h.captured_other env fun reply _ he => absurd ⟨reply, he⟩ hturn]
      exact h.quiet w hw

theorem run (h : Watched s id) (ha : Only (fun k => k ≠ .startup) acts) : Watched (System.run env s acts) id := by
  induction acts using List.reverseRecOn with
  | nil => exact h
  | append_singleton acts a ih =>
    rw [run_snoc]
    exact (ih ha.of_snoc).act env ha.last_ne_startup

end Watched

/-! ## Fatal errors along a run -/

/-- The fatal errors that task `id` finds. -/
def fatalsOf (id : Nat) (s : System) : Action → List (String × Cause)
  | .turn task reply => if task = id then (s.fatal? env id reply).toList else []
  | _ => []

theorem fatalsOf_other (h : ∀ reply w, a = .turn id reply → s.work? id ≠ some w) : fatalsOf env id s a = [] := by
  cases a with
  | turn task reply =>
    rw [fatalsOf]
    split
    · rename_i he
      subst he
      have hnone : s.work? task = none := Option.eq_none_iff_forall_ne_some.2 fun w => h reply w rfl
      rw [fatal?, startup?, hnone]
      rfl
    · rfl
  | _ => rfl

/-- What is captured is the fatal error that startup found, and it finds no more than one. -/
theorem captured_of_watched (h : Watched s id) (hw : s.work? id = some (.asked .startup))
    (ha : Only (fun k => k ≠ .startup) acts) :
    (run env s acts).shared.captured.toList = (along env (fatalsOf env id) s acts).map
      fun error => Cause.fatal error.1 error.2 := by
  induction acts using List.reverseRecOn with
  | nil =>
    rw [run_nil, h.quiet _ hw]
    rfl
  | append_singleton acts a ih =>
    have hx := h.run env ha.of_snoc
    rw [run_snoc, along_snoc, List.map_append, ← ih ha.of_snoc]
    by_cases hturn : ∃ reply w, a = .turn id reply ∧ (run env s acts).work? id = some w
    · obtain ⟨reply, w, rfl, hw⟩ := hturn
      rw [hx.quiet w hw, (hx.turn_captures env hw reply).1, fatalsOf, if_pos rfl]
      cases (run env s acts).fatal? env id reply <;> rfl
    · have hother : ∀ reply w, a = .turn id reply → (run env s acts).work? id ≠ some w :=
        fun reply w he hw => hturn ⟨reply, w, he, hw⟩
      rw [hx.captured_other env hother, fatalsOf_other env hother, List.map_nil, List.append_nil]

/-! ## The calls of startup -/

/-- Task `id` is a startup that has not subscribed yet. -/
def unsubscribed (s : System) (id : Nat) : Bool :=
  (s.work? id).any fun
    | .asked _ => true
    | .startup st => !st.subscribed
    | _ => false

theorem kind_ne_stage {w : Work} (h : w.kind = .startup) : w.kind ≠ .stage := by
  rw [h]
  exact nofun

/-- In the turn in which its catch-up ends startup subscribes, unless the token is cancelled,
    and in no other. -/
theorem calls_of_startup (hw : s.work? id = some (.startup st)) (reply : Reply) :
    (.subscribe ∈ callsOf env id s (.turn id reply) ↔
      (s.caughtUp? env id reply).isSome ∧ s.shared.isCancelled s.shared.runToken = false) ∧
    (callsOf env id s (.turn id reply)).count .subscribe + ((act env s (.turn id reply)).unsubscribed id).toNat ≤
      (s.unsubscribed id).toNat := by
  have hcalls := callsOf_turn env hw (kind_ne_stage rfl) reply
  have hturn := (startup_turn env hw reply).1
  rw [caughtUp?_of_work env hw]
  have hbefore : s.unsubscribed id = !st.subscribed := by rw [unsubscribed, hw]; rfl
  cases hc : st.caughtUp? env s.shared.runToken s.shared reply with
  | some report =>
    have hst : st.subscribed = false := by
      cases st with
      | reading => rfl
      | following f => rfl
      | subscribing => cases hc
      | listening feed l => cases hc
    rw [(Startup.resume_of_caughtUp env hc).2] at hturn
    by_cases ht : s.shared.isCancelled s.shared.runToken
    · rw [if_pos ht] at hturn
      have hafter : (act env s (.turn id reply)).unsubscribed id = false := by rw [unsubscribed, hturn]; rfl
      rw [hcalls, pending?_of_none env hturn, hafter, ht]
      simp
    · rw [if_neg ht] at hturn
      have hafter : (act env s (.turn id reply)).unsubscribed id = false := by rw [unsubscribed, hturn]; rfl
      have hcall : (act env s (.turn id reply)).pending? env id = some .subscribe := by
        rw [pending?_of_some env hturn]; rfl
      rw [hcalls, hcall, hafter, hbefore, hst]
      simp [ht]
  | none =>
    have hstage := st.resume_stage env hc
    have hnot : .subscribe ∉ callsOf env id s (.turn id reply) ∧
        ((act env s (.turn id reply)).unsubscribed id → s.unsubscribed id) := by
      rw [hcalls]
      rcases hr : st.resume env s.shared.runToken s.shared reply with ⟨sh', st' | u⟩
      · rw [hr] at hturn hstage
        obtain ⟨hne, hsame⟩ := hstage
        refine ⟨fun hm => hne ?_, fun ha => ?_⟩
        · rw [pending?_of_some env hturn, Option.mem_toList] at hm
          exact Startup.call?_subscribe env hm
        · rw [unsubscribed, hturn] at ha
          rw [hbefore, ← hsame]
          exact ha
      · rw [hr] at hturn
        refine ⟨fun hm => ?_, fun ha => ?_⟩
        · rw [pending?_of_none env hturn] at hm
          cases hm
        · rw [unsubscribed, hturn] at ha
          cases ha
    refine ⟨⟨fun hm => absurd hm hnot.1, fun h => by cases h.1⟩, ?_⟩
    rw [List.count_eq_zero.2 hnot.1, Nat.zero_add]
    cases ha : (act env s (.turn id reply)).unsubscribed id with
    | false => exact Nat.zero_le _
    | true => rw [hnot.2 ha]

/-- The same for the first turn, which asks for the record. -/
theorem calls_of_asked (hw : s.work? id = some (.asked .startup)) (reply : Reply) :
    callsOf env id s (.turn id reply) = [.metadata env.metadataKey] ∧ s.unsubscribed id ∧
    (act env s (.turn id reply)).unsubscribed id ∧ s.caughtUp? env id reply = none := by
  have hturn := (asked_turn env hw reply).1
  refine ⟨?_, ?_, ?_, ?_⟩
  · rw [callsOf_turn env hw (kind_ne_stage rfl), pending?_of_some env hturn]
    rfl
  · rw [unsubscribed, hw]; rfl
  · rw [unsubscribed, hturn]; rfl
  · rw [caughtUp?, startup?, hw]; rfl

/-- Startup subscribes once, and only as long as it has not. -/
theorem Watched.subscribes_once (h : Watched s id) (ha : Only (fun k => k ≠ .startup) acts) :
    (callsBy env id s acts).count .subscribe + ((System.run env s acts).unsubscribed id).toNat ≤
      (s.unsubscribed id).toNat := by
  induction acts using List.reverseRecOn with
  | nil => exact Nat.le_of_eq (Nat.zero_add _)
  | append_singleton acts a ih =>
    have hx := h.run env ha.of_snoc
    have hsum := ih ha.of_snoc
    rw [run_snoc, callsBy, along_snoc, List.count_append, ← callsBy]
    by_cases hturn : ∃ reply w, a = .turn id reply ∧ (System.run env s acts).work? id = some w
    · obtain ⟨reply, w, rfl, hw⟩ := hturn
      rcases Work.of_startup (hx.kind hw) with rfl | ⟨st, rfl⟩
      · obtain ⟨hc, hu, hu', -⟩ := calls_of_asked env hw reply
        have hnone : List.count .subscribe [Call.metadata env.metadataKey] = 0 := List.count_eq_zero.2 (by simp)
        rw [hu] at hsum
        rw [hc, hu', hnone]
        omega
      · have hstep := (calls_of_startup env hw reply).2
        omega
    · obtain ⟨hsame, hcalls⟩ := idle_turn env hx.here fun reply w he hw => hturn ⟨reply, w, he, hw⟩
      rw [hcalls, List.count_nil, unsubscribed, hsame]
      exact hsum

/-- Its first call is for the record. -/
theorem Watched.reads_first (h : Watched s id) (hw : s.work? id = some (.asked .startup))
    (ha : Only (fun k => k ≠ .startup) acts) :
    (callsBy env id s acts = [] ∧ (System.run env s acts).work? id = some (.asked .startup)) ∨
    ((callsBy env id s acts).head? = some (.metadata env.metadataKey) ∧
      (System.run env s acts).work? id ≠ some (.asked .startup)) := by
  induction acts using List.reverseRecOn with
  | nil => exact Or.inl ⟨rfl, hw⟩
  | append_singleton acts a ih =>
    have hx := h.run env ha.of_snoc
    rw [run_snoc, callsBy, along_snoc, ← callsBy]
    by_cases hturn : ∃ reply w, a = .turn id reply ∧ (System.run env s acts).work? id = some w
    · obtain ⟨reply, w, rfl, hw⟩ := hturn
      right
      rcases ih ha.of_snoc with ⟨hnone, hasked⟩ | ⟨hfirst, hasked⟩
      · obtain ⟨hc, -⟩ := calls_of_asked env hasked reply
        rw [hnone, hc, (asked_turn env hasked reply).1]
        exact ⟨rfl, by simp⟩
      · refine ⟨by rw [List.head?_append, hfirst]; rfl, fun he => ?_⟩
        rcases Work.of_startup (hx.kind hw) with rfl | ⟨st, rfl⟩
        · exact hasked hw
        · rw [(startup_turn env hw reply).1] at he
          split at he <;> cases he
    · obtain ⟨hsame, hcalls⟩ := idle_turn env hx.here fun reply w he hw => hturn ⟨reply, w, he, hw⟩
      rw [hcalls, List.append_nil, hsame]
      exact ih ha.of_snoc

/-! ## The course of startup -/

/-- From `s`, in which task `id` is the startup that was asked for, along `acts`. -/
structure StartupCourse (s : System) (id : Nat) (acts : List Action) : Prop where
  first : ∀ c ∈ (callsBy env id s acts).head?, c = .metadata env.metadataKey
  once : (callsBy env id s acts).count .subscribe ≤ 1
  /-- It subscribes just when its catch-up has ended and its token is not cancelled. -/
  subscribes : ∀ part reply rest, acts = part ++ .turn id reply :: rest →
    let x := run env s part
    .subscribe ∈ callsOf env id x (.turn id reply) ↔
      (x.caughtUp? env id reply).isSome ∧ x.shared.isCancelled x.shared.runToken = false
  released : ∀ part reply rest, acts = part ++ .turn id reply :: rest →
    ((run env s part).caughtUp? env id reply).isSome →
    (run env s (part ++ [.turn id reply])).shared.busy = false
  /-- The record could not be read, or the gate was held. -/
  refused : ∀ part reply rest, acts = part ++ .turn id reply :: rest →
    let x := run env s part
    x.startup? id = some .reading → ((x.shared.readRecord env reply).isOk → x.shared.busy) →
      .subscribe ∉ callsBy env id s acts
  cancelled : ∀ part rest, acts = part ++ rest →
    let x := run env s part
    x.shared.isCancelled x.shared.runToken → .subscribe ∉ callsBy env id s part → .subscribe ∉ callsBy env id s acts
  captured : ∀ cause, (run env s acts).shared.captured = some cause ↔ ∃ part reply rest context inner,
    acts = part ++ .turn id reply :: rest ∧ (run env s part).fatal? env id reply = some (context, inner) ∧
    cause = .fatal context inner
  /-- Where the end of the stream and shutdown do not come together, only the end without shutdown is fatal. -/
  streamEnd : ∀ part reply rest, acts = part ++ .turn id reply :: rest →
    let x := run env s part
    ∀ feed l, x.startup? id = some (.listening feed l) →
      ¬ (x.shared.isCancelled x.shared.runToken ∧ (x.shared.feed feed).senderOpen = false) →
      (x.fatal? env id reply).isSome =
        ((l.visits? env .service x.shared.runToken x.shared reply).isSome &&
          !x.shared.isCancelled x.shared.runToken && x.shared.streamOver feed)
  /-- With a fatal error the tokens of the run and of the root are cancelled, and no token otherwise. -/
  tokens : ∀ part reply rest, acts = part ++ .turn id reply :: rest →
    let x := run env s part
    (run env s (part ++ [.turn id reply])).shared.tokens =
      match x.fatal? env id reply with
      | some _ => (x.shared.tokens.cancel x.shared.runToken).cancel x.shared.background.handler.root
      | none => x.shared.tokens

theorem Watched.subscribes (h : Watched s id) (reply : Reply) :
    .subscribe ∈ callsOf env id s (.turn id reply) ↔
      (s.caughtUp? env id reply).isSome ∧ s.shared.isCancelled s.shared.runToken = false := by
  cases hw : s.work? id with
  | none =>
    rw [callsOf_none env hw, caughtUp?, startup?, hw]
    simp
  | some w =>
    rcases Work.of_startup (h.kind hw) with rfl | ⟨st, rfl⟩
    · obtain ⟨hc, -, -, hnone⟩ := calls_of_asked env hw reply
      rw [hc, hnone]
      simp
    · exact (calls_of_startup env hw reply).1

theorem Watched.refused (h : Watched s id) (ha : Only (fun k => k ≠ .startup) acts) {part rest : List Action}
    (he : acts = part ++ .turn id reply :: rest) (hr : (System.run env s part).startup? id = some .reading)
    (hb : ((System.run env s part).shared.readRecord env reply).isOk → (System.run env s part).shared.busy) :
    .subscribe ∉ callsBy env id s acts := by
  subst he
  have hx := h.run env ha.of_append_left
  have hw := startup?_eq_some.1 hr
  have hends := Startup.ends_of_refused env (System.run env s part).shared.runToken hb
  -- It has not subscribed so far, does not in this turn, and is over then.
  have hsofar : .subscribe ∉ callsBy env id s part := by
    have honce := h.subscribes_once env ha.of_append_left
    have hun : (System.run env s part).unsubscribed id = true := by rw [unsubscribed, hw]; rfl
    have hle : (s.unsubscribed id).toNat ≤ 1 := Bool.toNat_le _
    rw [hun, Bool.toNat_true] at honce
    exact List.count_eq_zero.1 (by omega)
  have hturn := (startup_turn env hw reply).1
  rw [result?_eq_some.1 hends] at hturn
  have hnow : callsOf env id (System.run env s part) (.turn id reply) = [] := by
    rw [callsOf_turn env hw (kind_ne_stage rfl), pending?_of_none env hturn]
    rfl
  have hthen := (nothing_by_over env (Nat.lt_of_lt_of_le hx.here (length_act env _ (.turn id reply))) hturn rest).1
  rw [callsBy, along_append, along, hnow, ← callsBy, ← callsBy, hthen, List.append_nil, List.append_nil]
  exact hsofar

theorem Watched.cancelled (h : Watched s id) (ha : Only (fun k => k ≠ .startup) acts) {part rest : List Action}
    (he : acts = part ++ rest)
    (hc : (System.run env s part).shared.isCancelled (System.run env s part).shared.runToken)
    (hsofar : .subscribe ∉ callsBy env id s part) : .subscribe ∉ callsBy env id s acts := by
  subst he
  have hx := h.run env ha.of_append_left
  rw [callsBy, along_append, List.mem_append, not_or]
  refine ⟨hsofar, fun hm => ?_⟩
  obtain ⟨before, a, since, rfl, hcall⟩ := (mem_along env).1 hm
  have hy := hx.run env ha.of_append_right.of_append_left
  cases a with
  | turn task reply =>
    by_cases hid : task = id
    · subst hid
      have hnot := ((hy.subscribes env reply).1 hcall).2
      have hstill : (System.run env (System.run env s part) before).shared.isCancelled
        (System.run env s part).shared.runToken := by
        rw [← run_append]
        exact isCancelled_run env hc before
      rw [(runs_run env hx.launched before).2.1, hstill] at hnot
      cases hnot
    · rw [callsOf_other env fun reply he => hid (by cases he; rfl)] at hcall
      cases hcall
  | _ => cases hcall

/-- The one startup of a background run reads the record, catches up, subscribes and listens,
    and what it finds fatal ends the run. -/
theorem startup_course (hs : s₀.Idle) (before since : List Action) (id : Nat)
    (h : Only (fun k => k ≠ .startup) (before ++ since))
    (hasked : (run env s₀ before).work? id = some (.asked .startup)) :
    StartupCourse env (run env s₀ before) id since := by
  have hb := h.of_append_left
  have ha := h.of_append_right
  have hwatched := watched_asked env hs hb hasked
  have hpart : ∀ {part rest}, since = part ++ rest → Watched (run env (run env s₀ before) part) id := by
    rintro part rest rfl
    exact hwatched.run env ha.of_append_left
  constructor
  · intro c hc
    rcases hwatched.reads_first env hasked ha with ⟨hnone, -⟩ | ⟨hfirst, -⟩
    · rw [hnone] at hc
      cases hc
    · rw [hfirst] at hc
      exact (Option.mem_some_iff.1 hc).symm
  · have honce := hwatched.subscribes_once env ha
    have hle : ((run env s₀ before).unsubscribed id).toNat ≤ 1 := Bool.toNat_le _
    omega
  · intro part reply rest he
    exact (hpart he).subscribes env reply
  · intro part reply rest he hc
    rw [run_snoc]
    obtain ⟨report, hreport⟩ := Option.isSome_iff_exists.1 hc
    obtain ⟨st, hst, hcaught⟩ := Option.bind_eq_some_iff.1 hreport
    rw [(startup_turn env (startup?_eq_some.1 hst) reply).2.1]
    exact (Startup.resume_of_caughtUp env hcaught).1
  · intro part reply rest he
    exact hwatched.refused env ha he
  · intro part rest he
    exact hwatched.cancelled env ha he
  · intro cause
    have hcaptured := captured_of_watched env hwatched hasked ha
    rw [← Option.mem_toList, hcaptured, List.mem_map]
    constructor
    · rintro ⟨⟨context, inner⟩, hm, rfl⟩
      obtain ⟨part, a, rest, rfl, hf⟩ := (mem_along env).1 hm
      cases a with
      | turn task reply =>
        rw [fatalsOf] at hf
        split at hf
        · rename_i hid
          subst hid
          exact ⟨part, reply, rest, context, inner, rfl, Option.mem_toList.1 hf, rfl⟩
        · cases hf
      | _ => cases hf
    · rintro ⟨part, reply, rest, context, inner, rfl, hf, rfl⟩
      refine ⟨(context, inner), (mem_along env).2 ⟨part, _, rest, rfl, ?_⟩, rfl⟩
      rw [fatalsOf, if_pos rfl, hf]
      exact List.mem_singleton.2 rfl
  · intro part reply rest _ x feed l hl h
    rw [fatal?_of_work env (startup?_eq_some.1 hl), Startup.fatal?, Listener.visits_end env h]
    split <;> simp_all
  · intro part reply rest he
    dsimp only
    have hx := hpart he
    rw [run_snoc]
    cases hw : (run env (run env s₀ before) part).work? id with
    | none =>
      have hf : (run env (run env s₀ before) part).fatal? env id reply = none := by rw [fatal?, startup?, hw]; rfl
      rw [turn_of_none env reply hw, hf]
    | some w => exact (hx.turn_captures env hw reply).2

/-- The catch-up of startup is aborted, as no transaction can be begun, and so is its subscription. -/
def abortedAndUnsubscribed : List Action :=
  [.turn 1 .granted, .turn 1 .granted, .turn 1 (.failed (.reported ["disk full"])),
    .turn 1 (.failed (.reported ["no peers"]))]

theorem startup_course_aborted :
    let s := run .plain (opened [] (fun _ => []) [1]) [.launch (.root 0)]
    let s' := run .plain s abortedAndUnsubscribed
    callsBy .plain 1 s abortedAndUnsubscribed = [.metadata "progress", .begin, .subscribe] ∧
    (callsBy .plain 1 s abortedAndUnsubscribed).count .subscribe ≤ 1 ∧
    s'.shared.captured = some (.fatal Startup.unsubscribed (.reported ["no peers"])) ∧
    s'.shared.isCancelled (.root 0) := by
  dsimp only
  have hcourse := startup_course .plain (opened_idle [] (fun _ => []) [1]) [.launch (.root 0)] abortedAndUnsubscribed 1
    (by decide) (by decide +kernel)
  refine ⟨by decide +kernel, hcourse.once, (hcourse.captured _).2 ?_, by decide +kernel⟩
  exact ⟨abortedAndUnsubscribed.take 3, .failed (.reported ["no peers"]), [], Startup.unsubscribed,
    .reported ["no peers"], rfl,
    by decide +kernel, rfl⟩

end System

end CommitteeSync
