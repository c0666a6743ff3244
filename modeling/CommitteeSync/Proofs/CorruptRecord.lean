/-
  CommitteeSync.Proofs.CorruptRecord — a record that does not decode is never overwritten.

  Catching up, the last epoch, startup and every head event of a new epoch need the record
  first, and nothing else writes epochs. If the record does not decode, none of them comes
  any further, whatever the override says, and so none of them ever replaces it.

  Proved, for any run of such requests in which startups come by launching, with any replies
  and any tokens cancelled (`corrupt_record_kept`):
  (1) The store is what it was, and all that anybody was asked for is the record.
  (2) Every request waits or has failed to read the record; a head event of a new epoch fails
      at the stage of reading it.
  (3) A startup waits for the record, or it is over and its fatal error is captured.
-/

import CommitteeSync.Proofs.Override
import CommitteeSync.Proofs.StartupCourse

namespace CommitteeSync

open Turn

variable (env : Setup)

/-- Work that reads the record before it writes, or writes nothing. -/
def Kind.readsFirst : Kind → Bool
  | .catchUp | .head _ | .listen | .aside => true
  | _ => false

namespace Request

/-- The task of the request waits for the record, or for something that writes nothing. -/
def Waits : Request → Work → Prop
  | .catchUp token, w => w = .catchUp token .reading
  | .head guard token event, w => event.transition ∧ w = .head guard token (.reading (env.layout.epochOf event.slot))
  | .latestEpoch, w => w = .latestEpoch
  | .readRecord, w => w = .readRecord
  | .listen token feed, w => w = .listen token feed .idle ∨ ∃ epoch, w = .listen token feed (.handling (.reading epoch))
  | .startup, w => w = .startup .reading
  | .waitForFatal, w | .stop, w | .runnerStart _, w | .runnerStop _, w | .runnerRun _, w | .reporter, w =>
    w.kind = .aside
  | .range _ _ _, _ | .writeEpoch _ _, _ | .stage _ _, _ | .pass _ _ _, _ => False

/-- The request ended without a record. A head event within an epoch is ignored without it. -/
def Fails : Request → Outcome → Prop
  | .catchUp _, o => ∃ cause, o = .catchUp (.error cause)
  | .head _ _ event, o =>
    if event.transition then ∃ cause, o = .head (.failed ⟨env.layout.epochOf event.slot, .readMetadata, cause⟩)
    else o = .head .ignored
  | .latestEpoch, o => ∃ cause, o = .latestEpoch (.error cause)
  | .readRecord, o => ∃ cause, o = .record (.error cause)
  | .startup, o => o = .startup
  | .listen _ _, _ | .waitForFatal, _ | .stop, _ | .runnerStart _, _ | .runnerStop _, _ | .runnerRun _, _
  | .reporter, _ => True
  | .range _ _ _, _ | .writeEpoch _ _, _ | .stage _ _, _ | .pass _ _ _, _ => False

/-- The request was not taken up yet, or it waits, or it has failed. -/
def Unserved (r : Request) : Task → Prop
  | .active w => w = .asked r ∨ r.Waits env w
  | .ended o => r.Fails env o

/-- Requests that need the record, startup among them. -/
def needsRecord (r : Request) : Bool := r.kind.readsFirst || r.kind == .startup

end Request

/-! ## One turn without a record -/

section Turns

variable {sh : Shared}

/-- The record cannot be read, whatever the reply. -/
def Shared.Corrupt (sh : Shared) : Prop := ∀ r, Record.decode (sh.store.readMetadata env.metadataKey) ≠ .ok r

theorem Shared.Corrupt.readRecord (h : sh.Corrupt env) (reply : Reply) :
    ∃ cause, sh.readRecord env reply = .error cause := by
  cases reply with
  | failed cause => exact ⟨_, rfl⟩
  | granted =>
    cases hd : Record.decode (sh.store.readMetadata env.metadataKey) with
    | ok r => exact absurd hd (h r)
    | error flaw => exact ⟨.decodeRecord flaw, by simp only [Shared.readRecord, hd]⟩

theorem HeadUpdate.start_waits (event : HeadEvent) (sh : Shared) :
    Yields (start env event sh) (fun _ u => event.transition ∧ u = .reading (env.layout.epochOf event.slot))
      (fun _ o => event.transition = false ∧ o = .ignored) := by
  simp only [start]
  split
  · rename_i h
    exact ⟨h, rfl⟩
  · rename_i h
    exact ⟨Bool.eq_false_iff.2 h, rfl⟩

theorem Listener.serve_waits (token : Token) (feed : Nat) (sh : Shared) (lag : Nat) (queue : List HeadEvent) :
    Yields (serve env token feed sh lag queue) (fun _ l => l = .idle ∨ ∃ epoch, l = .handling (.reading epoch))
      (fun _ _ => True) := by
  refine serve_yields (R := fun _ => True) (fun sh' event rest _ => ?_) (fun _ _ _ => Or.inl rfl) (fun _ _ _ => trivial)
    trivial lag queue
  exact (HeadUpdate.start_waits env event _).mono (fun _ u hu => Or.inr ⟨_, congrArg _ hu.2⟩) fun _ _ _ => trivial

/-- A head event of a new epoch fails at the stage of reading the record. -/
theorem HeadUpdate.reading_fails (h : sh.Corrupt env) (guard : Guard) (token : Token) (epoch : Epoch) (reply : Reply) :
    ∃ cause, (HeadUpdate.resume env guard token sh (.reading epoch) reply).2 =
      .ends (.failed ⟨epoch, .readMetadata, cause⟩) := by
  obtain ⟨cause, hr⟩ := h.readRecord env reply
  exact ⟨cause, by simp only [resume, hr, dispatch]⟩

theorem Startup.reading_ends (h : sh.Corrupt env) (token : Token) (reply : Reply) :
    ∃ cause, Startup.fatal? env token sh reply .reading = some (unreadable, cause) := by
  obtain ⟨cause, hr⟩ := h.readRecord env reply
  exact ⟨cause, by simp only [fatal?, hr]⟩

namespace Work

theorem listening_waits (token : Token) (feed : Nat) (sh : Shared) :
    Yields (andThen (Listener.takeNext env token feed sh) (.listen token feed) (ending .listened))
      (fun _ w => Request.Waits env (.listen token feed) w) (fun _ o => Request.Fails env (.listen token feed) o) := by
  refine (yields_andThen ..).2 ((Listener.serve_waits env token feed sh _ _).mono (fun _ l hl => ?_) fun _ _ _ => trivial)
  rcases hl with rfl | ⟨epoch, rfl⟩
  · exact Or.inl rfl
  · exact Or.inr ⟨epoch, rfl⟩

/-- The first turn of a request. -/
theorem start_unserved (sh : Shared) {r : Request} (hr : r.needsRecord) :
    Yields (start env sh r) (fun _ w => r.Waits env w) (fun _ o => r.Fails env o) := by
  have hkind := start_kind env sh r
  cases r with
  | catchUp token => rfl
  | head guard token event =>
    refine (yields_andThen ..).2
      ((HeadUpdate.start_waits env event sh).mono (fun _ u hu => ⟨hu.1, by rw [hu.2]⟩) fun _ o ho => ?_)
    show Request.Fails env (.head guard token event) (.head o)
    rw [ho.2]
    simp [Request.Fails, ho.1]
  | latestEpoch => rfl
  | readRecord => rfl
  | listen token feed =>
    exact listening_waits env token feed (sh.log .listening)
  | startup => rfl
  | range token resume target => cases hr
  | writeEpoch token epoch => cases hr
  | stage epoch ending => cases hr
  | pass token resume target => cases hr
  | _ => exact hkind.mono (fun _ _ hk => hk) fun _ _ _ => trivial

/-- A turn of a request that waits. -/
theorem resume_unserved (h : sh.Corrupt env) {r : Request} {w : Work} (hw : r.Waits env w) (reply : Reply) :
    Yields (w.resume env sh reply) (fun _ w' => r.Waits env w') (fun _ o => r.Fails env o) := by
  obtain ⟨cause, hread⟩ := h.readRecord env reply
  have hkind := w.resume_kind env sh reply
  cases r with
  | catchUp token =>
    cases hw
    simp only [resume, CatchUp.resume, hread]
    exact ⟨cause, rfl⟩
  | head guard token event =>
    obtain ⟨ht, rfl⟩ := hw
    simp only [resume, HeadUpdate.resume, hread, HeadUpdate.dispatch]
    show Request.Fails env (.head guard token event) (.head _)
    rw [Request.Fails, if_pos ht]
    exact ⟨cause, rfl⟩
  | latestEpoch =>
    cases hw
    simp only [resume, hread]
    exact ⟨cause, rfl⟩
  | readRecord =>
    cases hw
    simp only [resume, hread]
    exact ⟨cause, rfl⟩
  | listen token feed =>
    rcases hw with rfl | ⟨epoch, rfl⟩
    · exact listening_waits env token feed sh
    · simp only [resume, Listener.resume, HeadUpdate.resume, hread, HeadUpdate.dispatch]
      exact listening_waits env token feed _
  | startup =>
    cases hw
    simp only [resume, Startup.resume, hread]
    rfl
  | range token resume target => exact hw.elim
  | writeEpoch token epoch => exact hw.elim
  | stage epoch ending => exact hw.elim
  | pass token resume target => exact hw.elim
  | _ => exact hkind.mono (fun _ _ hk => hk.trans hw) fun _ _ _ => trivial

/-- Work aside from the epochs asks for nothing but the record. -/
theorem aside_calls {w : Work} (h : w.kind = .aside) (run : Token) :
    w.write? = none ∧
    ((w.waitsFor env run).call? = none ∨ (w.waitsFor env run).call? = some (.metadata env.metadataKey)) := by
  cases w with
  | asked r => exact ⟨rfl, Or.inl rfl⟩
  | latestEpoch => exact ⟨rfl, Or.inr rfl⟩
  | readRecord => exact ⟨rfl, Or.inr rfl⟩
  | waitForFatal => exact ⟨rfl, Or.inl rfl⟩
  | stop s => exact ⟨rfl, Or.inl (stopping_waits s)⟩
  | runner root s => exact ⟨rfl, Or.inl (supervisor_waits root s)⟩
  | reporter r => exact ⟨rfl, Or.inl rfl⟩
  | _ => cases h

/-- Who waits so has no write open, and waits for the record if for a reply. -/
theorem of_waits {r : Request} {w : Work} (hw : r.Waits env w) (run : Token) :
    w.kind ≠ .stage ∧ w.write? = none ∧
    ((w.waitsFor env run).call? = none ∨ (w.waitsFor env run).call? = some (.metadata env.metadataKey)) := by
  have haside : w.kind = .aside → w.kind ≠ .stage := fun hk => by rw [hk]; exact nofun
  cases r with
  | catchUp token => cases hw; exact ⟨nofun, rfl, Or.inr rfl⟩
  | head guard token event => obtain ⟨-, rfl⟩ := hw; exact ⟨nofun, rfl, Or.inr rfl⟩
  | latestEpoch => cases hw; exact ⟨nofun, rfl, Or.inr rfl⟩
  | readRecord => cases hw; exact ⟨nofun, rfl, Or.inr rfl⟩
  | listen token feed =>
    rcases hw with rfl | ⟨epoch, rfl⟩
    · exact ⟨nofun, rfl, Or.inl rfl⟩
    · exact ⟨nofun, rfl, Or.inr rfl⟩
  | startup => cases hw; exact ⟨nofun, rfl, Or.inr rfl⟩
  | range token resume target => exact hw.elim
  | writeEpoch token epoch => exact hw.elim
  | stage epoch ending => exact hw.elim
  | pass token resume target => exact hw.elim
  | _ => exact ⟨haside hw, aside_calls env hw run⟩

/-- A startup that is unserved waits for the record. -/
theorem waits_startup {r : Request} {st : Startup} (h : r.Unserved env (.active (.startup st))) : st = .reading := by
  rcases h with h | h
  · cases h
  · cases r with
    | startup => cases h; rfl
    | head guard token event => cases h.2
    | listen token feed => rcases h with h | ⟨epoch, h⟩ <;> cases h
    | _ => cases h

/-- And so does a head event. -/
theorem waits_update {r : Request} {w : Work} (h : r.Unserved env (.active w)) {run : Token} {guard : Guard}
    {token : Token}
    {u : HeadUpdate} (hu : w.update? run = some (guard, token, u)) : ∃ epoch, u = .reading epoch := by
  cases w with
  | head guard' token' u' =>
    cases hu
    rcases h with h | h
    · cases h
    · cases r with
      | head guard token event => obtain ⟨-, h⟩ := h; cases h; exact ⟨_, rfl⟩
      | listen token feed => rcases h with h | ⟨epoch, h⟩ <;> cases h
      | _ => cases h
  | listen token' feed l =>
    cases l with
    | idle => cases hu
    | handling u' =>
      cases hu
      rcases h with h | h
      · cases h
      · cases r with
        | head guard token event => cases h.2
        | listen token feed =>
          rcases h with h | ⟨epoch, h⟩
          · cases h
          · cases h
            exact ⟨epoch, rfl⟩
        | _ => cases h
  | startup st =>
    cases waits_startup env h
    cases hu
  | _ => cases hu

end Work

end Turns

namespace System

variable {s s₀ : System} {acts : List Action} {a : Action} {id : Nat} {r : Request} {w : Work}

/-! ## One action without a record -/

/-- A turn takes the request no further. -/
theorem unserved_turn (hc : s.shared.Corrupt env) (hr : r.needsRecord) (hu : r.Unserved env (.active w))
    (reply : Reply) :
    Yields (w.resume env s.shared reply) (fun _ w' => r.Waits env w') (fun _ o => r.Fails env o) := by
  rcases hu with rfl | hwaits
  · exact Work.start_unserved env s.shared hr
  · exact Work.resume_unserved env hc hwaits reply

theorem unserved_closed (hr : r.needsRecord) (hu : r.Unserved env (.active w)) : w.kind ≠ .stage ∧ w.write? = none := by
  rcases hu with rfl | hwaits
  · refine ⟨fun hk => ?_, rfl⟩
    have hk' : r.kind = .stage := hk
    simp [Request.needsRecord, hk', Kind.readsFirst] at hr
  · obtain ⟨hk, hv, -⟩ := Work.of_waits env hwaits (.root 0)
    exact ⟨hk, hv⟩

/-- It stores nothing and asks for nothing but the record. -/
theorem unserved_does (hc : s.shared.Corrupt env) (hr : r.needsRecord) (hw : s.work? id = some w)
    (hu : r.Unserved env (.active w)) (reply : Reply) :
    (act env s (.turn id reply)).shared.store = s.shared.store ∧
    ∃ n, (act env s (.turn id reply)).shared.calls =
      s.shared.calls ++ List.replicate n (.metadata env.metadataKey) := by
  obtain ⟨hk, hclosed⟩ := unserved_closed env hr hu
  have hv : s.write? id = none := by rw [write?_of_some hw, hclosed]
  constructor
  · cases turned env hw hk reply with
    | advances token epoch v v' hopen => rw [hv] at hopen; cases hopen
    | closes token epoch v sh hopen => rw [hv] at hopen; cases hopen
    | closed _ hon => exact hon.store.trans (congrArg Account.store (Shared.account_missing ..))
  · rw [calls_turn env hw hk]
    cases hw' : (act env s (.turn id reply)).work? id with
    | none => exact ⟨0, by rw [pending?_of_none env hw']; rfl⟩
    | some w' =>
      obtain ⟨w₀, hw₀, hres⟩ := work?_turn_eq_some env hw'
      cases hw.symm.trans hw₀
      have hy := unserved_turn env hc hr hu reply
      rw [hres] at hy
      rw [pending?_of_some env hw']
      rcases (Work.of_waits env hy (act env s (.turn id reply)).shared.runToken).2.2 with hnone | hcall
      · exact ⟨0, by rw [hnone]; rfl⟩
      · exact ⟨1, by rw [hcall]; rfl⟩

/-- The task of a request stays unserved. -/
theorem unserved_act {task : Task} (hc : s.shared.Corrupt env) (hr : r.needsRecord) (ht : s.tasks[id]? = some task)
    (hu : r.Unserved env task) (a : Action) :
    ∃ task', (act env s a).tasks[id]? = some task' ∧ r.Unserved env task' := by
  have hid : id < s.tasks.length := (List.getElem?_eq_some_iff.1 ht).1
  by_cases ha : ∃ reply, a = .turn id reply
  · obtain ⟨reply, rfl⟩ := ha
    cases task with
    | active w =>
      refine ⟨_, task_turn env reply (work?_eq_some.2 ht), ?_⟩
      have hy := unserved_turn env hc hr hu reply
      rcases hres : w.resume env s.shared reply with ⟨sh', w' | o⟩
      · rw [hres] at hy
        exact Or.inr hy
      · rw [hres] at hy
        exact hy
    | ended o =>
      have hnone : s.work? id = none := by rw [work?, ht]
      exact ⟨.ended o, by rw [turn_of_none env reply hnone, ht], hu⟩
  · exact ⟨task, by rw [tasks_kept env hid fun reply he => ha ⟨reply, he⟩, ht], hu⟩

/-! ## Along a run -/

/-- From `s₀` on nothing was stored, and nothing asked for but the record. -/
structure Undone (s₀ s : System) : Prop where
  store : s.shared.store = s₀.shared.store
  calls : ∃ n, s.shared.calls = s₀.shared.calls ++ List.replicate n (.metadata env.metadataKey)
  unserved : ∀ id w, s.work? id = some w → ∃ r : Request, r.needsRecord ∧ r.Unserved env (.active w)

theorem Undone.corrupt (h : Undone env s₀ s) (hc : s₀.shared.Corrupt env) : s.shared.Corrupt env := by
  intro r
  rw [h.store]
  exact hc r

theorem Undone.act (h : Undone env s₀ s) (hc : s₀.shared.Corrupt env) (ha : ∀ r, a = .request r → r.needsRecord) :
    Undone env s₀ (System.act env s a) := by
  have hcorrupt := h.corrupt env hc
  have hdoes : (System.act env s a).shared.store = s.shared.store ∧
      ∃ n, (System.act env s a).shared.calls = s.shared.calls ++ List.replicate n (.metadata env.metadataKey) := by
    by_cases hturn : ∃ id reply w, a = .turn id reply ∧ s.work? id = some w
    · obtain ⟨id, reply, w, rfl, hw⟩ := hturn
      obtain ⟨r, hr, hu⟩ := h.unserved id w hw
      exact unserved_does env hcorrupt hr hw hu reply
    · have haccount := act_account env (a := a) fun id reply w he hw => hturn ⟨id, reply, w, he, hw⟩
      refine ⟨congrArg Account.store haccount, 0, ?_⟩
      rw [← Shared.calls_account, haccount, Shared.calls_account, List.replicate_zero, List.append_nil]
  obtain ⟨hstore, n, hcalls⟩ := hdoes
  obtain ⟨m, hm⟩ := h.calls
  refine ⟨hstore.trans h.store, ⟨m + n, ?_⟩, fun id w' hw' => ?_⟩
  · rw [hcalls, hm, List.append_assoc, List.replicate_append_replicate]
  · cases came env hw' with
    | turn reply w he hw hres =>
      obtain ⟨r, hr, hu⟩ := h.unserved id w hw
      have hy := unserved_turn env hcorrupt hr hu reply
      rw [hres] at hy
      exact ⟨r, hr, Or.inr hy⟩
    | kept _ hw => exact h.unserved id w' hw
    | asked r hcase hw =>
      refine ⟨r, ?_, Or.inl hw⟩
      rcases hcase with he | rfl | rfl
      · exact ha r he
      · rfl
      · rfl

theorem needsRecord_of_only (h : Only Kind.readsFirst acts) (hr : .request r ∈ acts) : r.needsRecord := by
  rw [Request.needsRecord, h r hr]
  rfl

theorem undone_run (hs : s₀.Idle) (hc : s₀.shared.Corrupt env) (h : Only Kind.readsFirst acts) :
    Undone env s₀ (run env s₀ acts) := by
  induction acts using List.reverseRecOn with
  | nil =>
    refine ⟨rfl, ⟨0, (List.append_nil _).symm⟩, fun id w hw => ?_⟩
    rw [run_nil, hs.work?] at hw
    cases hw
  | append_singleton acts a ih =>
    rw [run_snoc]
    refine (ih h.of_snoc).act env hc fun r hr => ?_
    exact needsRecord_of_only h (List.mem_append_right _ (List.mem_singleton.2 hr.symm))

/-- A request stays unserved along the run. -/
theorem unserved_run (hs : s₀.Idle) (hc : s₀.shared.Corrupt env) {before since : List Action}
    (h : Only Kind.readsFirst (before ++ since))
    (hr : r.needsRecord) {task : Task} (ht : (run env s₀ before).tasks[id]? = some task) (hu : r.Unserved env task) :
    ∃ task', (run env s₀ (before ++ since)).tasks[id]? = some task' ∧ r.Unserved env task' := by
  induction since using List.reverseRecOn with
  | nil => exact ⟨task, by rw [List.append_nil, ht], hu⟩
  | append_singleton since a ih =>
    rw [← List.append_assoc] at h ⊢
    obtain ⟨task', ht', hu'⟩ := ih h.of_snoc
    rw [run_snoc]
    exact unserved_act env ((undone_run env hs hc h.of_snoc).corrupt env hc) hr ht' hu' a

/-- A startup without a record is still there, or its fatal error is captured. -/
theorem startup_run (hs : s₀.Idle) (hc : s₀.shared.Corrupt env) {before since : List Action}
    (h : Only Kind.readsFirst (before ++ since))
    (hasked : (run env s₀ before).work? id = some (.asked .startup)) :
    (∃ w, (run env s₀ (before ++ since)).work? id = some w) ∨
    ∃ cause, (run env s₀ (before ++ since)).shared.captured = some (.fatal Startup.unreadable cause) := by
  have hspawned : Only (fun k => k ≠ .startup) (before ++ since) := h.mono fun k hk => by cases k <;> trivial
  have hwatched := watched_asked env hs hspawned.of_append_left hasked
  induction since using List.reverseRecOn with
  | nil => exact Or.inl ⟨_, by rw [List.append_nil, hasked]⟩
  | append_singleton since a ih =>
    rw [← List.append_assoc] at h hspawned ⊢
    have hx : Watched (run env s₀ (before ++ since)) id := by
      rw [run_append]
      exact hwatched.run env hspawned.of_snoc.of_append_right
    have hundone := undone_run env hs hc h.of_snoc
    rw [run_snoc]
    rcases ih h.of_snoc hspawned.of_snoc with ⟨w, hw⟩ | ⟨cause, hcaptured⟩
    · by_cases ha : ∃ reply, a = .turn id reply
      · obtain ⟨reply, rfl⟩ := ha
        rcases Work.of_startup (hx.kind hw) with rfl | ⟨st, rfl⟩
        · exact Or.inl ⟨_, (asked_turn env hw reply).1⟩
        · obtain ⟨r, -, hu⟩ := hundone.unserved id _ hw
          cases Work.waits_startup env hu
          obtain ⟨cause, hf⟩ :=
            Startup.reading_ends env (hundone.corrupt env hc) (run env s₀ (before ++ since)).shared.runToken reply
          refine Or.inr ⟨cause, ?_⟩
          rw [(hx.turn_captures env hw reply).1, fatal?_of_work env hw, hf]
          rfl
      · exact Or.inl ⟨w, work?_kept env hw fun reply he => ha ⟨reply, he⟩⟩
    · refine Or.inr ⟨cause, ?_⟩
      rw [hx.captured_other env fun reply w _ hw => ?_, hcaptured]
      rw [hx.quiet w hw] at hcaptured
      cases hcaptured

/-- After `acts`, with a record that does not decode. -/
structure RecordKept (s₀ : System) (acts : List Action) : Prop where
  /-- No transaction was begun, and nothing committed. -/
  store : (run env s₀ acts).shared.store = s₀.shared.store
  /-- No committees were fetched, and nothing else asked for. -/
  calls : ∃ n, (run env s₀ acts).shared.calls = s₀.shared.calls ++ List.replicate n (.metadata env.metadataKey)
  requests : ∀ before r since, acts = before ++ .request r :: since →
    ∃ task, (run env s₀ acts).tasks[(run env s₀ before).tasks.length]? = some task ∧ r.Unserved env task
  /-- The same for the head events of a listener. -/
  updates : ∀ id guard token u, ((run env s₀ acts).work? id).bind (·.update? (run env s₀ acts).shared.runToken) =
    some (guard, token, u) →
    ∃ epoch, u = .reading epoch ∧ ∀ reply, ∃ cause,
      (u.resume env guard token (run env s₀ acts).shared reply).2 = .ends (.failed ⟨epoch, .readMetadata, cause⟩)
  startup : ∀ before since id, acts = before ++ since → (run env s₀ before).work? id = some (.asked .startup) →
    (run env s₀ acts).work? id = some (.asked .startup) ∨ (run env s₀ acts).work? id = some (.startup .reading) ∨
    (run env s₀ acts).outcome? id = some .startup ∧
      ∃ cause, (run env s₀ acts).shared.captured = some (.fatal Startup.unreadable cause)

/-- A record that does not decode is never overwritten: whatever is asked for, nothing is
    begun, fetched or stored, and all that needs the record fails. -/
theorem corrupt_record_kept (hs : s₀.Idle) (hcorrupt : ∀ r, recorded env s₀ ≠ .ok r) (h : Only Kind.readsFirst acts) :
    RecordKept env s₀ acts := by
  have hc : s₀.shared.Corrupt env := hcorrupt
  have hundone := undone_run env hs hc h
  refine ⟨hundone.store, hundone.calls, ?_, ?_, ?_⟩
  · rintro before r since rfl
    have hr : r.needsRecord := needsRecord_of_only h (List.mem_append_right _ List.mem_cons_self)
    have hasked : (run env s₀ (before ++ [.request r])).tasks[(run env s₀ before).tasks.length]? =
      some (.active (.asked r)) := by
      rw [run_snoc, act, request, List.getElem?_append_right (Nat.le_refl _), Nat.sub_self]
      rfl
    rw [List.append_cons] at h ⊢
    exact unserved_run env hs hc h hr hasked (Or.inl rfl)
  · intro id guard token u hu
    obtain ⟨w, hw, hu⟩ := Option.bind_eq_some_iff.1 hu
    obtain ⟨r, -, hun⟩ := hundone.unserved id w hw
    obtain ⟨epoch, rfl⟩ := Work.waits_update env hun hu
    exact ⟨epoch, rfl, HeadUpdate.reading_fails env (hundone.corrupt env hc) guard token epoch⟩
  · rintro before since id rfl hasked
    obtain ⟨task, ht, hu⟩ := unserved_run env hs hc h (r := .startup) rfl (work?_eq_some.1 hasked) (Or.inl rfl)
    cases task with
    | active w =>
      rw [work?_eq_some.2 ht]
      rcases hu with rfl | hwaits
      · exact Or.inl rfl
      · exact Or.inr (Or.inl (congrArg some hwaits))
    | ended o =>
      right
      right
      have hover : (run env s₀ (before ++ since)).work? id = none := by rw [work?, ht]
      refine ⟨by rw [outcome?, ht]; exact congrArg some hu, ?_⟩
      rcases startup_run env hs hc h hasked with ⟨w, hw⟩ | hcaptured
      · rw [hover] at hw
        cases hw
      · exact hcaptured

/-- Startup and a catch-up on an empty record, which does not decode. -/
def startupAndCatchUp : List Action :=
  .launch (.root 0) :: List.replicate 2 (.turn 1 .granted) ++
  .request (.catchUp (.root 1)) :: List.replicate 2 (.turn 2 .granted)

/-- The head event of epoch 2 after that. -/
def thenHead : List Action := List.replicate 2 (.turn 3 .granted)

theorem corrupt_record_kept_with_override :
    let s₀ := opened [("progress", [])] (fun _ => []) [4]
    let s := run (.startingAt 3) s₀ (startupAndCatchUp ++ .request (.head .service (.root 1) ⟨8, true⟩) :: thenHead)
    s.shared.store = s₀.shared.store ∧ s.shared.calls = List.replicate 3 (.metadata "progress") ∧
    (∃ cause, s.shared.captured = some (.fatal Startup.unreadable cause)) ∧
    ∃ cause, s.outcome? 3 = some (.head (.failed ⟨2, .readMetadata, cause⟩)) := by
  dsimp only
  have hcorrupt : ∀ r, recorded (.startingAt 3) (opened [("progress", [])] (fun _ => []) [4]) ≠ .ok r := by
    intro r hr
    cases hr
  have hkept := corrupt_record_kept (.startingAt 3) (opened_idle [("progress", [])] (fun _ => []) [4]) hcorrupt
    (show Only Kind.readsFirst (startupAndCatchUp ++ .request (.head .service (.root 1) ⟨8, true⟩) :: thenHead) by
      decide)
  refine ⟨hkept.store, by decide +kernel, ?_, ?_⟩
  · rcases hkept.startup [.launch (.root 0)] _ 1 rfl (by decide +kernel) with hasked | hreading | ⟨-, hcaptured⟩
    · exact absurd hasked (by decide +kernel)
    · exact absurd hreading (by decide +kernel)
    · exact hcaptured
  · obtain ⟨task, ht, hu⟩ := hkept.requests startupAndCatchUp _ thenHead rfl
    have hlen :
        (run (.startingAt 3) (opened [("progress", [])] (fun _ => []) [4]) startupAndCatchUp).tasks.length = 3 := by
      decide +kernel
    rw [hlen] at ht
    have hover : (run (.startingAt 3) (opened [("progress", [])] (fun _ => []) [4])
        (startupAndCatchUp ++ .request (.head .service (.root 1) ⟨8, true⟩) :: thenHead)).work? 3 = none := by
          decide +kernel
    cases task with
    | active w =>
      rw [work?, ht] at hover
      cases hover
    | ended o =>
      obtain ⟨cause, rfl⟩ := hu
      exact ⟨cause, by rw [outcome?, ht]; rfl⟩

end System

end CommitteeSync
