/-
  CommitteeSync.Proofs.Visits — what a task meets with in its turns.

  A visit is a turn seen from the task that has it: the call whose reply the task waited for,
  the state it found and the reply. All the faults and cancellations that a task meets with
  are in its visits, so what the write of an epoch comes to is said of them alone.

  Proved:
  (1) The write of an epoch goes on as long as its visits are clean. It comes to the error of
      the first visit that is not, to a refusal at the first assignment of another epoch, and
      otherwise, after the whole script, to the number of assignments
      (`EpochWrite.resume_underway`).
  (2) The calls of a task are those it got a reply to and the one it waits for
      (`System.calls_visited`).
-/

import CommitteeSync.Proofs.Background
import CommitteeSync.Proofs.TxProtocol

namespace CommitteeSync

open Turn

variable (env : Setup)

/-! ## Visits -/

structure Visit where
  /-- None in the first turn of a task. -/
  call? : Option Call
  found : Shared
  reply : Reply

/-- The error that a write of `epoch` comes to in this visit, if it does. The token interrupts
    every wait but that for a commit. -/
def Visit.error? (token : Token) (epoch : Epoch) (v : Visit) : Option EpochError :=
  if v.call? ≠ some .commit ∧ v.found.isCancelled token then some (.cancelled epoch)
  else
    match v.call?, v.reply with
    | some .begin, .failed cause => some ⟨epoch, .beginTx, cause⟩
    | some (.fetch _), .failed cause => some ⟨epoch, .fetch, .fetchCommittees epoch cause⟩
    | some (.put slot index), .failed cause => some ⟨epoch, .fetch, .putCommittee slot index cause⟩
    | some (.set _), .failed cause => some ⟨epoch, .setMetadata, cause⟩
    | some .commit, .failed cause => some ⟨epoch, .commit, cause⟩
    | _, _ => none

/-- No visit brought an error. -/
def Clean (token : Token) (epoch : Epoch) (visits : List Visit) : Prop := ∀ v ∈ visits, v.error? token epoch = none

/-- When the fetch for `epoch` was answered, the chain served `as`. -/
def Answered (epoch : Epoch) (as : List Assignment) (visits : List Visit) : Prop :=
  ∀ v ∈ visits, v.call? = some (.fetch (env.layout.firstSlot epoch)) → v.found.chain (env.layout.firstSlot epoch) = as

/-- No committee of another epoch was put. -/
def PutsOnly (epoch : Epoch) (visits : List Visit) : Prop :=
  ∀ v ∈ visits, ∀ slot index, v.call? = some (.put slot index) → env.layout.epochOf slot = epoch

/-! ## What a write comes to -/

/-- How a write of `epoch` may end that was served `as` and had these `visits`. Before the
    calls of the script there may be a `lead`, the first turn of a task. -/
inductive Verdict (token : Token) (epoch : Epoch) (as : List Assignment) (lead : List (Option Call)) (visits : List Visit) :
    EpochWrite.Result → Prop
  /-- Every step of the script was granted, the commit included. -/
  | whole : visits.map Visit.call? = lead ++ (script env epoch as).map some → Clean token epoch visits →
      (∀ a ∈ as, env.layout.epochOf a.slot = epoch) → Verdict token epoch as lead visits (.ok as.length)
  /-- The last visit, and no other, brought an error. -/
  | stopped (past : List Visit) (last : Visit) (error : EpochError) : visits = past ++ [last] → Clean token epoch past →
      last.error? token epoch = some error → Verdict token epoch as lead visits (.error error)
  /-- After `done` it was an assignment of another epoch's turn to be put. -/
  | foreign (done : List Assignment) (a : Assignment) (rest : List Assignment) : as = done ++ a :: rest →
      (∀ b ∈ done, env.layout.epochOf b.slot = epoch) → env.layout.epochOf a.slot ≠ epoch → Clean token epoch visits →
      visits.map Visit.call? =
        lead ++ ([Call.begin, .fetch (env.layout.firstSlot epoch)] ++ done.map Assignment.put).map some →
      Verdict token epoch as lead visits (.error ⟨epoch, .fetch, .foreignSlot a.slot (env.layout.epochOf a.slot) epoch⟩)

/-- A write of `epoch` that is over. -/
structure Course (token : Token) (epoch : Epoch) (as : List Assignment) (lead : List (Option Call)) (visits : List Visit)
    (r : EpochWrite.Result) : Prop where
  calls : visits.map Visit.call? <+: lead ++ (script env epoch as).map some
  answered : Answered env epoch as visits
  puts : PutsOnly env epoch visits
  verdict : Verdict env token epoch as lead visits r

section Courses

variable {token : Token} {epoch : Epoch} {as : List Assignment} {lead : List (Option Call)} {visits : List Visit}

theorem Visit.error?_epoch {v : Visit} {error : EpochError} (h : v.error? token epoch = some error) : error.epoch = epoch := by
  unfold error? at h
  split at h
  · cases h
    rfl
  · split at h <;> cases h <;> rfl

theorem Course.epoch_eq {error : EpochError}
    (h : Course env token epoch as lead visits (.error error)) : error.epoch = epoch := by
  cases h.verdict with
  | stopped past last _ _ _ hlast => exact Visit.error?_epoch hlast
  | foreign => rfl

/-- A write that was let through to its end ended well, and only such a write did. -/
theorem Course.ok_iff {r : EpochWrite.Result}
    (h : Course env token epoch as lead visits r) (n : Nat) :
    r = .ok n ↔ visits.map Visit.call? = lead ++ (script env epoch as).map some ∧ Clean token epoch visits ∧
      (∀ a ∈ as, env.layout.epochOf a.slot = epoch) ∧ n = as.length := by
  constructor
  · rintro rfl
    cases h.verdict with
    | whole hcalls hclean hof => exact ⟨hcalls, hclean, hof, rfl⟩
  · rintro ⟨-, hclean, hof, rfl⟩
    cases h.verdict with
    | whole => rfl
    | stopped past last error hvisits _ hlast =>
      rw [hclean last (by rw [hvisits]; exact List.mem_append_right _ (List.mem_singleton.2 rfl))] at hlast
      cases hlast
    | foreign done a rest has _ hother =>
      exact absurd (hof a (by rw [has]; exact List.mem_append_right _ List.mem_cons_self)) hother

end Courses

namespace EpochWrite

variable {token : Token} {epoch : Epoch} {as : List Assignment} {lead : List (Option Call)} {visits : List Visit}

/-- A turn of an open write, seen from the write. -/
def visit (token : Token) (epoch : Epoch) (w : EpochWrite) (sh : Shared) (reply : Reply) : Visit :=
  ⟨(w.waitsFor env token epoch).call?, sh, reply⟩

/-- The committees written so far, and those to be written yet, are `n`. -/
def Amounts (n : Nat) : EpochWrite → Prop
  | .beginning | .staging (.fetching _) => True
  | .staging (.putting _ written _ rest) => written + 1 + rest.length = n
  | .recording _ written => written = n
  | .committing _ written => written = n

/-- The write waits, with `visits` behind it, all of them clean. -/
structure Underway (token : Token) (epoch : Epoch) (as : List Assignment) (lead : List (Option Call)) (visits : List Visit)
    (w : EpochWrite) : Prop where
  calls : visits.map Visit.call? ++ [(w.waitsFor env token epoch).call?] = lead ++ (w.calls env epoch as).map some
  unasked : some (.fetch (env.layout.firstSlot epoch)) ∉ lead
  clean : Clean token epoch visits
  answered : Answered env epoch as visits
  puts : PutsOnly env epoch visits
  answer : w.Fresh ∨ w.Stages env epoch as
  amounts : w.Amounts as.length

theorem underway_beginning (hcalls : visits.map Visit.call? = lead) (hnone : ∀ call ∈ lead, call = none)
    (hclean : Clean token epoch visits) : Underway env token epoch as lead visits .beginning := by
  have hvisit : ∀ v ∈ visits, v.call? = none := fun v hv => hnone _ (hcalls ▸ List.mem_map.2 ⟨v, hv, rfl⟩)
  refine ⟨by rw [hcalls]; rfl, fun hm => ?_, hclean, fun v hv hcall => ?_, fun v hv _ _ hcall => ?_, Or.inl trivial, trivial⟩
  · cases hnone _ hm
  · rw [hvisit v hv] at hcall
    cases hcall
  · rw [hvisit v hv] at hcall
    cases hcall

/-! ## One turn -/

/-- A visit that brings an error is the last. -/
theorem resume_of_error {w : EpochWrite} {sh : Shared} {reply : Reply} {error : EpochError}
    (h : (w.visit env token epoch sh reply).error? token epoch = some error) :
    (w.resume env token epoch sh reply).2 = .ends (.error error) := by
  cases w with
  | beginning =>
    cases hc : sh.isCancelled token <;> cases reply <;>
      simp [visit, waitsFor, Wait.call?, Visit.error?, hc] at h <;> subst h <;> simp [resume, hc, fail]
  | staging s =>
    cases hc : sh.isCancelled token <;> cases s <;> cases reply <;>
      simp [visit, waitsFor, Wait.call?, Staging.call, Visit.error?, hc] at h <;> subst h <;>
      simp [resume, hc, abort, fail, Staging.resume, Turn.andThen, record]
  | recording tx written =>
    cases hc : sh.isCancelled token <;> cases reply <;>
      simp [visit, waitsFor, Wait.call?, Visit.error?, hc] at h <;> subst h <;> simp [resume, hc, abort, fail]
  | committing tx written =>
    cases reply <;> simp [visit, waitsFor, Wait.call?, Visit.error?] at h
    subst h
    rfl

/-- A clean visit brings a reply that grants the call, and finds the token standing. -/
theorem of_clean {w : EpochWrite} {sh : Shared} {reply : Reply}
    (h : (w.visit env token epoch sh reply).error? token epoch = none) :
    reply = .granted ∧ ((∀ tx written, w ≠ .committing tx written) → sh.isCancelled token = false) := by
  cases w with
  | staging s =>
    cases hc : sh.isCancelled token <;> cases s <;> cases reply <;>
      simp [visit, waitsFor, Wait.call?, Staging.call, Visit.error?, hc] at h ⊢
  | _ =>
    cases hc : sh.isCancelled token <;> cases reply <;> simp [visit, waitsFor, Wait.call?, Visit.error?, hc] at h ⊢

/-- Going through what is left of the answer ends only at an assignment of another epoch. -/
theorem advance_ends (epoch : Epoch) (tx : Transaction) (written : Nat) (sh : Shared) (rest : List Assignment) :
    Yields (andThen (Staging.advance env epoch tx written sh rest) .staging (record epoch))
      (fun _ w => w.Amounts (written + rest.length))
      (fun _ r => ∃ a later, rest = a :: later ∧ env.layout.epochOf a.slot ≠ epoch ∧
        r = .error ⟨epoch, .fetch, .foreignSlot a.slot (env.layout.epochOf a.slot) epoch⟩) := by
  cases rest with
  | nil => exact rfl
  | cons a later =>
    simp only [Staging.advance]
    split
    · show written + 1 + later.length = written + (later.length + 1)
      omega
    · rename_i hne
      exact ⟨a, later, rfl, hne, rfl⟩

/-- What the next visit of a write that has got so far finds and says of the chain. -/
theorem Underway.next {w : EpochWrite} (h : w.Underway env token epoch as lead visits) (sh : Shared) (reply : Reply)
    (has : w.Fresh → as = sh.chain (env.layout.firstSlot epoch)) :
    let now := visits ++ [w.visit env token epoch sh reply]
    now.map Visit.call? = lead ++ (w.calls env epoch as).map some ∧ Answered env epoch as now ∧ PutsOnly env epoch now := by
  refine ⟨by rw [List.map_append]; exact h.calls, ?_, ?_⟩
  · refine List.forall_mem_append.2 ⟨h.answered, List.forall_mem_singleton.2 fun hcall => ?_⟩
    cases w with
    | staging s =>
      cases s with
      | fetching tx => exact (has (h.answer.resolve_right nofun)).symm
      | putting tx written next rest => cases hcall
    | _ => cases hcall
  · refine List.forall_mem_append.2 ⟨h.puts, List.forall_mem_singleton.2 fun slot index hcall => ?_⟩
    cases w with
    | staging s =>
      cases s with
      | fetching tx => cases hcall
      | putting tx written next rest =>
        cases hcall
        obtain ⟨done, -, -, hof⟩ := h.answer.resolve_left nofun
        exact hof next (List.mem_append_right _ (List.mem_singleton.2 rfl))
    | _ => cases hcall

theorem Fresh.cases {w : EpochWrite} (h : w.Fresh) : w = .beginning ∨ w = .staging (.fetching .empty) := by
  cases w with
  | beginning => exact Or.inl rfl
  | staging s =>
    cases s with
    | fetching tx => exact Or.inr (congrArg (fun tx => EpochWrite.staging (.fetching tx)) h)
    | putting tx written next rest => exact h.elim
  | recording tx written => exact h.elim
  | committing tx written => exact h.elim

/-- Before the fetch is answered nothing depends on the answer. -/
theorem Underway.refetch {w : EpochWrite} (h : w.Underway env token epoch as lead visits) (hf : w.Fresh) (as' : List Assignment) :
    w.Underway env token epoch as' lead visits := by
  have hcalls := h.calls
  rw [calls_of_fresh env hf epoch as as'] at hcalls
  -- Of the calls that were answered none is the fetch.
  have hanswered : Answered env epoch as' visits := by
    intro v hv hcall
    have hmem : some (Call.fetch (env.layout.firstSlot epoch)) ∈ visits.map Visit.call? := List.mem_map.2 ⟨v, hv, hcall⟩
    rcases hf.cases with rfl | rfl
    · have hnone : visits.map Visit.call? ++ [some .begin] = lead ++ [some .begin] := hcalls
      rw [List.append_cancel_right hnone] at hmem
      exact absurd hmem h.unasked
    · have hone : visits.map Visit.call? ++ [some (.fetch (env.layout.firstSlot epoch))] =
          (lead ++ [some .begin]) ++ [some (.fetch (env.layout.firstSlot epoch))] := by
        rw [List.append_assoc]
        exact hcalls
      rw [List.append_cancel_right hone] at hmem
      rcases List.mem_append.1 hmem with hmem | hmem
      · exact absurd hmem h.unasked
      · cases List.mem_singleton.1 hmem
  refine ⟨hcalls, h.unasked, h.clean, hanswered, h.puts, Or.inl hf, ?_⟩
  rcases hf.cases with rfl | rfl <;> trivial

/-- A clean turn that does not end leaves the write one call further on. -/
theorem resume_next {w : EpochWrite} (h : w.Underway env token epoch as lead visits) (sh : Shared) (reply : Reply)
    (has : w.Fresh → as = sh.chain (env.layout.firstSlot epoch)) :
    Yields (w.resume env token epoch sh reply)
      (fun _ w' => w'.calls env epoch as = w.calls env epoch as ++ (w'.waitsFor env token epoch).call?.toList ∧
        (w'.Fresh ∨ w'.Stages env epoch as))
      (fun _ _ => True) := by
  rcases h.answer with hf | hst
  · rw [has hf]
    refine ((calls_fresh env epoch token sh w reply hf).and (fresh_resume env epoch token sh w reply hf)).mono
      (fun _ w' hw => ⟨hw.1, hw.2.imp_right fun hst => hst.2.2⟩) fun _ _ _ => trivial
  · refine ((calls_resume env token sh w reply hst).and (stages_resume env token sh w reply hst)).mono
      (fun _ w' hw => ⟨hw.1, Or.inr hw.2⟩) fun _ _ _ => trivial

/-- A clean turn that ends has committed, or has come to an assignment of another epoch. -/
theorem resume_verdict {w : EpochWrite} (h : w.Underway env token epoch as lead visits) (sh : Shared)
    (has : w.Fresh → as = sh.chain (env.layout.firstSlot epoch))
    (hstands : (∀ tx written, w ≠ .committing tx written) → sh.isCancelled token = false)
    (hclean : Clean token epoch (visits ++ [w.visit env token epoch sh .granted])) :
    Yields (w.resume env token epoch sh .granted) (fun _ w' => w'.Amounts as.length)
      (fun _ r => Verdict env token epoch as lead (visits ++ [w.visit env token epoch sh .granted]) r) := by
  have hcalls := (h.next env sh .granted has).1
  cases w with
  | beginning =>
    have hruns : sh.isCancelled token = false := hstands fun _ _ he => by cases he
    simp only [resume, hruns, Bool.false_eq_true, if_false]
    trivial
  | staging s =>
    have hruns : sh.isCancelled token = false := hstands fun _ _ he => by cases he
    simp only [resume, hruns, Bool.false_eq_true, if_false]
    cases s with
    | fetching tx =>
      have hchain := has (h.answer.resolve_right False.elim)
      have hends := advance_ends env epoch tx 0 sh as
      rw [Nat.zero_add] at hends
      simp only [Staging.resume]
      rw [← hchain]
      refine hends.mono_ends ?_
      rintro _ _ ⟨a, later, hrest, hother, rfl⟩
      exact .foreign [] a later hrest (fun _ hb => absurd hb List.not_mem_nil) hother hclean hcalls
    | putting tx written next rest =>
      obtain ⟨done, hdone, rfl, hof⟩ := h.answer.resolve_left False.elim
      have hamounts : written + 1 + rest.length = as.length := h.amounts
      have hends := advance_ends env epoch
        (Transaction.putCommittee ⟨[], done.map Committee.ofAssignment⟩ (Committee.ofAssignment next)) (written + 1) sh rest
      rw [hamounts] at hends
      refine hends.mono_ends ?_
      rintro _ _ ⟨a, later, rfl, hother, rfl⟩
      refine .foreign (done ++ [next]) a later (by rw [hdone, List.append_assoc]; rfl) hof hother hclean ?_
      rw [hcalls, calls, hdone, take_staged]
  | recording tx written =>
    have hruns : sh.isCancelled token = false := hstands fun _ _ he => by cases he
    have hamounts : written = as.length := h.amounts
    simp only [resume, hruns, Bool.false_eq_true, if_false]
    exact hamounts
  | committing tx written =>
    have hamounts : written = as.length := h.amounts
    subst hamounts
    exact .whole hcalls hclean (h.answer.resolve_left False.elim).2

/-- In its turn a write goes on with its script, or it is over. -/
theorem resume_underway {w : EpochWrite} (h : w.Underway env token epoch as lead visits) (sh : Shared) (reply : Reply)
    (has : w.Fresh → as = sh.chain (env.layout.firstSlot epoch)) :
    Yields (w.resume env token epoch sh reply)
      (fun _ w' => w'.Underway env token epoch as lead (visits ++ [w.visit env token epoch sh reply]))
      (fun _ r => Course env token epoch as lead (visits ++ [w.visit env token epoch sh reply]) r) := by
  obtain ⟨hcalls, hanswered, hputs⟩ := h.next env sh reply has
  have hscript : (visits ++ [w.visit env token epoch sh reply]).map Visit.call? <+: lead ++ (script env epoch as).map some := by
    rw [hcalls]
    exact List.prefix_append_right_inj lead |>.2 ((w.calls_prefix env).map some)
  cases herror : (w.visit env token epoch sh reply).error? token epoch with
  | some error =>
    have hends := resume_of_error env herror
    rcases hr : w.resume env token epoch sh reply with ⟨sh', w' | r⟩
    · rw [hr] at hends
      cases hends
    · rw [hr] at hends
      cases hends
      exact ⟨hscript, hanswered, hputs, .stopped visits _ error rfl h.clean herror⟩
  | none =>
    obtain ⟨rfl, hstands⟩ := of_clean env herror
    have hclean : Clean token epoch (visits ++ [w.visit env token epoch sh .granted]) :=
      List.forall_mem_append.2 ⟨h.clean, List.forall_mem_singleton.2 herror⟩
    refine ((resume_next env h sh .granted has).and (resume_verdict env h sh has hstands hclean)).mono ?_ ?_
    · rintro _ w' ⟨⟨hnext, hanswer⟩, hamounts⟩
      refine ⟨?_, h.unasked, hclean, hanswered, hputs, hanswer, hamounts⟩
      rw [hcalls, hnext, List.map_append, List.append_assoc]
      congr 1
      congr 1
      cases w' with
      | staging s => cases s <;> rfl
      | _ => rfl
    · rintro _ r ⟨-, hverdict⟩
      exact ⟨hscript, hanswered, hputs, hverdict⟩

/-- The answer is what the chain serves in the turn in which the fetch is granted. -/
theorem resume_served {w : EpochWrite} (h : w.Underway env token epoch as lead visits) (sh : Shared) (reply : Reply) :
    ∃ as', w.Underway env token epoch as' lead visits ∧ Yields (w.resume env token epoch sh reply)
      (fun _ w' => w'.Underway env token epoch as' lead (visits ++ [w.visit env token epoch sh reply]))
      (fun _ r => Course env token epoch as' lead (visits ++ [w.visit env token epoch sh reply]) r) := by
  by_cases hf : w.Fresh
  · exact ⟨_, h.refetch env hf _, resume_underway env (h.refetch env hf _) sh reply fun _ => rfl⟩
  · exact ⟨as, h, resume_underway env h sh reply fun hf' => absurd hf' hf⟩

end EpochWrite

/-! ## The visits of a task -/

namespace System

variable {s : System} {acts : List Action} {a : Action} {id : Nat} {w : Work}

/-- The visit of task `id` in an action, if it is a turn of the task. -/
def visitsOf (id : Nat) (s : System) : Action → List Visit
  | .turn task reply => if task = id ∧ (s.work? id).isSome then [⟨s.pending? env id, s.shared, reply⟩] else []
  | _ => []

/-- The visits of task `id` in a run, in order. -/
def visitsBy (id : Nat) (s : System) (acts : List Action) : List Visit := along env (visitsOf env id) s acts

theorem visitsOf_turn (hw : s.work? id = some w) (reply : Reply) :
    visitsOf env id s (.turn id reply) = [⟨(w.waitsFor env s.shared.runToken).call?, s.shared, reply⟩] := by
  rw [visitsOf, if_pos ⟨rfl, by rw [hw]; rfl⟩, pending?_of_some env hw]

/-- What is no turn of the task, or comes when it is over, is no visit. -/
theorem visitsOf_other (h : ∀ reply w, a = .turn id reply → s.work? id ≠ some w) : visitsOf env id s a = [] := by
  cases a with
  | turn task reply =>
    rw [visitsOf, if_neg]
    rintro ⟨rfl, hw⟩
    obtain ⟨w, hw⟩ := Option.isSome_iff_exists.1 hw
    exact h reply w rfl hw
  | _ => rfl

theorem work?_asked (s : System) (r : Request) : (s.request r).work? s.tasks.length = some (.asked r) := by
  rw [work?_eq_some, request, List.getElem?_append_right (Nat.le_refl _), Nat.sub_self]
  rfl

/-- A task stays of the kind that it was of. -/
theorem kind_since (hid : id < s.tasks.length) (h : (run env s acts).work? id = some w) :
    ∃ w₀, s.work? id = some w₀ ∧ w.kind = w₀.kind := by
  induction acts using List.reverseRecOn generalizing w with
  | nil => exact ⟨w, h, rfl⟩
  | append_singleton acts a ih =>
    rw [run_snoc] at h
    obtain ⟨v, hv, hk⟩ := kind_before env (Nat.lt_of_lt_of_le hid (length_run env s acts)) h
    obtain ⟨w₀, hw₀, hk₀⟩ := ih hv
    exact ⟨w₀, hw₀, hk.trans hk₀⟩

theorem pending?_idle (hid : id < s.tasks.length) (h : ∀ reply w, a = .turn id reply → s.work? id ≠ some w) :
    (act env s a).pending? env id = s.pending? env id := by
  have hsame := (idle_turn env hid h).1
  cases hw : s.work? id with
  | none => rw [pending?_of_none env hw, pending?_of_none env (hsame.trans hw)]
  | some w =>
    rw [pending?_of_some env hw, pending?_of_some env (hsame.trans hw)]
    exact Work.call?_waitsFor env _ _ w

/-- The calls of a task are those that it got a reply to and the one that it waits for. -/
theorem calls_visited (hid : id < s.tasks.length) (hk : ∀ w, s.work? id = some w → w.kind ≠ .stage)
    (hp : s.pending? env id = none) (acts : List Action) :
    callsBy env id s acts =
      (visitsBy env id s acts).filterMap Visit.call? ++ ((run env s acts).pending? env id).toList := by
  induction acts using List.reverseRecOn with
  | nil =>
    rw [run_nil, hp]
    rfl
  | append_singleton acts a ih =>
    have hlt : id < (run env s acts).tasks.length := Nat.lt_of_lt_of_le hid (length_run env s acts)
    rw [callsBy, visitsBy, along_snoc, along_snoc, List.filterMap_append, ← callsBy, ← visitsBy, ih, run_snoc]
    by_cases hturn : ∃ reply w, a = .turn id reply ∧ (run env s acts).work? id = some w
    · obtain ⟨reply, w, rfl, hw⟩ := hturn
      obtain ⟨w₀, hw₀, hkind⟩ := kind_since env hid hw
      have hstage : w.kind ≠ .stage := by
        rw [hkind]
        exact hk w₀ hw₀
      rw [callsOf_turn env hw hstage, visitsOf_turn env hw, pending?_of_some env hw]
      congr 1
    · have hother : ∀ reply w, a = .turn id reply → (run env s acts).work? id ≠ some w :=
        fun reply w he hw => hturn ⟨reply, w, he, hw⟩
      rw [(idle_turn env hlt hother).2, visitsOf_other env hother, pending?_idle env hlt hother, List.append_nil,
        List.filterMap_nil, List.append_nil]

end System

end CommitteeSync
