/-
  CommitteeSync.Proofs.HeadOutcomes — what a transition comes to, and what it leaves.

  Proved for the event of any slot that crosses into an epoch, from any state, whatever fails:
  (1) If the token stands, the outcome follows from the answer to the look at the record, from
      the guard in that turn and from the first epoch that could not be written. Without a
      record that can be read, for an epoch that is covered, or with the guard held the record
      is the only thing that was asked for. Otherwise each epoch from the resume point on is
      one transaction with all of what the chain served for it, up to the epoch of the event
      or up to the one before the first that failed (`Handled`).
  (2) If nobody else commits, what is committed in the end is what was committed in the
      beginning and these transactions, and the record is the last of these epochs.
  (3) At no time, also with the token cancelled, is the record past an epoch that was not
      committed: all the epochs committed so far are the first ones from the resume point on,
      and the record is the last of them.
  (4) It comes to an end if it always gets another turn.
  All of this is `System.transition_handled`.
-/

import CommitteeSync.Proofs.HeadCourse

namespace CommitteeSync

open Turn

variable (env : Setup)

/-! ## Failures with the token standing -/

section Standing

variable {token : Token} {epoch : Epoch}

/-- While the token stands no visit is an interruption. -/
theorem Visit.error?_genuine {v : Visit} {error : EpochError} (h : v.error? token epoch = some error)
    (hstands : v.found.isCancelled token = false) : error.stage ≠ .cancelled := by
  unfold error? at h
  rw [hstands] at h
  simp only [Bool.false_eq_true, and_false, if_false] at h
  split at h <;> cases h <;> nofun

theorem Course.genuine {as : List Assignment} {lead : List (Option Call)} {visits : List Visit} {error : EpochError}
    (h : Course env token epoch as lead visits (.error error)) (hstands : ∀ v ∈ visits, v.found.isCancelled token = false) :
    error.stage ≠ .cancelled := by
  cases h.verdict with
  | stopped past last _ hvisits _ hlast =>
    refine Visit.error?_genuine hlast (hstands last ?_)
    rw [hvisits]
    exact List.mem_append_right _ (List.mem_singleton.2 rfl)
  | foreign => nofun

theorem Pass.outcomeOf_genuine {error : EpochError} (h : error.stage ≠ .cancelled) : outcomeOf error = .aborted error := by
  unfold outcomeOf
  split
  · exact absurd ‹_› h
  · rfl

end Standing

/-! ## Outcomes -/

/-- What becomes of a transition to `epoch`. It got through `legs`, of which `last?` is the
    last epoch, and `now` are the visits of the epoch after them. -/
inductive Handled (token : Token) (epoch : Epoch) (answer : Except Cause Record) (held : Bool) :
    List Leg → Option Epoch → List Visit → HeadOutcome → Prop
  | unread (cause : Cause) : answer = .error cause →
      Handled token epoch answer held [] none [] (.failed ⟨epoch, .readMetadata, cause⟩)
  | covered (record : Record) : answer = .ok record → epoch < record.resumePoint none →
      Handled token epoch answer held [] none [] (.alreadyProcessed epoch)
  | processed (record : Record) (leg : Leg) : answer = .ok record → record.resumePoint none = epoch → leg.epoch = epoch →
      Handled token epoch answer held [leg] (some epoch) [] (.processed epoch leg.as.length)
  | deferred (record : Record) : answer = .ok record → record.resumePoint none < epoch → held →
      Handled token epoch answer held [] none [] (.deferred epoch)
  | backfilled (record : Record) (legs : List Leg) : answer = .ok record → record.resumePoint none < epoch → held = false →
      legs.map Leg.epoch = upTo (record.resumePoint none) epoch →
      Handled token epoch answer held legs (some epoch) []
        (.backfilled (record.resumePoint none) epoch (epoch - record.resumePoint none + 1))
  /-- The first epoch that could not be written is `error.epoch`. -/
  | failed (record : Record) (legs : List Leg) (as : List Assignment) (now : List Visit) (error : EpochError) :
      answer = .ok record → record.resumePoint none ≤ error.epoch → error.epoch ≤ epoch →
      (record.resumePoint none < epoch → held = false) → error.stage ≠ .cancelled →
      legs.map Leg.epoch ++ [error.epoch] = upTo (record.resumePoint none) error.epoch →
      Course env token error.epoch as [] now (.error error) →
      Handled token epoch answer held legs (System.before? (record.resumePoint none) error.epoch) now (.failed error)

/-- What a transition did that got through `legs` and then had the visits `now`, all of them after the answer. -/
structure Did (token : Token) (legs : List Leg) (last? : Option Epoch) (now rest : List Visit)
    (commits : List (Epoch × Transaction)) : Prop where
  visits : rest = legs.flatMap Leg.visits ++ now
  commits : commits = legs.map (Leg.commit env)
  done : ∀ l ∈ legs, l.Done env token
  last : (legs.map Leg.epoch).getLast? = last?

theorem Did.nothing (token : Token) : Did env token [] none [] [] [] :=
  ⟨rfl, rfl, fun _ hl => absurd hl List.not_mem_nil, rfl⟩

/-- The visits of a pass after its first one. -/
theorem Leg.rest_of_path {first first' : Visit} {legs : List Leg} {now rest : List Visit}
    (h : first' :: rest = path first legs now) : first' = first ∧ rest = legs.flatMap Leg.visits ++ now :=
  List.cons.inj h

namespace HeadUpdate

variable {guard : Guard} {token : Token} {epoch : Epoch} {read : Visit} {rest : List Visit}
  {commits : List (Epoch × Transaction)} {o : HeadOutcome}

/-- What the pass told that filled the gap. -/
theorem handled_of_ends {record : Record} {report : Report} (hread : read.Reads env (.ok record))
    (hlt : record.resumePoint none < epoch) (hfree : (read.found.gate guard).held = false)
    (hends : Pass.Ends env token (record.resumePoint none) epoch
      (read.entering guard (record.resumePoint none) epoch :: rest) commits report)
    (htold : ∀ sh, (finishFilling guard epoch sh report).2 = .ends o)
    (hstands : read.found.isCancelled token = false) (hrest : ∀ v ∈ rest, v.found.isCancelled token = false) :
    ∃ legs last? now,
      Handled env token epoch (read.found.readRecord env read.reply) (read.found.gate guard).held legs last? now o ∧
      Did env token legs last? now rest commits := by
  have htold' := htold read.found
  rw [hread.answer, hfree]
  cases hends with
  | nothing _ hgt => exact absurd hlt (UInt64.lt_asymm hgt)
  | whole first legs hle hvisits _ hcommits hdone hepochs =>
    cases htold'
    have hlength : UInt64.ofNat legs.length = epoch - record.resumePoint none + 1 := by
      rw [← ofNat_length_upTo hle, ← hepochs, List.length_map]
    rw [hlength]
    refine ⟨legs, some epoch, [], .backfilled record legs rfl hlt rfl hepochs,
      (Leg.rest_of_path hvisits).2, hcommits, hdone, ?_⟩
    rw [hepochs]
    exact getLast?_upTo hle
  | short first legs k now outcome hle hle' hvisits _ hcommits hdone hepochs hhalts =>
    obtain ⟨rfl, hrest'⟩ := Leg.rest_of_path hvisits
    cases hhalts with
    | cancelled last hlast hc =>
      -- The token was cancelled in a visit that found it standing.
      refine absurd hc (Bool.eq_false_iff.1 ?_)
      rcases List.mem_cons.1 (List.mem_of_getLast? hlast) with rfl | hmem
      · rw [Visit.entering_cancelled]
        exact hstands
      · refine hrest last ?_
        rw [hrest']
        exact hmem
    | failed as _ error hcourse =>
      have hgenuine : error.stage ≠ .cancelled := by
        refine hcourse.genuine env fun v hv => hrest v ?_
        rw [hrest']
        exact List.mem_append_right _ hv
      rw [Pass.outcomeOf_genuine hgenuine] at htold'
      cases htold'
      obtain rfl := hcourse.epoch_eq env
      refine ⟨legs, _, now, .failed record legs as now error rfl hle hle' (fun _ => rfl) hgenuine hepochs hcourse,
        hrest', hcommits, hdone, (System.before?_of_upTo hle hepochs).1⟩

theorem Came.asked (h : Came env guard token epoch read rest commits o) : read.call? = some (.metadata env.metadataKey) := by
  cases h <;> exact Visit.Reads.call ‹_›

/-- With the token standing a transition came to what the answer, the guard and the first
    failure say. -/
theorem Came.handled (h : Came env guard token epoch read rest commits o) (hstands : read.found.isCancelled token = false)
    (hrest : ∀ v ∈ rest, v.found.isCancelled token = false) :
    ∃ legs last? now,
      Handled env token epoch (read.found.readRecord env read.reply) (read.found.gate guard).held legs last? now o ∧
      Did env token legs last? now rest commits := by
  cases h with
  | unread cause hread hv hc =>
    subst hv hc
    exact ⟨[], none, [], .unread cause hread.answer, .nothing env token⟩
  | covered record hread hlt hv hc =>
    subst hv hc
    exact ⟨[], none, [], .covered record hread.answer hlt, .nothing env token⟩
  | processed record leg hread hat hleg hv hdone hc =>
    refine ⟨[leg], some epoch, [], .processed record leg hread.answer hat hleg, ?_, hc, List.forall_mem_singleton.2 hdone, ?_⟩
    · rw [hv, List.flatMap_singleton, List.append_nil]
    · rw [← hleg]
      rfl
  | interrupted record hread hat hc =>
    rw [hc] at hstands
    cases hstands
  | failed record as error hread hat hcourse hc =>
    have herror : error.epoch = record.resumePoint none := (hcourse.epoch_eq env).trans hat.symm
    have hle : record.resumePoint none ≤ error.epoch := by rw [herror]; exact UInt64.le_refl _
    have hle' : error.epoch ≤ epoch := by rw [herror, hat]; exact UInt64.le_refl _
    have hnlt : ¬ record.resumePoint none < epoch := by rw [hat]; exact UInt64.lt_irrefl _
    have hlegs : [] ++ [error.epoch] = upTo (record.resumePoint none) error.epoch := by rw [herror, upTo_self]; rfl
    have hcourse' : Course env token error.epoch as [] rest (.error error) := by rwa [hcourse.epoch_eq env]
    refine ⟨[], _, rest, .failed record [] as rest error hread.answer hle hle' (fun hlt => absurd hlt hnlt)
      (hcourse.genuine env hrest) hlegs hcourse', rfl, hc, fun _ hl => absurd hl List.not_mem_nil, ?_⟩
    exact (System.before?_of_upTo hle hlegs).1
  | deferred record hread hlt hheld hv hc =>
    subst hv hc
    exact ⟨[], none, [], .deferred record hread.answer hlt hheld, .nothing env token⟩
  | filled record report _ hread hlt hfree hends htold =>
    exact handled_of_ends env hread hlt hfree hends htold hstands hrest

/-! ## At any time -/

/-- The commits so far are those of the first epochs from the resume point of the record that was read. -/
def InTurn (token : Token) (epoch : Epoch) (visits : List Visit) (commits : List (Epoch × Transaction)) (legs : List Leg) :
    Prop :=
  commits = legs.map (Leg.commit env) ∧ (∀ l ∈ legs, l.Done env token) ∧
    (legs = [] ∨ ∃ read ∈ visits, ∃ record, read.Reads env (.ok record) ∧
      legs.map Leg.epoch <+: upTo (record.resumePoint none) epoch)

theorem inTurn_nil {visits : List Visit} (hcommits : commits = []) : InTurn env token epoch visits commits [] :=
  ⟨hcommits, fun _ hl => absurd hl List.not_mem_nil, Or.inl rfl⟩

theorem Goes.inTurn {u : HeadUpdate} (h : Goes env guard token epoch read rest commits u) {visits : List Visit}
    (hv : read ∈ visits) : ∃ legs, InTurn env token epoch visits commits legs := by
  cases h with
  | direct record as w _ _ _ hcommits => exact ⟨[], inTurn_nil env hcommits⟩
  | filling record p hread hlt hfree hadv =>
    obtain ⟨first, legs, as, now, hadv⟩ := hadv
    have hinitial := legs_initial hadv.within.1 hadv.within.2 hadv.epochs
    exact ⟨legs, hadv.commits, hadv.done, Or.inr ⟨read, hv, record, hread, hinitial⟩⟩

theorem Came.inTurn (h : Came env guard token epoch read rest commits o) {visits : List Visit} (hv : read ∈ visits) :
    ∃ legs, InTurn env token epoch visits commits legs := by
  cases h with
  | processed record leg hread hat hleg _ hdone hc =>
    refine ⟨[leg], hc, List.forall_mem_singleton.2 hdone, Or.inr ⟨read, hv, record, hread, ?_⟩⟩
    rw [hat, upTo_self, List.map_singleton, hleg]
  | filled record report _ hread hlt hfree hends =>
    cases hends with
    | nothing first _ _ _ hc => exact ⟨[], inTurn_nil env hc⟩
    | whole first legs _ _ _ hc hdone hepochs =>
      refine ⟨legs, hc, hdone, Or.inr ⟨read, hv, record, hread, ?_⟩⟩
      rw [hepochs]
    | short first legs k now outcome hle hle' _ _ hc hdone hepochs =>
      exact ⟨legs, hc, hdone, Or.inr ⟨read, hv, record, hread, legs_initial hle hle' hepochs⟩⟩
  | unread _ _ _ hc => exact ⟨[], inTurn_nil env hc⟩
  | covered _ _ _ _ hc => exact ⟨[], inTurn_nil env hc⟩
  | interrupted _ _ _ _ _ hc => exact ⟨[], inTurn_nil env hc⟩
  | failed _ _ _ _ _ _ hc => exact ⟨[], inTurn_nil env hc⟩
  | deferred _ _ _ _ _ hc => exact ⟨[], inTurn_nil env hc⟩

end HeadUpdate

/-! ## Along a run -/

namespace System

variable {s : System} {guard : Guard} {token : Token} {event : HeadEvent} {id : Nat} {acts : List Action}

theorem Heading.inTurn {visits : List Visit} {commits : List (Epoch × Transaction)}
    (h : Heading env guard token event id visits commits s) :
    ∃ legs, HeadUpdate.InTurn env token (env.layout.epochOf event.slot) visits commits legs := by
  cases h with
  | asked _ _ hc => exact ⟨[], HeadUpdate.inTurn_nil env hc⟩
  | reading _ _ _ _ hc => exact ⟨[], HeadUpdate.inTurn_nil env hc⟩
  | underway first read rest u _ _ hv hgoes => exact hgoes.inTurn env (by simp [hv])
  | ended first read rest o _ _ hv hcame => exact hcame.inTurn env (by simp [hv])

theorem Heading.outcome {visits : List Visit} {commits : List (Epoch × Transaction)} {o : Outcome}
    (h : Heading env guard token event id visits commits s) (ho : s.outcome? id = some o) :
    ∃ first read rest h, o = .head h ∧ first.call? = none ∧ visits = first :: read :: rest ∧
      HeadUpdate.Came env guard token (env.layout.epochOf event.slot) read rest commits h := by
  cases h with
  | asked ht => simp [outcome?, ht] at ho
  | reading first ht => simp [outcome?, ht] at ho
  | underway first read rest u ht => simp [outcome?, ht] at ho
  | ended first read rest h ht hfirst hv hcame =>
    simp only [outcome?, ht, Option.some.injEq] at ho
    exact ⟨first, read, rest, h, ho.symm, hfirst, hv, hcame⟩

/-- What task `id` has done that came to `o`: it asked for the record after `first`, was answered
    in `read`, got through `legs` and then had the visits `now`. -/
structure Finished (guard : Guard) (token : Token) (epoch : Epoch) (s : System) (id : Nat) (acts : List Action)
    (first read : Visit) (legs : List Leg) (last? : Option Epoch) (now : List Visit) (o : HeadOutcome) : Prop where
  handled : Handled env token epoch (read.found.readRecord env read.reply) (read.found.gate guard).held legs last? now o
  visits : visitsBy env id s acts = first :: read :: (legs.flatMap Leg.visits ++ now)
  asked : first.call? = none ∧ read.call? = some (.metadata env.metadataKey)
  /-- The answer is of the record that there was in the beginning. -/
  answered : Sole env id s acts → read.found.readRecord env read.reply = s.shared.readRecord env read.reply
  /-- After the record come the script of each leg and the calls for the epoch that failed. -/
  calls : callsBy env id s acts = .metadata env.metadataKey ::
    ((legs.flatMap fun l => script env l.epoch l.as) ++ now.filterMap Visit.call?)
  done : ∀ l ∈ legs, l.Done env token
  /-- One transaction for each epoch. -/
  commits : commitsBy env id s acts = legs.map (Leg.commit env)
  ledger : Sole env id s acts → (run env s acts).shared.ledger = s.shared.ledger.commitAll (legs.map (Leg.commit env))
  record : Sole env id s acts → (run env s acts).shared.store.readMetadata env.metadataKey =
    (last?.map fun e => Record.encode ⟨e⟩).or (s.shared.store.readMetadata env.metadataKey)

/-- What holds of the handling of a transition by task `id`, which was asked for last in `s`. -/
structure TransitionHandled (guard : Guard) (token : Token) (epoch : Epoch) (s : System) (id : Nat) : Prop where
  /-- With the token standing, the outcome and all that was committed are decided by the
      answer, by the guard in the turn of the answer and by what was met with since. -/
  result : ∀ acts o, (run env s acts).outcome? id = some o → (run env s acts).shared.isCancelled token = false →
    ∃ h first read legs last? now, o = .head h ∧ Finished env guard token epoch s id acts first read legs last? now h
  /-- The record is never past what was committed. -/
  progress : ∀ acts, Sole env id s acts → ∃ legs : List Leg, commitsBy env id s acts = legs.map (Leg.commit env) ∧
    (∀ l ∈ legs, l.Done env token) ∧
    (legs = [] ∨ ∃ record, Record.decode (s.shared.store.readMetadata env.metadataKey) = .ok record ∧
      legs.map Leg.epoch <+: upTo (record.resumePoint none) epoch) ∧
    (run env s acts).shared.store.readMetadata env.metadataKey =
      ((legs.map Leg.epoch).getLast?.map fun e => Record.encode ⟨e⟩).or (s.shared.store.readMetadata env.metadataKey)
  returns : ∀ schedule, Often id schedule → ∃ n h, (run env s (first schedule n)).outcome? id = some (.head h)

/-- A transition comes to what the record, the guard and the first epoch that cannot be
    written say, and leaves the record at the last epoch that it has committed. -/
theorem transition_handled (s : System) (guard : Guard) (token : Token) (event : HeadEvent) (htransition : event.transition) :
    TransitionHandled env guard token (env.layout.epochOf event.slot) (s.request (.head guard token event)) s.tasks.length := by
  have hid := length_request s (.head guard token event)
  have hk := kind_requested s (r := .head guard token event) nofun
  have hheading := heading_run env s guard token htransition
  constructor
  · intro acts o ho hstands
    obtain ⟨first, read, rest, h, rfl, hfirst, hvisits, hcame⟩ := (hheading acts).outcome env ho
    have hall := standing_before env s.tasks.length hstands
    rw [hvisits, List.forall_mem_cons, List.forall_mem_cons] at hall
    obtain ⟨legs, last?, now, hhandled, hdid⟩ := hcame.handled env hall.2.1 hall.2.2
    have hread : read.call? = some (.metadata env.metadataKey) := hcame.asked env
    have hcalls := calls_requested env s (r := .head guard token event) nofun acts
    rw [pending?_of_none env (work?_of_outcome? ho), Option.toList_none, List.append_nil, hvisits, List.filterMap_cons, hfirst,
      List.filterMap_cons, hread, hdid.visits, List.filterMap_append, Leg.calls_flatMap hdid.done] at hcalls
    refine ⟨h, first, read, legs, last?, now, rfl, hhandled, ?_, ⟨hfirst, hread⟩, fun hsole => ?_, hcalls, hdid.done,
      hdid.commits, fun hsole => ?_, fun hsole => ?_⟩
    · rw [hvisits, hdid.visits]
    · have hmem : read ∈ visitsBy env s.tasks.length (s.request (.head guard token event)) acts := by simp [hvisits]
      exact readRecord_of_ledger env (kept_at_answer env htransition hmem hread hsole) read.reply
    · rw [← hdid.commits]
      exact ledger_sole env hid hk hsole
    · rw [← hdid.last]
      exact record_sole env hid hk hdid.commits hsole
  · intro acts hsole
    obtain ⟨legs, hcommits, hdone, hinitial⟩ := (hheading acts).inTurn env
    refine ⟨legs, hcommits, hdone, hinitial.imp_right ?_, record_sole env hid hk hcommits hsole⟩
    rintro ⟨read, hmem, record, hread, hprefix⟩
    have hkept := readRecord_of_ledger env (kept_at_answer env htransition hmem hread.call hsole) read.reply
    exact ⟨record, Shared.readRecord_ok env (hkept.symm.trans hread.answer), hprefix⟩
  · intro schedule ho
    obtain ⟨n, hover⟩ := ends_of_falls env passBelow_wf Work.left Work.InRange
      (fun sh w reply h => w.resume_falls env sh reply h) (work?_asked s (.head guard token event)) trivial ho
    obtain ⟨o, hout⟩ := outcome?_of_over (Nat.lt_of_lt_of_le hid (length_run env _ _)) hover
    obtain ⟨_, _, _, h, rfl, -⟩ := (hheading _).outcome env hout
    exact ⟨n, h, hout⟩

/-- An event of epoch 2 over a store without a record, where the commit of epoch 1 fails. -/
theorem transition_handled_commit_refused :
    let s := (opened [] (fun _ => []) []).request (.head .parts (.root 0) ⟨8, true⟩)
    let acts := List.replicate 9 (.turn 0 .granted) ++ [.turn 0 (.failed (.reported ["disk full"]))]
    let error : EpochError := ⟨1, .commit, .reported ["disk full"]⟩
    (run .plain s acts).outcome? 0 = some (.head (.failed error)) ∧
    (∃ first read legs last? now, Finished .plain .parts (.root 0) 2 s 0 acts first read legs last? now (.failed error)) ∧
    (run .plain s acts).shared.store.readMetadata "progress" = some (Record.encode ⟨0⟩) := by
  dsimp only
  have hstands : (run .plain ((opened [] (fun _ => []) []).request (.head .parts (.root 0) ⟨8, true⟩))
      (List.replicate 9 (.turn 0 .granted) ++ [.turn 0 (.failed (.reported ["disk full"]))])).shared.isCancelled (.root 0) =
        false := by decide +kernel
  obtain ⟨h, first, read, legs, last?, now, ho, hfinished⟩ :=
    (transition_handled .plain (opened [] (fun _ => []) []) .parts (.root 0) ⟨8, true⟩ rfl).result _ _ rfl hstands
  cases ho
  exact ⟨rfl, ⟨first, read, legs, last?, now, hfinished⟩, by decide +kernel⟩

end System

end CommitteeSync
