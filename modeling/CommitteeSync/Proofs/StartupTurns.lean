/-
  CommitteeSync.Proofs.StartupTurns — what a turn of startup comes to.

  Three findings of a turn are fatal: the record cannot be read, the subscription fails, and
  the listener meets the end of the head stream (`Startup.fatal?`). In some turn the catch-up
  ends, with whatever report (`Startup.caughtUp?`).

  Proved:
  (1) A listener meets the end of its stream if and only if it looks at the stream, the sender
      is gone, no event that is left starts an update, and a token that is cancelled gives way
      to all of them and to the end (`Listener.resume_over`). As long as the two do not come
      together, that is where the stream is over and the token not cancelled
      (`Listener.visits_end`).
  (2) A turn of startup leaves tokens and handler as a fatal error does if it finds one, and
      as they were otherwise (`Startup.resume_signals`).
  (3) With the end of the catch-up the guard is released, and startup subscribes unless its
      token is cancelled (`Startup.resume_of_caughtUp`). In no other turn does it subscribe
      (`Startup.resume_stage`).
-/

import CommitteeSync.Proofs.Attempts

namespace CommitteeSync

open Turn

variable (env : Setup)

/-! ## What passes and head updates leave alone -/

namespace Shared

/-- The tokens and the background run. -/
def signals (sh : Shared) : Tokens × Background := (sh.tokens, sh.background)

/-- The head streams besides. -/
def backdrop (sh : Shared) : List Feed × Tokens × Background := (sh.feeds, sh.signals)

variable {sh sh' : Shared}

theorem Writes.backdrop {c : Option (Epoch × Transaction)} (h : sh.Writes sh' c) : sh'.backdrop = sh.backdrop :=
  congrArg (fun s : Surroundings => (s.feeds, s.tokens, s.background)) h.surroundings

theorem backdrop_exit (sh : Shared) (g : Guard) : (sh.exit g).backdrop = sh.backdrop := by
  cases g <;> rfl

theorem backdrop_enter (sh : Shared) (g : Guard) (denial : Event) : (sh.enter g denial).1.backdrop = sh.backdrop := by
  unfold enter
  split
  · cases g <;> rfl
  · rfl

theorem signals_openFeed (sh : Shared) : sh.openFeed.1.signals = sh.signals := by
  unfold openFeed dropSender
  split <;> rfl

theorem isCancelled_of_signals (h : sh'.signals = sh.signals) (t : Token) : sh'.isCancelled t = sh.isCancelled t := by
  rw [isCancelled, isCancelled, show sh'.tokens = sh.tokens from congrArg Prod.fst h]

theorem signals_fail (sh : Shared) (context : String) (cause : Cause) :
    (sh.fail context cause).signals = (sh.trigger context cause).signals := by
  simp only [fail]
  split <;> rfl

/-- What a fatal error does depends on no more than the signals. -/
theorem signals_trigger (h : sh'.signals = sh.signals) (context : String) (cause : Cause) :
    (sh'.trigger context cause).signals = (sh.trigger context cause).signals := by
  have ht : sh'.tokens = sh.tokens := congrArg Prod.fst h
  have hb : sh'.background = sh.background := congrArg Prod.snd h
  simp only [trigger, signals, ht, hb]

end Shared

namespace HeadUpdate

theorem start_backdrop (event : HeadEvent) (sh : Shared) : (start env event sh).1.backdrop = sh.backdrop := by
  simp only [start]
  split <;> rfl

theorem fill_backdrop (guard : Guard) (token : Token) (resume epoch : Epoch) (sh : Shared) :
    (fill guard token resume epoch sh).1.backdrop = sh.backdrop := by
  have he := Shared.backdrop_enter sh guard (.headDeferred resume epoch)
  unfold fill
  split
  · rename_i h; rwa [h] at he
  · rename_i sh' h
    rw [h] at he
    refine (andThen_view Shared.backdrop _ _ fun sh _ => Shared.backdrop_exit sh guard).trans ?_
    exact (Pass.start_writes token resume epoch (sh'.log (.headFillsGap resume epoch))).backdrop.trans he

theorem dispatch_backdrop (guard : Guard) (token : Token) (epoch : Epoch) (sh : Shared) (r : Except Cause Record) :
    (dispatch guard token epoch sh r).1.backdrop = sh.backdrop := by
  cases r with
  | error cause => rfl
  | ok record =>
    simp only [dispatch]
    split
    · rfl
    · split
      · exact fill_backdrop guard token _ epoch sh
      · refine (andThen_view Shared.backdrop _ _ fun sh r => ?_).trans (EpochWrite.start_writes token epoch sh).backdrop
        cases r <;> rfl

theorem resume_backdrop (guard : Guard) (token : Token) (sh : Shared) (u : HeadUpdate) (reply : Reply) :
    (u.resume env guard token sh reply).1.backdrop = sh.backdrop := by
  cases u with
  | reading epoch => exact dispatch_backdrop guard token epoch sh _
  | direct epoch write =>
    refine (andThen_view Shared.backdrop _ _ fun sh r => ?_).trans
      (EpochWrite.resume_writes env token epoch sh write reply).backdrop
    cases r <;> rfl
  | filling epoch pass =>
    exact (andThen_view Shared.backdrop _ _ fun sh _ => Shared.backdrop_exit sh guard).trans
      (Pass.resume_writes env token sh pass reply).backdrop

/-- Only an epoch transition starts an update. -/
theorem start_result (event : HeadEvent) (sh : Shared) : (start env event sh).2.result?.isNone = event.transition := by
  simp only [start]
  split
  · rename_i h; rw [h]; rfl
  · rename_i h; rw [Bool.eq_false_iff.2 h]; rfl

end HeadUpdate

/-! ## The end of the stream -/

namespace Shared

/-- The stream has ended, and no event that is left starts an update. -/
def streamOver (sh : Shared) (feed : Nat) : Bool :=
  !(sh.feed feed).senderOpen && (sh.feed feed).queue.all fun event => !event.transition

/-- A listener that looks at the stream now meets its end: the stream is over, and a cancelled token
    gives way to what is left of it. -/
def meetsEnd (sh : Shared) (token : Token) (feed : Nat) : Bool :=
  sh.streamOver feed && (!sh.isCancelled token || (sh.feed feed).queue.length < env.lag sh)

end Shared

namespace Listener

/-- The state in which the listener looks at its stream in its next turn. -/
def visits? (guard : Guard) (token : Token) (sh : Shared) (reply : Reply) : Listener → Option Shared
  | .idle => some sh
  | .handling u =>
    match u.resume env guard token sh reply with
    | (_, .waits _) => none
    | (sh, .ends _) => some sh

/-- What its next turn comes to from there. -/
theorem resume_of_visits {guard : Guard} {token : Token} {sh sh' : Shared} {l : Listener} {reply : Reply}
    (h : l.visits? env guard token sh reply = some sh') (feed : Nat) :
    l.resume env guard token feed sh reply = takeNext env token feed sh' := by
  cases l with
  | idle => cases h; rfl
  | handling u =>
    simp only [visits?] at h
    simp only [resume]
    split at h
    · cases h
    · rename_i hr
      cases h
      rw [hr]
      rfl

/-- On the way there neither streams nor tokens change. -/
theorem visits_backdrop {guard : Guard} {token : Token} {sh sh' : Shared} {l : Listener} {reply : Reply}
    (h : l.visits? env guard token sh reply = some sh') : sh'.backdrop = sh.backdrop := by
  cases l with
  | idle => cases h; rfl
  | handling u =>
    have hback := u.resume_backdrop env guard token sh reply
    simp only [visits?] at h
    split at h
    · cases h
    · rename_i hr
      cases h
      rwa [hr] at hback

theorem senderOpen_updateFeed (sh : Shared) (feed : Nat) (queue : List HeadEvent) :
    ((sh.updateFeed feed fun f => { f with queue }).feed feed).senderOpen = (sh.feed feed).senderOpen := by
  simp only [Shared.feed, Shared.updateFeed, List.getElem?_modify_eq]
  cases sh.feeds[feed]? <;> rfl

theorem serve_signals (token : Token) (feed : Nat) (sh : Shared) (lag : Nat) (queue : List HeadEvent) :
    (serve env token feed sh lag queue).1.signals = sh.signals :=
  serve_fst (P := fun sh' => sh'.signals = sh.signals)
    (fun _ event _ h => (congrArg Prod.snd (HeadUpdate.start_backdrop env event _)).trans h) (fun _ _ h => h) rfl lag queue

theorem serve_over (token : Token) (feed : Nat) (sh : Shared) (lag : Nat) (queue : List HeadEvent) :
    (serve env token feed sh lag queue).2.result? = some .streamClosed ↔
      (sh.feed feed).senderOpen = false ∧ (queue.all fun event => !event.transition) ∧
        (sh.isCancelled token → queue.length < lag) := by
  induction queue generalizing sh lag with
  | nil =>
    unfold serve
    by_cases hc : sh.isCancelled token <;> by_cases ho : (sh.feed feed).senderOpen <;> by_cases hl : lag = 0 <;>
      simp [hc, ho, hl, stop, Turn.result?, Nat.pos_iff_ne_zero]
  | cons event rest ih =>
    unfold serve
    by_cases hstop : sh.isCancelled token ∧ lag = 0
    · rw [if_pos hstop, hstop.2]
      simp [stop, Turn.result?, hstop.1]
    · have hback := HeadUpdate.start_backdrop env event (sh.updateFeed feed fun f => { f with queue := rest })
      have hres := HeadUpdate.start_result env event (sh.updateFeed feed fun f => { f with queue := rest })
      rw [if_neg hstop]
      split
      · rename_i sh' u h
        rw [h] at hres
        have ht : event.transition = true := hres.symm
        simp [Turn.result?, ht]
      · rename_i sh' o h
        rw [h] at hback hres
        have ht : event.transition = false := hres.symm
        have hsignals : sh'.signals = sh.signals := congrArg Prod.snd hback
        have hfeed : (sh'.feed feed).senderOpen = (sh.feed feed).senderOpen := by
          have hfeeds : sh'.feeds = (sh.updateFeed feed fun f => { f with queue := rest }).feeds :=
            congrArg Prod.fst hback
          rw [← senderOpen_updateFeed sh feed rest, Shared.feed, hfeeds]
          rfl
        have hlag : (sh.isCancelled token → rest.length < lag - 1) ↔
            (sh.isCancelled token → (event :: rest).length < lag) := by
          rw [List.length_cons]
          refine imp_congr_right fun hc => ?_
          have : lag ≠ 0 := fun hz => hstop ⟨hc, hz⟩
          omega
        rw [ih, Shared.isCancelled_of_signals hsignals, hfeed, hlag, List.all_cons, ht]
        rfl

theorem takeNext_over (token : Token) (feed : Nat) (sh : Shared) :
    (takeNext env token feed sh).2.result? = some .streamClosed ↔ sh.meetsEnd env token feed := by
  rw [takeNext, serve_over, Shared.meetsEnd, Shared.streamOver]
  cases sh.isCancelled token <;> simp [and_assoc]

theorem resume_signals (guard : Guard) (token : Token) (feed : Nat) (sh : Shared) (l : Listener) (reply : Reply) :
    (l.resume env guard token feed sh reply).1.signals = sh.signals := by
  cases l with
  | idle => exact serve_signals env token feed sh _ _
  | handling u =>
    exact (andThen_view Shared.signals _ _ fun sh' _ => serve_signals env token feed sh' _ _).trans
      (congrArg Prod.snd (u.resume_backdrop env guard token sh reply))

/-- A listener that looks at its stream may meet the end of it there, and nowhere else. -/
theorem resume_over (guard : Guard) (token : Token) (feed : Nat) (sh : Shared) (l : Listener) (reply : Reply) :
    (l.resume env guard token feed sh reply).2.result? = some .streamClosed ↔
      (l.visits? env guard token sh reply).any (·.meetsEnd env token feed) := by
  cases hv : l.visits? env guard token sh reply with
  | some sh' => rw [resume_of_visits env hv, takeNext_over, Option.any_some]
  | none =>
    cases l with
    | idle => cases hv
    | handling u =>
      simp only [visits?] at hv
      simp only [resume]
      split at hv
      · rename_i hr
        rw [hr]
        simp [andThen, Turn.result?]
      · cases hv

/-- As long as the end of the stream and a cancelled token do not come together, it is the end
    of the stream that the listener meets: where it looks, the token is not cancelled and the stream
    is over. -/
theorem visits_end {guard : Guard} {token : Token} {feed : Nat} {sh : Shared} {l : Listener} {reply : Reply}
    (h : ¬ (sh.isCancelled token ∧ (sh.feed feed).senderOpen = false)) :
    (l.visits? env guard token sh reply).any (·.meetsEnd env token feed) =
      ((l.visits? env guard token sh reply).isSome && !sh.isCancelled token && sh.streamOver feed) := by
  cases hv : l.visits? env guard token sh reply with
  | none => rfl
  | some sh' =>
    have hback := visits_backdrop env hv
    have hfeed : sh'.feed feed = sh.feed feed := by
      rw [Shared.feed, Shared.feed, show sh'.feeds = sh.feeds from congrArg Prod.fst hback]
    have hcancelled := Shared.isCancelled_of_signals (congrArg Prod.snd hback) token
    rw [Option.any_some, Shared.meetsEnd, Shared.streamOver, Shared.streamOver, hfeed, hcancelled]
    cases hc : sh.isCancelled token with
    | false => simp
    | true =>
      have ho : (sh.feed feed).senderOpen = true := Bool.of_not_eq_false fun ho => h ⟨hc, ho⟩
      simp [ho]

/-- A stream that was opened just now is not over. -/
theorem start_over (token : Token) (sh : Shared) :
    (start env token sh.openFeed.2 sh.openFeed.1).2.result? ≠ some .streamClosed := by
  have hopen : (sh.openFeed.1.feed sh.openFeed.2).senderOpen = true := by
    simp [Shared.openFeed, Shared.feed, Feed.fresh]
  intro h
  have hover := (takeNext_over env token sh.openFeed.2 (sh.openFeed.1.log .listening)).1 h
  have hopen' : ((sh.openFeed.1.log .listening).feed sh.openFeed.2).senderOpen = true := hopen
  simp [Shared.meetsEnd, Shared.streamOver, hopen'] at hover

end Listener

/-! ## Startup -/

namespace Startup

/-- The fatal error that startup finds in its next turn. -/
def fatal? (token : Token) (sh : Shared) (reply : Reply) : Startup → Option (String × Cause)
  | .reading =>
    match sh.readRecord env reply with
    | .error cause => some (unreadable, cause)
    | .ok _ => none
  | .following _ => none
  | .subscribing =>
    match reply with
    | .failed cause => if sh.isCancelled token then none else some (unsubscribed, cause)
    | .granted => none
  | .listening feed l =>
    if (l.visits? env .service token sh reply).any (·.meetsEnd env token feed) then some (stopped, .streamClosed)
    else none

/-- The report of the catch-up that ends in the next turn of startup. -/
def caughtUp? (token : Token) (sh : Shared) (reply : Reply) : Startup → Option Report
  | .reading =>
    match sh.readRecord env reply with
    | .error _ => none
    | .ok record =>
      let resume := record.resumePoint env.startOverride
      match (sh.log (.startupResumes resume record.latestEpoch env.startOverride)).enter .service
        (.passDenied .startup) with
      | (_, false) => none
      | (sh, true) => (Follow.start token resume sh).2.result?
  | .following f => (f.resume env token sh reply).2.result?
  | _ => none

/-- Whether startup has come as far as to subscribe. -/
def subscribed : Startup → Bool
  | .reading | .following _ => false
  | .subscribing | .listening _ _ => true

/-- The fatal error, if there is one. -/
def failing (sh : Shared) : Option (String × Cause) → Shared
  | none => sh
  | some (context, cause) => sh.trigger context cause

variable {token : Token} {sh : Shared} {reply : Reply} {s : Startup}

theorem subscribe_signals (token : Token) (sh : Shared) (report : Report) :
    (subscribe token sh report).1.signals = sh.signals := by
  simp only [subscribe]
  split <;> rfl

theorem catchUp_signals (token : Token) (sh : Shared) (record : Record) :
    (catchUp env token sh (.ok record)).1.signals = sh.signals := by
  have he : ((sh.log (.startupResumes
    (record.resumePoint env.startOverride) record.latestEpoch env.startOverride)).enter
      .service (.passDenied .startup)).1.signals = sh.signals := congrArg Prod.snd (Shared.backdrop_enter ..)
  simp only [catchUp]
  split
  · rename_i h; rwa [h] at he
  · rename_i sh' h
    rw [h] at he
    refine (andThen_view Shared.signals _ _ fun sh _ => subscribe_signals token sh _).trans ?_
    exact (congrArg Prod.snd (Follow.start_writes token _ sh').backdrop).trans he

/-- After the listener only the end of its stream is fatal. -/
theorem finish_signals (t : Shared × Turn Listener ListenerExit) (feed : Nat) :
    (andThen t (.listening feed) finish).1.signals =
      (failing t.1 (if t.2.result? = some .streamClosed then some (stopped, .streamClosed) else none)).signals := by
  obtain ⟨sh, l | exit⟩ := t
  · rfl
  · cases exit
    · rfl
    · exact Shared.signals_fail sh _ _

theorem failing_signals {sh sh' : Shared} (h : sh'.signals = sh.signals) (fatal? : Option (String × Cause)) :
    (failing sh' fatal?).signals = (failing sh fatal?).signals := by
  cases fatal? with
  | none => exact h
  | some error => exact Shared.signals_trigger h _ _

/-- A turn of startup triggers the fatal error that it finds, and touches no token but so. -/
theorem resume_signals (token : Token) (sh : Shared) (s : Startup) (reply : Reply) :
    (s.resume env token sh reply).1.signals = (failing sh (s.fatal? env token sh reply)).signals := by
  cases s with
  | reading =>
    simp only [resume, fatal?]
    cases sh.readRecord env reply with
    | error cause => exact Shared.signals_fail sh _ _
    | ok record => exact catchUp_signals env token sh record
  | following f =>
    refine (andThen_view Shared.signals _ _ fun sh _ => subscribe_signals token sh _).trans ?_
    exact congrArg Prod.snd (Follow.resume_writes env token sh f reply).backdrop
  | subscribing =>
    simp only [resume, fatal?]
    cases reply with
    | failed cause =>
      dsimp only
      by_cases hc : sh.isCancelled token
      · rw [if_pos hc, if_pos hc]
        rfl
      · rw [if_neg hc, if_neg hc]
        exact Shared.signals_fail sh _ _
    | granted =>
      by_cases hc : sh.isCancelled token
      · rw [if_pos hc]
        rfl
      · rw [if_neg hc]
        have hkept := Listener.serve_signals env token sh.openFeed.2 (sh.openFeed.1.log .listening)
        refine (finish_signals (Listener.start env token sh.openFeed.2 sh.openFeed.1) sh.openFeed.2).trans ?_
        rw [if_neg (Listener.start_over env token sh)]
        exact (hkept _ _).trans (Shared.signals_openFeed sh)
  | listening feed l =>
    refine (finish_signals (l.resume env .service token feed sh reply) feed).trans ?_
    rw [failing_signals (l.resume_signals env .service token feed sh reply)]
    simp only [l.resume_over env .service token feed sh reply, fatal?]

/-- A turn with a fatal error is the last. -/
theorem ends_of_fatal {error : String × Cause} (h : s.fatal? env token sh reply = some error) :
    (s.resume env token sh reply).2.result? = some () := by
  cases s with
  | reading =>
    simp only [fatal?] at h
    simp only [resume]
    cases hr : sh.readRecord env reply with
    | error cause => rfl
    | ok record => rw [hr] at h; cases h
  | following f => cases h
  | subscribing =>
    cases reply with
    | granted => cases h
    | failed cause =>
      simp only [fatal?] at h
      simp only [resume]
      split
      · rfl
      · rfl
  | listening feed l =>
    simp only [fatal?] at h
    split at h
    · rename_i hc
      have hover := (l.resume_over env .service token feed sh reply).2 hc
      rw [resume, System.result?_eq_some.1 hover]
      rfl
    · cases h

/-- With the end of the catch-up the gate is free again and the head is subscribed to, unless
    the token is cancelled. Whatever the report says makes no difference. -/
theorem resume_of_caughtUp {report : Report} (h : s.caughtUp? env token sh reply = some report) :
    (s.resume env token sh reply).1.busy = false ∧
    (s.resume env token sh reply).2 = if sh.isCancelled token then .ends () else .waits .subscribing := by
  have hsubscribe : ∀ sh' : Shared, sh'.signals = sh.signals →
    s.resume env token sh reply = subscribe token sh' report →
      (s.resume env token sh reply).1.busy = false ∧
      (s.resume env token sh reply).2 = if sh.isCancelled token then .ends () else .waits .subscribing := by
    intro sh' hsignals hr
    rw [hr]
    refine ⟨subscribe_busy token sh' report, ?_⟩
    have hc : ((sh'.exit .service).log (.startupCaughtUp report)).isCancelled token = sh.isCancelled token :=
      Shared.isCancelled_of_signals hsignals token
    simp only [subscribe, hc]
    split <;> rfl
  cases s with
  | reading =>
    simp only [caughtUp?] at h
    cases hr : sh.readRecord env reply with
    | error cause => rw [hr] at h; cases h
    | ok record =>
      rw [hr] at h
      dsimp only at h
      have he : ((sh.log (.startupResumes
        (record.resumePoint env.startOverride) record.latestEpoch env.startOverride)).enter
          .service (.passDenied .startup)).1.signals = sh.signals := congrArg Prod.snd (Shared.backdrop_enter ..)
      split at h
      · cases h
      · rename_i sh' hen
        rw [hen] at he
        have hf := congrArg Prod.snd (Follow.start_writes token (record.resumePoint env.startOverride) sh').backdrop
        refine hsubscribe (Follow.start token (record.resumePoint env.startOverride) sh').1 (hf.trans he) ?_
        simp only [resume, hr, catchUp, hen]
        rw [System.result?_eq_some.1 h]
        rfl
  | following f =>
    have hf := congrArg Prod.snd (Follow.resume_writes env token sh f reply).backdrop
    refine hsubscribe (f.resume env token sh reply).1 hf ?_
    simp only [caughtUp?] at h
    rw [resume, System.result?_eq_some.1 h]
    rfl
  | subscribing => cases h
  | listening feed l => cases h

/-- Before the catch-up ends startup does not subscribe, and after that not again. -/
theorem resume_stage (h : s.caughtUp? env token sh reply = none) :
    Yields (s.resume env token sh reply) (fun _ s' => s' ≠ .subscribing ∧ s'.subscribed = s.subscribed)
      (fun _ _ => True) := by
  cases s with
  | reading =>
    simp only [caughtUp?] at h
    cases hr : sh.readRecord env reply with
    | error cause =>
      simp only [resume, hr]
      trivial
    | ok record =>
      rw [hr] at h
      dsimp only at h
      simp only [resume, hr, catchUp]
      split
      · trivial
      · rename_i sh' hen
        rw [hen] at h
        rcases hf : Follow.start token (record.resumePoint env.startOverride) sh' with ⟨sh'', f | report⟩
        · exact ⟨by simp, rfl⟩
        · simp only [hf] at h
          cases h
  | following f =>
    simp only [caughtUp?] at h
    simp only [resume]
    rcases hf : f.resume env token sh reply with ⟨sh', f' | report⟩
    · exact ⟨by simp, rfl⟩
    · rw [hf] at h
      cases h
  | subscribing =>
    simp only [resume]
    split
    · trivial
    · cases reply with
      | failed cause => trivial
      | granted =>
        exact (yields_andThen ..).2
          (yields_of_forall _ (fun _ _ => ⟨by simp, rfl⟩) fun sh' exit => by cases exit <;> trivial)
  | listening feed l =>
    exact (yields_andThen ..).2 (yields_of_forall _ (fun _ _ => ⟨by simp, rfl⟩) fun sh' exit => by cases exit <;> trivial)

/-- Without a record that can be read, and at a gate that is held, startup is over. -/
theorem ends_of_refused (token : Token) (h : (sh.readRecord env reply).isOk → sh.busy) :
    (reading.resume env token sh reply).2.result? = some () := by
  simp only [resume]
  cases hr : sh.readRecord env reply with
  | error cause => rfl
  | ok record =>
    rw [hr] at h
    have hb : (sh.log (.startupResumes
      (record.resumePoint env.startOverride) record.latestEpoch env.startOverride)).busy := h rfl
    simp only [catchUp, Shared.enter_busy hb]
    rfl

end Startup

end CommitteeSync
