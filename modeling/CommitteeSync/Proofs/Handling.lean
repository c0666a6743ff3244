/-
  CommitteeSync.Proofs.Handling — which events a listener handles in a turn.

  In one turn a listener may be through with the event in hand, ignore any number of events
  and take one more in hand. `serveNoting` and `resumeNoting` are its turns with a note of
  each event it takes and of what came of it; without the notes they are the turns
  themselves (`Listener.serveNoting_serve`, `Listener.resumeNoting_resume`).

  Proved: one turn carries a history of handlings, each over before the next begins, on to
  another. What was handled and what is unread make up the same events before and after,
  and the listener stops only for its token or at the end of its stream
  (`Listener.resumeNoting_goesOn`).
-/

import CommitteeSync.Proofs.StartupTurns

namespace CommitteeSync

open Turn

variable (env : Setup)

/-! ## Histories -/

/-- What there is to note about events: one is taken in hand, and what came of it. -/
inductive Handling where
  | begins (event : HeadEvent)
  | returns (outcome : HeadOutcome)
  deriving DecidableEq, Repr

namespace Handling

def event? : Handling → Option HeadEvent
  | .begins event => some event
  | .returns _ => none

def outcome? : Handling → Option HeadOutcome
  | .begins _ => none
  | .returns outcome => some outcome

/-- The events taken in hand, in order. -/
def events (notes : List Handling) : List HeadEvent := notes.filterMap event?

/-- What came of the events that were handled to the end, in order. -/
def outcomes (notes : List Handling) : List HeadOutcome := notes.filterMap outcome?

/-- Events handled one after another, each to its end, and the one in hand after them. -/
def history (done : List (HeadEvent × HeadOutcome)) (inHand : Option HeadEvent) : List Handling :=
  done.flatMap (fun h => [.begins h.1, .returns h.2]) ++ (inHand.map begins).toList

variable {done done' : List (HeadEvent × HeadOutcome)} {inHand : Option HeadEvent}

variable (notes : List Handling) (event : HeadEvent) (outcome : HeadOutcome)

theorem events_append (notes' : List Handling) : events (notes ++ notes') = events notes ++ events notes' :=
  List.filterMap_append

@[simp] theorem events_begins : events (notes ++ [.begins event]) = events notes ++ [event] := events_append notes _

@[simp] theorem events_returns : events (notes ++ [.returns outcome]) = events notes :=
  (events_append notes _).trans (List.append_nil _)

@[simp] theorem outcomes_begins : outcomes (notes ++ [.begins event]) = outcomes notes :=
  List.filterMap_append.trans (List.append_nil _)

@[simp] theorem outcomes_returns : outcomes (notes ++ [.returns outcome]) = outcomes notes ++ [outcome] :=
  List.filterMap_append

theorem events_history : events (history done inHand) = done.map Prod.fst ++ inHand.toList := by
  induction done with
  | nil => cases inHand <;> rfl
  | cons h done ih => exact congrArg (h.1 :: ·) ih

theorem history_append : history done none ++ history done' inHand = history (done ++ done') inHand := by
  simp [history]

end Handling

/-! ## The stream -/

namespace Shared

variable {sh sh' : Shared} {feed other : Nat}

/-- The events of the stream that no one has taken. -/
def unread (sh : Shared) (feed : Nat) : List HeadEvent := (sh.feed feed).queue

theorem unread_of_feeds (h : sh'.feeds = sh.feeds) (feed : Nat) : sh'.unread feed = sh.unread feed := by
  rw [unread, unread, Shared.feed, Shared.feed, h]

/-- A stream with events in it is there. -/
theorem feed_updateFeed_self (h : sh.unread feed ≠ []) (f : Feed → Feed) :
    (sh.updateFeed feed f).feed feed = f (sh.feed feed) := by
  simp only [unread, Shared.feed, updateFeed, List.getElem?_modify_eq] at h ⊢
  cases hf : sh.feeds[feed]? with
  | none =>
    rw [hf] at h
    exact absurd rfl h
  | some _ => rfl

theorem feed_updateFeed_ne (h : other ≠ feed) (f : Feed → Feed) : (sh.updateFeed other f).feed feed = sh.feed feed := by
  rw [Shared.feed, Shared.feed, updateFeed, List.getElem?_modify_ne _ _ h]

end Shared

/-! ## A listener with notes -/

namespace Listener

/-- Whether the listener has an event in hand. -/
def isHandling : Listener → Bool
  | .idle => false
  | .handling _ => true

/-- `serve` with notes of the events it takes. -/
def serveNoting (token : Token) (feed : Nat) (sh : Shared) (lag : Nat) :
    List HeadEvent → List Handling × (Shared × Turn Listener ListenerExit)
  | [] =>
    if sh.isCancelled token ∧ ((sh.feed feed).senderOpen ∨ lag = 0) then ([], stop feed sh .shutdown)
    else if (sh.feed feed).senderOpen then ([], sh, .waits .idle)
    else ([], stop feed sh .streamClosed)
  | event :: rest =>
    if sh.isCancelled token ∧ lag = 0 then ([], stop feed sh .shutdown)
    else
      match HeadUpdate.start env event (sh.updateFeed feed fun f => { f with queue := rest }) with
      | (sh, .waits u) => ([.begins event], sh, .waits (.handling u))
      | (sh, .ends outcome) =>
        let (notes, t) := serveNoting token feed sh (lag - 1) rest
        (.begins event :: .returns outcome :: notes, t)

/-- `takeNext` with notes. -/
def takeNextNoting (token : Token) (feed : Nat) (sh : Shared) : List Handling × (Shared × Turn Listener ListenerExit) :=
  serveNoting env token feed sh (env.lag sh) (sh.unread feed)

/-- `resume` with notes. -/
def resumeNoting (guard : Guard) (token : Token) (feed : Nat) (sh : Shared) (l : Listener) (reply : Reply) :
    List Handling × (Shared × Turn Listener ListenerExit) :=
  match l with
  | .idle => takeNextNoting env token feed sh
  | .handling u =>
    match u.resume env guard token sh reply with
    | (sh, .waits u) => ([], sh, .waits (.handling u))
    | (sh, .ends outcome) =>
      let (notes, t) := takeNextNoting env token feed sh
      (.returns outcome :: notes, t)

theorem serveNoting_serve (token : Token) (feed : Nat) (sh : Shared) (lag : Nat) (queue : List HeadEvent) :
    (serveNoting env token feed sh lag queue).2 = serve env token feed sh lag queue := by
  induction queue generalizing sh lag with
  | nil =>
    unfold serveNoting serve
    split
    · rfl
    · split <;> rfl
  | cons event rest ih =>
    unfold serveNoting serve
    split
    · rfl
    · rcases HeadUpdate.start env event (sh.updateFeed feed fun f => { f with queue := rest }) with ⟨sh', u | outcome⟩
      · rfl
      · exact ih sh' _

theorem resumeNoting_resume (guard : Guard) (token : Token) (feed : Nat) (sh : Shared) (l : Listener) (reply : Reply) :
    (l.resumeNoting env guard token feed sh reply).2 = l.resume env guard token feed sh reply := by
  cases l with
  | idle => exact serveNoting_serve env token feed sh _ _
  | handling u =>
    simp only [resumeNoting, resume]
    rcases u.resume env guard token sh reply with ⟨sh', u' | outcome⟩
    · rfl
    · exact serveNoting_serve env token feed sh' _ _

/-! ## What a turn does to the history -/

/-- How a listener that had the event `inHand` or none has gone on: its notes carry any
    history on, and nothing is taken out of order, twice or not at all while it listens. -/
structure GoesOn (token : Token) (feed : Nat) (sh : Shared) (inHand : Option HeadEvent)
    (t : List Handling × (Shared × Turn Listener ListenerExit)) (done : List (HeadEvent × HeadOutcome))
    (inHand' : Option HeadEvent) : Prop where
  notes : Handling.history [] inHand ++ t.1 = Handling.history done inHand'
  order : Yields t.2
    (fun sh' l => l.isHandling = inHand'.isSome ∧
      done.map Prod.fst ++ inHand'.toList ++ sh'.unread feed = inHand.toList ++ sh.unread feed)
    (fun _ exit => inHand' = none ∧ ∃ lost, done.map Prod.fst ++ lost = inHand.toList ++ sh.unread feed ∧
      match exit with
      | .shutdown => sh.isCancelled token
      | .streamClosed => lost = [] ∧ (sh.feed feed).senderOpen = false)

variable {token : Token} {feed : Nat} {sh sh' : Shared} {inHand : Option HeadEvent}

theorem GoesOn.stops (h : sh.isCancelled token) : GoesOn token feed sh none ([], stop feed sh .shutdown) [] none :=
  ⟨rfl, rfl, sh.unread feed, rfl, h⟩

/-- With one event handled to its end, taken just now or in hand before, the listener goes on
    with what is left of the stream. -/
theorem GoesOn.after {event : HeadEvent} {outcome : HeadOutcome} {done : List (HeadEvent × HeadOutcome)}
    {inHand' : Option HeadEvent} {notes : List Handling} {t : List Handling × (Shared × Turn Listener ListenerExit)}
    (h : GoesOn token feed sh' none t done inHand')
    (hnotes : Handling.history [] inHand ++ notes = .begins event :: .returns outcome :: t.1)
    (hunread : event :: sh'.unread feed = inHand.toList ++ sh.unread feed)
    (hsender : (sh'.feed feed).senderOpen = (sh.feed feed).senderOpen)
    (hcancelled : sh'.isCancelled token = sh.isCancelled token) :
    GoesOn token feed sh inHand (notes, t.2) ((event, outcome) :: done) inHand' := by
  refine ⟨?_, h.order.mono (fun _ l hl => ⟨hl.1, ?_⟩) fun _ exit he => ?_⟩
  · rw [hnotes]
    exact congrArg (Handling.begins event :: .returns outcome :: ·) h.notes
  · rw [← hunread]
    exact congrArg (event :: ·) hl.2
  · obtain ⟨hnone, lost, hlost, hexit⟩ := he
    refine ⟨hnone, lost, by rw [← hunread]; exact congrArg (event :: ·) hlost, ?_⟩
    rw [← hsender, ← hcancelled]
    exact hexit

theorem feed_start (event : HeadEvent) (sh : Shared) (feed : Nat) :
    ((HeadUpdate.start env event sh).1.feed feed) = sh.feed feed := by
  have hfeeds : (HeadUpdate.start env event sh).1.feeds = sh.feeds := congrArg Prod.fst (HeadUpdate.start_backdrop env event sh)
  rw [Shared.feed, Shared.feed, hfeeds]

theorem serveNoting_goesOn (token : Token) (feed : Nat) (sh : Shared) (lag : Nat) {queue : List HeadEvent}
    (hq : sh.unread feed = queue) :
    ∃ done inHand, GoesOn token feed sh none (serveNoting env token feed sh lag queue) done inHand := by
  induction queue generalizing sh lag with
  | nil =>
    unfold serveNoting
    split
    · rename_i hc
      exact ⟨[], none, .stops hc.1⟩
    · split
      · exact ⟨[], none, rfl, rfl, rfl⟩
      · rename_i hopen
        exact ⟨[], none, rfl, rfl, [], by rw [hq]; rfl, rfl, Bool.eq_false_iff.2 hopen⟩
  | cons event rest ih =>
    unfold serveNoting
    split
    · rename_i hc
      exact ⟨[], none, .stops hc.1⟩
    · have hne : sh.unread feed ≠ [] := by rw [hq]; exact List.cons_ne_nil event rest
      have hfeed := feed_start env event (sh.updateFeed feed fun f => { f with queue := rest }) feed
      have hback := HeadUpdate.start_backdrop env event (sh.updateFeed feed fun f => { f with queue := rest })
      rw [Shared.feed_updateFeed_self hne] at hfeed
      split
      · rename_i sh' u h
        rw [h] at hfeed
        refine ⟨[], some event, rfl, rfl, ?_⟩
        rw [Shared.unread, hfeed, hq]
        rfl
      · rename_i sh' outcome h
        rw [h] at hfeed hback
        obtain ⟨done, inHand, hgoes⟩ := ih sh' (lag - 1) (by rw [Shared.unread, hfeed])
        refine ⟨(event, outcome) :: done, inHand, hgoes.after rfl ?_ ?_ ?_⟩
        · rw [Shared.unread, hfeed, hq]
          rfl
        · rw [hfeed]
        · exact Shared.isCancelled_of_signals (congrArg Prod.snd hback) token

theorem takeNextNoting_goesOn (token : Token) (feed : Nat) (sh : Shared) :
    ∃ done inHand, GoesOn token feed sh none (takeNextNoting env token feed sh) done inHand :=
  serveNoting_goesOn env token feed sh _ rfl

/-- One turn of a listener with `inHand` in hand. -/
theorem resumeNoting_goesOn (guard : Guard) (token : Token) (feed : Nat) (sh : Shared) {l : Listener} (reply : Reply)
    (h : l.isHandling = inHand.isSome) :
    ∃ done inHand', GoesOn token feed sh inHand (l.resumeNoting env guard token feed sh reply) done inHand' := by
  cases l with
  | idle =>
    cases inHand with
    | some event => cases h
    | none => exact takeNextNoting_goesOn env token feed sh
  | handling u =>
    cases inHand with
    | none => cases h
    | some event =>
      have hback := u.resume_backdrop env guard token sh reply
      simp only [resumeNoting]
      rcases h : u.resume env guard token sh reply with ⟨sh', u' | outcome⟩
      · rw [h] at hback
        have hfeeds : sh'.feeds = sh.feeds := congrArg Prod.fst hback
        refine ⟨[], some event, rfl, rfl, ?_⟩
        rw [Shared.unread_of_feeds hfeeds]
        rfl
      · rw [h] at hback
        have hfeeds : sh'.feeds = sh.feeds := congrArg Prod.fst hback
        obtain ⟨done, inHand', hgoes⟩ := takeNextNoting_goesOn env token feed sh'
        refine ⟨(event, outcome) :: done, inHand', hgoes.after rfl ?_ ?_ ?_⟩
        · rw [Shared.unread_of_feeds hfeeds]
          rfl
        · rw [Shared.feed, Shared.feed, hfeeds]
        · exact Shared.isCancelled_of_signals (congrArg Prod.snd hback) token

end Listener

end CommitteeSync
