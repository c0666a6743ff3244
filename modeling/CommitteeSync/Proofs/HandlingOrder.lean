/-
  CommitteeSync.Proofs.HandlingOrder — the events of a head stream are handled in the order
  they were sent.

  A stream is there for one reader (`System.OneReader`). Its course has three parts: no one
  has read from it yet, one task attends it, that task has stopped (`System.StreamCourse`).

  Proved, in any interleaving, with any calls failing and any tokens cancelled
  (`System.streamCourse_run`): the notes of the handlings are a history, one event after
  another; while the stream is attended, the events handled and those unread are together the
  events sent, in the order sent; and afterwards no more are handled.
-/

import CommitteeSync.Proofs.HeadStream

namespace CommitteeSync

open Turn Handling

variable (env : Setup)

namespace System

variable {s s₀ : System} {acts : List Action} {a : Action} {id feed : Nat}

/-! ## The events of one stream -/

/-- How the task listens, if it does or is about to. -/
def attends? (s : System) (id : Nat) : Option Attendance := (s.work? id).bind (·.attends? s.shared.runToken)

/-- Whether the task attends the stream. -/
def reads (s : System) (feed id : Nat) : Bool := (s.attends? id).any fun b => b.feed = feed

/-- What is noted in an action about the handling of events. -/
def notes (s : System) : Action → List Handling
  | .turn id reply => ((s.work? id).map (·.notes env s.shared reply)).getD []
  | _ => []

/-- What is noted about the events of one stream. -/
def notesOn (feed : Nat) (s : System) : Action → List Handling
  | .turn id reply => if s.reads feed id then s.notes env (.turn id reply) else []
  | _ => []

/-- The handlings of the events of one stream in a run. -/
def handlings (feed : Nat) (s₀ : System) (acts : List Action) : List Handling := along env (notesOn env feed) s₀ acts

/-- The event that is sent on the stream, if it gets there. -/
def sentOn (feed : Nat) (s : System) : Action → List HeadEvent
  | .change (.send event) =>
    if s.shared.current = some feed ∧ (s.shared.send env.capacity event).2 = .sent then [event] else []
  | _ => []

/-- The events there are to handle: those that were waiting, and then those sent in the run. -/
def offered (feed : Nat) (s₀ : System) (acts : List Action) : List HeadEvent :=
  s₀.shared.unread feed ++ along env (sentOn env feed) s₀ acts

/-- A request to listen on the stream. -/
def asksFor (feed : Nat) : Action → Bool
  | .request (.listen _ other) => other = feed
  | _ => false

/-- The stream has one reader at most: one that is there from the start is listened to at one
    request at most, and one that startup opens is left to startup. -/
def OneReader (s₀ : System) (feed : Nat) (acts : List Action) : Prop :=
  acts.countP (asksFor feed) ≤ if feed < s₀.shared.feeds.length then 1 else 0

instance (s₀ : System) (feed : Nat) (acts : List Action) : Decidable (OneReader s₀ feed acts) :=
  inferInstanceAs (Decidable (_ ≤ _))

theorem OneReader.of_snoc (h : OneReader s₀ feed (acts ++ [a])) : OneReader s₀ feed acts := by
  rw [OneReader, List.countP_append] at h
  exact Nat.le_trans (Nat.le_add_right _ _) h

theorem reads_iff : s.reads feed id ↔ ∃ b, s.attends? id = some b ∧ b.feed = feed := by
  simp [reads, Option.any_eq_true]

theorem attends?_eq_some {b : Attendance} :
    s.attends? id = some b ↔ ∃ w, s.work? id = some w ∧ w.attends? s.shared.runToken = some b := Option.bind_eq_some_iff

/-- Where the listener of a task is, apart from the token it is under. -/
theorem attends?_of_run {w : Work} {run : Token} {b : Attendance} (hw : s.work? id = some w)
    (h : w.attends? run = some b) :
    ∃ b', s.attends? id = some b' ∧ b'.feed = b.feed ∧ b'.listener = b.listener := by
  have hsame := w.attends?_run run s.shared.runToken
  rw [h] at hsame
  obtain ⟨b', hb', he⟩ := Option.map_eq_some_iff.1 hsame.symm
  rw [Prod.mk.injEq] at he
  exact ⟨b', attends?_eq_some.2 ⟨w, hw, hb'⟩, he.1, he.2⟩

/-! ## Actions beside a stream -/

/-- The task that an action may bring to a stream. -/
def newcomer (s : System) : Action → Nat
  | .turn id _ => id
  | _ => s.tasks.length

/-- A task that attends a stream attended it before, or has come to it by this action. -/
theorem attends_came {b : Attendance} (h : (act env s a).attends? id = some b) (hfeed : b.feed = feed) :
    s.reads feed id ∨ (b.listener.isHandling = false ∧ id = s.newcomer a ∧
      (asksFor feed a ∨ feed = s.shared.feeds.length ∧ feed < (act env s a).shared.feeds.length)) := by
  obtain ⟨w', hw', hb⟩ := attends?_eq_some.1 h
  cases came env hw' with
  | turn reply w ha hw hr =>
    by_cases hreads : s.reads feed id
    · exact Or.inl hreads
    · have helse : ∀ b, w.attends? s.shared.runToken = some b → b.feed ≠ feed := fun b hb he =>
        hreads (reads_iff.2 ⟨b, attends?_eq_some.2 ⟨w, hw, hb⟩, he⟩)
      have hy := Work.resume_elsewhere env reply helse
      rw [hr] at hy
      obtain ⟨hidle, hnew, hlt⟩ := hy.2 _ b hb hfeed
      exact Or.inr ⟨hidle, by rw [ha, newcomer], Or.inr ⟨hnew, hlt⟩⟩
  | kept _ hw =>
    obtain ⟨b', hb', hf, -⟩ := attends?_of_run hw hb
    exact Or.inl (reads_iff.2 ⟨b', hb', hf.trans hfeed⟩)
  | asked r hr hw =>
    subst hw
    cases r with
    | listen token other =>
      cases hb
      rcases hr with rfl | he | he
      · by_cases hlt : id < s.tasks.length
        · have hwork : s.work? id = some (.asked (.listen token other)) := by
            rw [work?_eq_some] at hw' ⊢
            rw [← tasks_kept env hlt (a := .request (.listen token other)) (fun _ he => nomatch he), hw']
          exact Or.inl (reads_iff.2 ⟨_, attends?_eq_some.2 ⟨_, hwork, rfl⟩, hfeed⟩)
        · have hlen := (List.getElem?_eq_some_iff.1 (work?_eq_some.1 hw')).1
          simp only [act, request, List.length_append, List.length_singleton] at hlen
          refine Or.inr ⟨rfl, ?_, Or.inl (decide_eq_true hfeed)⟩
          show id = s.tasks.length
          omega
      · cases he
      · cases he
    | _ => cases hb

/-- The stream that is sent on has what it had, and the event after it if the event gets there. -/
theorem send_unread (sh : Shared) (id capacity : Nat) (event : HeadEvent) :
    (sh.updateFeed id fun _ => ((sh.feed id).send capacity event).1).unread id =
      sh.unread id ++ if ((sh.feed id).send capacity event).2 = .sent then [event] else [] := by
  simp only [Shared.unread, Shared.feed, Shared.updateFeed, List.getElem?_modify_eq]
  rcases Option.eq_none_or_eq_some sh.feeds[id]? with hf | ⟨f, hf⟩
  · simp [hf, Feed.send]
  · simp only [hf, Option.map_eq_map, Option.map_some, Option.getD_some, Feed.send]
    split
    · simp
    · split <;> simp

theorem change_unread (c : Change) (s : System) (feed : Nat) :
    (c.apply env s.shared).unread feed = s.shared.unread feed ++ sentOn env feed s (.change c) := by
  cases c with
  | send event =>
    simp only [Change.apply, sentOn, Shared.send]
    rcases Option.eq_none_or_eq_some s.shared.current with hc | ⟨id, hc⟩
    · simp [hc]
    · by_cases hid : id = feed
      · subst hid
        simpa [hc] using send_unread s.shared id env.capacity event
      · simp [hc, Shared.unread, Shared.feed_updateFeed_ne hid, hid]
  | endStream => exact (Shared.Spares.dropSender feed s.shared).unread.trans (List.append_nil _).symm
  | _ => exact (List.append_nil _).symm

theorem change_feeds (c : Change) (sh : Shared) : sh.feeds.length ≤ (c.apply env sh).feeds.length := by
  cases c with
  | send event =>
    simp only [Change.apply, Shared.send]
    split <;> simp [Shared.updateFeed]
  | endStream => exact (Shared.Spares.dropSender 0 sh).length
  | _ => exact Nat.le_refl _

/-- What an action adds to a stream that is not read in it. -/
theorem act_unread (h : ∀ id reply, a = .turn id reply → s.reads feed id = false) :
    (act env s a).shared.unread feed = s.shared.unread feed ++ sentOn env feed s a ∧
    s.shared.feeds.length ≤ (act env s a).shared.feeds.length := by
  cases a with
  | request r => exact ⟨(List.append_nil _).symm, Nat.le_refl _⟩
  | launch root =>
    simp only [act]
    split
    · exact ⟨(List.append_nil _).symm, Nat.le_refl _⟩
    · exact ⟨(List.append_nil _).symm, Nat.le_refl _⟩
  | turn id reply =>
    cases hw : s.work? id with
    | none =>
      rw [turn_of_none env reply hw]
      exact ⟨(List.append_nil _).symm, Nat.le_refl _⟩
    | some w =>
      have helse : ∀ b, w.attends? s.shared.runToken = some b → b.feed ≠ feed := fun b hb he => by
        have hreads := reads_iff.2 ⟨b, attends?_eq_some.2 ⟨w, hw, hb⟩, he⟩
        rw [h id reply rfl] at hreads
        cases hreads
      have hy := Work.resume_elsewhere env reply helse
      have hs := (hy.mono (fun _ _ h => h.1) fun _ _ h => h).fst
      rw [shared_turn env reply hw]
      exact ⟨hs.unread.trans (List.append_nil _).symm, hs.length⟩
  | change c => exact ⟨change_unread env c s feed, change_feeds env c s.shared⟩

/-- No stream ever goes. -/
theorem feeds_act (s : System) (a : Action) : s.shared.feeds.length ≤ (act env s a).shared.feeds.length := by
  -- A task attends one stream at most, so for any turn there is a stream that is not read in it.
  have hother : ∃ feed, ∀ id reply, a = .turn id reply → s.reads feed id = false := by
    cases a with
    | turn id reply =>
      cases hb : s.attends? id with
      | none => exact ⟨0, fun _ _ he => by cases he; rw [reads, hb]; rfl⟩
      | some b => exact ⟨b.feed + 1, fun _ _ he => by cases he; simp [reads, hb]⟩
    | _ => exact ⟨0, nofun⟩
  obtain ⟨feed, h⟩ := hother
  exact (act_unread env h).2

theorem feeds_run (s₀ : System) (acts : List Action) :
    s₀.shared.feeds.length ≤ (run env s₀ acts).shared.feeds.length := by
  induction acts using List.reverseRecOn with
  | nil => exact Nat.le_refl _
  | append_singleton acts a ih =>
    rw [run_snoc]
    exact Nat.le_trans ih (feeds_act env _ a)

/-! ## The turn of a reader -/

/-- How a reader that had the event `inHand` or none has come on with the stream. -/
inductive ReadOn (s s' : System) (id : Nat) (b : Attendance) (inHand : Option HeadEvent) (notes : List Handling) : Prop
  | goes (done : List (HeadEvent × HeadOutcome)) (inHand' : Option HeadEvent) (b' : Attendance) :
      history [] inHand ++ notes = history done inHand' → s'.attends? id = some b' → b'.feed = b.feed →
      b'.listener.isHandling = inHand'.isSome →
      done.map Prod.fst ++ inHand'.toList ++ s'.shared.unread b.feed = inHand.toList ++ s.shared.unread b.feed →
        ReadOn s s' id b inHand notes
  | stops (done : List (HeadEvent × HeadOutcome)) (lost : List HeadEvent) :
      history [] inHand ++ notes = history done none → s'.work? id = none →
      done.map Prod.fst ++ lost = inHand.toList ++ s.shared.unread b.feed →
      (s.shared.isCancelled b.token ∨ (lost = [] ∧ (s.shared.feed b.feed).senderOpen = false)) →
        ReadOn s s' id b inHand notes

theorem reader_turn {b : Attendance} {inHand : Option HeadEvent} (h : s.attends? id = some b)
    (hhand : b.listener.isHandling = inHand.isSome) (reply : Reply) :
    ReadOn s (act env s (.turn id reply)) id b inHand (s.notes env (.turn id reply)) := by
  obtain ⟨w, hw, hb⟩ := attends?_eq_some.1 h
  obtain ⟨wrap, next, he, hwrap, hnext⟩ := Work.resume_attending env hb reply
  obtain ⟨done, inHand', hgoes⟩ :=
    Listener.resumeNoting_goesOn env b.guard b.token b.feed (w.announced s.shared) reply hhand
  have hnotes : s.notes env (.turn id reply) =
      (b.listener.resumeNoting env b.guard b.token b.feed (w.announced s.shared) reply).1 := by
    rw [notes, hw, Option.map_some, Option.getD_some, Work.notes, hb]
  have horder := hgoes.order
  rw [Listener.resumeNoting_resume] at horder
  have hshared := shared_turn env reply hw
  have hwork := work?_turn env reply hw
  rw [he] at hshared hwork
  rcases hr : b.listener.resume env b.guard b.token b.feed (w.announced s.shared) reply with ⟨sh', l | exit⟩
  · rw [hr] at hshared hwork horder
    obtain ⟨b', hb', hfeed, hlistener⟩ := attends?_of_run hwork (hwrap l)
    refine .goes done inHand' b' (by rw [hnotes]; exact hgoes.notes) hb' hfeed (by rw [hlistener]; exact horder.1) ?_
    rw [hshared, ← Work.announced_unread s.shared w]
    exact horder.2
  · rw [hr] at hshared hwork horder
    obtain ⟨hnone, lost, hlost, hexit⟩ := horder
    obtain ⟨sh'', o, hn, -, -⟩ := hnext sh' exit
    have hover : (act env s (.turn id reply)).work? id = none := by
      rw [hwork, show andThen (sh', Turn.ends exit) wrap next = next sh' exit from rfl, hn]
    rw [Work.announced_unread] at hlost
    refine .stops done lost (by rw [hnotes, ← hnone]; exact hgoes.notes) hover hlost ?_
    cases exit with
    | shutdown => exact Or.inl ((Work.announced_isCancelled ..).symm.trans hexit)
    | streamClosed => exact Or.inr ⟨hexit.1, (Work.announced_senderOpen ..).symm.trans hexit.2⟩

/-! ## The course of a stream -/

/-- The stream has or had its reader. -/
def Taken (s₀ : System) (feed : Nat) (acts : List Action) : Prop :=
  if feed < s₀.shared.feeds.length then 0 < acts.countP (asksFor feed)
  else feed < (run env s₀ acts).shared.feeds.length

/-- An action may bring a reader to the stream. -/
def Brings (s : System) (feed : Nat) (a : Action) : Prop :=
  asksFor feed a ∨ feed = s.shared.feeds.length ∧ feed < (act env s a).shared.feeds.length

variable {env}

theorem Taken.snoc (h : Taken env s₀ feed acts) (a : Action) : Taken env s₀ feed (acts ++ [a]) := by
  unfold Taken at h ⊢
  split
  · rename_i hlt
    rw [if_pos hlt] at h
    rw [List.countP_append]
    exact Nat.lt_of_lt_of_le h (Nat.le_add_right _ _)
  · rename_i hlt
    rw [if_neg hlt] at h
    rw [run_snoc]
    exact Nat.lt_of_lt_of_le h (feeds_act env _ a)

theorem Taken.brings (h : Taken env s₀ feed acts) (hone : OneReader s₀ feed (acts ++ [a])) :
    ¬ Brings env (run env s₀ acts) feed a := by
  have hlen := feeds_run env s₀ acts
  unfold Taken at h
  rw [OneReader, List.countP_append] at hone
  rintro (hasks | ⟨hnew, -⟩)
  · have hcount : [a].countP (asksFor feed) = 1 := by simp [hasks]
    rw [hcount] at hone
    split at h
    · rename_i hlt
      rw [if_pos hlt] at hone
      omega
    · rename_i hlt
      rw [if_neg hlt] at hone
      omega
  · split at h <;> omega

theorem taken_of_brings (hone : OneReader s₀ feed (acts ++ [a])) (h : Brings env (run env s₀ acts) feed a) :
    Taken env s₀ feed (acts ++ [a]) := by
  have hlen := feeds_run env s₀ acts
  unfold Taken
  rw [OneReader, List.countP_append] at hone
  rcases h with hasks | ⟨hnew, hlt⟩
  · have hcount : [a].countP (asksFor feed) = 1 := by simp [hasks]
    rw [hcount] at hone
    split
    · rw [List.countP_append, hcount]
      omega
    · rename_i hge
      rw [if_neg hge] at hone
      omega
  · have hge : ¬ feed < s₀.shared.feeds.length := by omega
    rw [if_neg hge, run_snoc]
    exact hlt

/-- How far a run has come with a stream: no one has read from it, one task attends it, or that
    task has stopped. -/
inductive StreamCourse (env : Setup) (s₀ : System) (feed : Nat) (acts : List Action) : Prop
  | ahead : (∀ id, (run env s₀ acts).reads feed id = false) → handlings env feed s₀ acts = [] →
      (run env s₀ acts).shared.unread feed = offered env feed s₀ acts → StreamCourse env s₀ feed acts
  | attended (reader : Nat) (b : Attendance) (done : List (HeadEvent × HeadOutcome)) (inHand : Option HeadEvent) :
      Taken env s₀ feed acts → (run env s₀ acts).attends? reader = some b → b.feed = feed →
      (∀ id, (run env s₀ acts).reads feed id → id = reader) →
      handlings env feed s₀ acts = history done inHand → b.listener.isHandling = inHand.isSome →
      done.map Prod.fst ++ inHand.toList ++ (run env s₀ acts).shared.unread feed = offered env feed s₀ acts →
        StreamCourse env s₀ feed acts
  | ended (done : List (HeadEvent × HeadOutcome)) :
      Taken env s₀ feed acts → (∀ id, (run env s₀ acts).reads feed id = false) →
      handlings env feed s₀ acts = history done none → done.map Prod.fst <+: offered env feed s₀ acts →
        StreamCourse env s₀ feed acts

theorem handlings_snoc (acts : List Action) (a : Action) :
    handlings env feed s₀ (acts ++ [a]) = handlings env feed s₀ acts ++ notesOn env feed (run env s₀ acts) a :=
  along_snoc env _ s₀ acts a

theorem offered_snoc (acts : List Action) (a : Action) :
    offered env feed s₀ (acts ++ [a]) = offered env feed s₀ acts ++ sentOn env feed (run env s₀ acts) a := by
  rw [offered, along_snoc, ← List.append_assoc]
  rfl

theorem notesOn_other (h : ∀ id reply, a = .turn id reply → s.reads feed id = false) : notesOn env feed s a = [] := by
  cases a with
  | turn id reply => rw [notesOn, h id reply rfl]; rfl
  | _ => rfl

/-- After an action in which the stream is not read. -/
theorem StreamCourse.beside (h : StreamCourse env s₀ feed acts) (hone : OneReader s₀ feed (acts ++ [a]))
    (ha : ∀ id reply, a = .turn id reply → (run env s₀ acts).reads feed id = false) :
    StreamCourse env s₀ feed (acts ++ [a]) := by
  have hnotes : handlings env feed s₀ (acts ++ [a]) = handlings env feed s₀ acts := by
    rw [handlings_snoc, notesOn_other ha, List.append_nil]
  obtain ⟨hunread, -⟩ := act_unread env ha
  -- A reader after the action was one before, or the action has brought it.
  have hcame : ∀ id, (run env s₀ (acts ++ [a])).reads feed id → (run env s₀ acts).reads feed id ∨
      (id = (run env s₀ acts).newcomer a ∧ Brings env (run env s₀ acts) feed a) := by
    intro id hr
    rw [run_snoc] at hr
    obtain ⟨b, hb, hfeed⟩ := reads_iff.1 hr
    exact (attends_came env hb hfeed).imp (fun h => h) fun h => h.2
  cases h with
  | ahead hnone hempty hall =>
    have hoffered : (run env s₀ (acts ++ [a])).shared.unread feed = offered env feed s₀ (acts ++ [a]) := by
      rw [run_snoc, hunread, hall, offered_snoc]
    by_cases hnew : ∃ id, (run env s₀ (acts ++ [a])).reads feed id
    · obtain ⟨reader, hr⟩ := hnew
      obtain ⟨b, hb, hfeed⟩ := reads_iff.1 hr
      have hnewcomer : ∀ id, (run env s₀ (acts ++ [a])).reads feed id →
          id = (run env s₀ acts).newcomer a ∧ Brings env (run env s₀ acts) feed a := fun id hr =>
        (hcame id hr).resolve_left (by rw [hnone id]; exact Bool.false_ne_true)
      have hidle : b.listener.isHandling = false := by
        rw [run_snoc] at hb
        exact ((attends_came env hb hfeed).resolve_left (by rw [hnone reader]; exact Bool.false_ne_true)).1
      refine .attended reader b [] none (taken_of_brings hone (hnewcomer reader hr).2) hb hfeed (fun id hid => ?_)
        (hnotes.trans hempty) hidle hoffered
      rw [(hnewcomer id hid).1, (hnewcomer reader hr).1]
    · exact .ahead (fun id => Bool.eq_false_iff.2 fun hr => hnew ⟨id, hr⟩) (hnotes.trans hempty) hoffered
  | attended reader b done inHand htaken hb hfeed hunique hhist hhand hall =>
    obtain ⟨w, hw, hbw⟩ := attends?_eq_some.1 hb
    have hreads : (run env s₀ acts).reads feed reader := reads_iff.2 ⟨b, hb, hfeed⟩
    have hne : ∀ reply, a ≠ .turn reader reply := fun reply he => by
      rw [ha reader reply he] at hreads
      cases hreads
    obtain ⟨b', hb', hfeed', hlistener⟩ := attends?_of_run (work?_kept env hw hne) hbw
    rw [← run_snoc] at hb'
    refine .attended reader b' done inHand (htaken.snoc a) hb' (hfeed'.trans hfeed) (fun id hid => ?_)
      (hnotes.trans hhist) (by rw [hlistener]; exact hhand) ?_
    · exact (hcame id hid).elim (hunique id) fun h => absurd h.2 (htaken.brings hone)
    · rw [run_snoc, hunread, offered_snoc, ← hall]
      simp only [List.append_assoc]
  | ended done htaken hnone hhist hprefix =>
    refine .ended done (htaken.snoc a) (fun id => Bool.eq_false_iff.2 fun hid => ?_) (hnotes.trans hhist) ?_
    · rcases hcame id hid with hr | hr
      · rw [hnone id] at hr
        cases hr
      · exact htaken.brings hone hr.2
    · rw [offered_snoc]
      exact hprefix.trans (List.prefix_append _ _)

theorem history_split (done : List (HeadEvent × HeadOutcome)) (inHand : Option HeadEvent) (notes : List Handling) :
    history done inHand ++ notes = history done none ++ (history [] inHand ++ notes) := by
  simp [history]

/-- After a turn in which the stream is read. -/
theorem StreamCourse.turn {reply : Reply} (h : StreamCourse env s₀ feed acts) (hid : (run env s₀ acts).reads feed id) :
    StreamCourse env s₀ feed (acts ++ [.turn id reply]) := by
  cases h with
  | ahead hnone _ _ =>
    rw [hnone id] at hid
    cases hid
  | ended done _ hnone _ _ =>
    rw [hnone id] at hid
    cases hid
  | attended reader b done inHand htaken hb hfeed hunique hhist hhand hall =>
    cases hunique id hid
    have hnotes : handlings env feed s₀ (acts ++ [.turn id reply]) =
        history done none ++ (history [] inHand ++ (run env s₀ acts).notes env (.turn id reply)) := by
      rw [handlings_snoc, notesOn, hid, if_pos rfl, hhist, history_split]
    have hoffered : offered env feed s₀ (acts ++ [.turn id reply]) = offered env feed s₀ acts := by
      rw [offered_snoc]
      exact List.append_nil _
    have hothers : ∀ other, (run env s₀ (acts ++ [.turn id reply])).reads feed other → other = id := by
      intro other hr
      rw [run_snoc] at hr
      obtain ⟨b', hb', hfeed'⟩ := reads_iff.1 hr
      exact (attends_came env hb' hfeed').elim (hunique other) fun h => h.2.1
    cases reader_turn env hb hhand reply with
    | goes done' inHand' b' hnew hb' hfeed' hhand' hall' =>
      rw [← run_snoc] at hb' hall'
      refine .attended id b' (done ++ done') inHand' (htaken.snoc _) hb' (hfeed'.trans hfeed) hothers ?_ hhand' ?_
      · rw [hnotes, hnew, history_append]
      · rw [hoffered, ← hall, List.append_assoc (done.map Prod.fst), ← hfeed, ← hall', List.map_append]
        simp only [List.append_assoc]
    | stops done' lost hnew hover hlost _ =>
      rw [← run_snoc] at hover
      refine .ended (done ++ done') (htaken.snoc _) (fun other => Bool.eq_false_iff.2 fun hr => ?_) ?_ ?_
      · cases hothers other hr
        rw [reads, attends?, hover] at hr
        cases hr
      · rw [hnotes, hnew, history_append]
      · rw [hoffered, ← hall, List.append_assoc (done.map Prod.fst), ← hfeed, ← hlost, List.map_append,
          ← List.append_assoc]
        exact List.prefix_append _ _

theorem streamCourse_run (hs : s₀.Idle) (hone : OneReader s₀ feed acts) : StreamCourse env s₀ feed acts := by
  induction acts using List.reverseRecOn with
  | nil =>
    refine .ahead (fun id => ?_) rfl (List.append_nil _).symm
    rw [run_nil, reads, attends?, hs.work?]
    rfl
  | append_singleton acts a ih =>
    have hcourse := ih hone.of_snoc
    by_cases ha : ∃ id reply, a = .turn id reply ∧ (run env s₀ acts).reads feed id
    · obtain ⟨id, reply, rfl, hid⟩ := ha
      exact hcourse.turn hid
    · exact hcourse.beside hone fun id reply he => Bool.eq_false_iff.2 fun hid => ha ⟨id, reply, he, hid⟩

/-! ## What the course of a stream says -/

variable {b : Attendance}

theorem not_attends (h : s.reads feed id = false) (hb : s.attends? id = some b) : b.feed ≠ feed := fun hfeed =>
  Bool.false_ne_true (h.symm.trans (reads_iff.2 ⟨b, hb, hfeed⟩))

/-- The notes of a stream are a history: no event is taken in hand before the one before it is through. -/
theorem StreamCourse.oneAfterAnother (h : StreamCourse env s₀ feed acts) :
    ∃ done last, handlings env feed s₀ acts = history done last ∧
      (last.isSome ↔ ∃ id b, (run env s₀ acts).attends? id = some b ∧ b.feed = feed ∧ b.listener.isHandling) := by
  cases h with
  | ahead hnone hempty _ =>
    exact ⟨[], none, hempty, nofun, fun ⟨id, _, hb, hfeed, _⟩ => absurd hfeed (not_attends (hnone id) hb)⟩
  | ended done _ hnone hhist _ =>
    exact ⟨done, none, hhist, nofun, fun ⟨id, _, hb, hfeed, _⟩ => absurd hfeed (not_attends (hnone id) hb)⟩
  | attended reader b done last _ hb hfeed hunique hhist hhand _ =>
    refine ⟨done, last, hhist, ?_⟩
    rw [← hhand]
    refine ⟨fun h => ⟨reader, b, hb, hfeed, h⟩, fun ⟨id, b', hb', hfeed', h⟩ => ?_⟩
    cases hunique id (reads_iff.2 ⟨b', hb', hfeed'⟩)
    cases hb.symm.trans hb'
    exact h

theorem StreamCourse.of_attends (h : StreamCourse env s₀ feed acts) (hb : (run env s₀ acts).attends? id = some b)
    (hfeed : b.feed = feed) :
    ∃ done last, handlings env feed s₀ acts = history done last ∧ b.listener.isHandling = last.isSome ∧
      done.map Prod.fst ++ last.toList ++ (run env s₀ acts).shared.unread feed = offered env feed s₀ acts := by
  cases h with
  | ahead hnone _ _ => exact absurd hfeed (not_attends (hnone id) hb)
  | ended _ _ hnone _ _ => exact absurd hfeed (not_attends (hnone id) hb)
  | attended reader b' done last _ hb' hfeed' hunique hhist hhand hall =>
    cases hunique id (reads_iff.2 ⟨b, hb, hfeed⟩)
    cases hb.symm.trans hb'
    exact ⟨done, last, hhist, hhand, hall⟩

/-- While a task attends the stream, its events are those handled and those unread. -/
theorem StreamCourse.events_unread (h : StreamCourse env s₀ feed acts) (hb : (run env s₀ acts).attends? id = some b)
    (hfeed : b.feed = feed) :
    events (handlings env feed s₀ acts) ++ (run env s₀ acts).shared.unread feed = offered env feed s₀ acts := by
  obtain ⟨done, last, hhist, -, hall⟩ := h.of_attends hb hfeed
  rw [hhist, events_history, hall]

theorem StreamCourse.inOrder (h : StreamCourse env s₀ feed acts) :
    events (handlings env feed s₀ acts) <+: offered env feed s₀ acts := by
  cases h with
  | ahead _ hempty _ =>
    rw [hempty]
    exact List.nil_prefix
  | ended done _ _ hhist hprefix =>
    rw [hhist, events_history, Option.toList_none, List.append_nil]
    exact hprefix
  | attended _ _ done last _ _ _ _ hhist _ hall =>
    rw [hhist, events_history, ← hall]
    exact List.prefix_append _ _

/-- A listener stops for its token, or when the sender is gone and every event was handled. -/
theorem StreamCourse.stops {reply : Reply} (h : StreamCourse env s₀ feed acts)
    (hb : (run env s₀ acts).attends? id = some b) (hfeed : b.feed = feed)
    (hover : (run env s₀ (acts ++ [.turn id reply])).work? id = none) :
    (run env s₀ acts).shared.isCancelled b.token ∨
      ((run env s₀ acts).shared.feed feed).senderOpen = false ∧
        events (handlings env feed s₀ (acts ++ [.turn id reply])) = offered env feed s₀ acts := by
  obtain ⟨done, last, hhist, hhand, hall⟩ := h.of_attends hb hfeed
  rw [run_snoc] at hover
  cases reader_turn env hb hhand reply with
  | goes done' last' b' _ hgoes _ _ _ =>
    rw [attends?, hover] at hgoes
    cases hgoes
  | stops done' lost hnew _ hlost hwhy =>
    refine hwhy.imp (fun h => h) fun ⟨hnil, hclosed⟩ => ⟨by rw [← hfeed]; exact hclosed, ?_⟩
    have hreads : (run env s₀ acts).reads feed id := reads_iff.2 ⟨b, hb, hfeed⟩
    rw [hnil, List.append_nil, hfeed] at hlost
    rw [handlings_snoc, notesOn, hreads, if_pos rfl, hhist, history_split, hnew, history_append, events_history, ← hall,
      List.map_append, hlost]
    simp only [Option.toList_none, List.append_nil, List.append_assoc]

end System

end CommitteeSync
