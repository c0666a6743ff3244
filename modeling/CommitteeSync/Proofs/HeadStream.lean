/-
  CommitteeSync.Proofs.HeadStream — who reads a head stream.

  A task attends a stream from its request to listen on it, or from the turn in which
  startup opens the stream, until its listener stops (`Work.attends?`).

  Proved:
  (1) The turn of a task that attends a stream is a turn of its listener
      (`Work.resume_attending`).
  (2) The turn of any other task takes nothing from the stream, and starts to attend it only
      by opening it (`Work.resume_elsewhere`). Of the other actions only a sending adds to it
      (`System.act_unread`).
  (3) If a stream is meant for one reader, no second one comes (`System.attends_came`).
-/

import CommitteeSync.Proofs.Desk
import CommitteeSync.Proofs.Handling
import CommitteeSync.Proofs.TaskCalls

namespace CommitteeSync

open Turn

variable (env : Setup)

/-! ## Attending a stream -/

/-- How a task listens: the gate and the token for the events, the stream and where the listener is. -/
structure Attendance where
  guard : Guard
  token : Token
  feed : Nat
  listener : Listener
  deriving DecidableEq, Repr

namespace Work

/-- How the task listens, or is about to. -/
def attends? (run : Token) : Work → Option Attendance
  | .asked (.listen token feed) => some ⟨.parts, token, feed, .idle⟩
  | .listen token feed l => some ⟨.parts, token, feed, l⟩
  | .startup (.listening feed l) => some ⟨.service, run, feed, l⟩
  | _ => none

/-- A listener that has not had a turn yet announces itself first. -/
def announced (sh : Shared) : Work → Shared
  | .asked (.listen _ _) => sh.log .listening
  | _ => sh

/-- The notes of the task's turn, if it attends a stream. -/
def notes (sh : Shared) (reply : Reply) (w : Work) : List Handling :=
  match w.attends? sh.runToken with
  | some a => (a.listener.resumeNoting env a.guard a.token a.feed (w.announced sh) reply).1
  | none => []

theorem attends?_eq_none {run : Token} {w : Work} (hs : w.kind ≠ .startup) (hl : w.kind ≠ .listen) : w.attends? run = none := by
  cases w with
  | asked r =>
    cases r with
    | listen token feed => exact absurd rfl hl
    | _ => rfl
  | listen token feed l => exact absurd rfl hl
  | startup s => exact absurd rfl hs
  | _ => rfl

theorem waitsFor_attending {w : Work} {run : Token} {a : Attendance} (h : w.attends? run = some a) :
    (w.waitsFor env run).call? = (a.listener.waitsFor env a.token a.feed).call? := by
  unfold attends? at h
  split at h
  · cases h
    rfl
  · cases h
    rfl
  · cases h
    rfl
  · cases h

/-- Which stream the task attends does not depend on the token that the background run is under. -/
theorem attends?_run (run run' : Token) (w : Work) :
    (w.attends? run).map (fun a => (a.feed, a.listener)) = (w.attends? run').map fun a => (a.feed, a.listener) := by
  unfold attends?
  split <;> rfl

theorem announced_desk (sh : Shared) (w : Work) : (w.announced sh).desk = sh.desk := by
  unfold announced
  split <;> rfl

theorem announced_unread (sh : Shared) (w : Work) (feed : Nat) : (w.announced sh).unread feed = sh.unread feed := by
  unfold announced
  split <;> rfl

theorem announced_senderOpen (sh : Shared) (w : Work) (feed : Nat) :
    ((w.announced sh).feed feed).senderOpen = (sh.feed feed).senderOpen := by
  unfold announced
  split <;> rfl

theorem announced_isCancelled (sh : Shared) (w : Work) (t : Token) : (w.announced sh).isCancelled t = sh.isCancelled t := by
  unfold announced
  split <;> rfl

theorem resume_attending {sh : Shared} {w : Work} {a : Attendance} (h : w.attends? sh.runToken = some a) (reply : Reply) :
    ∃ (wrap : Listener → Work) (next : Shared → ListenerExit → Result),
      w.resume env sh reply =
        andThen (a.listener.resume env a.guard a.token a.feed (w.announced sh) reply) wrap next ∧
      (∀ l, (wrap l).attends? sh.runToken = some { a with listener := l }) ∧
      ∀ sh' exit, ∃ sh'' o, next sh' exit = (sh'', .ends o) ∧ sh''.feeds = sh'.feeds ∧ sh''.dealings = sh'.dealings := by
  unfold attends? at h
  split at h
  · rename_i token feed
    cases h
    exact ⟨.listen token feed, ending .listened, rfl, fun _ => rfl, fun sh' exit => ⟨sh', _, rfl, rfl, rfl⟩⟩
  · rename_i token feed l
    cases h
    exact ⟨.listen token feed, ending .listened, rfl, fun _ => rfl, fun sh' exit => ⟨sh', _, rfl, rfl, rfl⟩⟩
  · rename_i feed l
    cases h
    refine ⟨fun l => .startup (.listening feed l), fun sh' exit => andThen (Startup.finish sh' exit) .startup endStartup,
      ?_, fun _ => rfl, fun sh' exit => ?_⟩
    · show andThen (andThen (l.resume env .service sh.runToken feed sh reply) _ _) _ _ = _
      show _ = andThen (l.resume env .service sh.runToken feed sh reply) _ _
      obtain ⟨sh', l' | exit⟩ := l.resume env .service sh.runToken feed sh reply <;> rfl
    · cases exit with
      | shutdown => exact ⟨_, _, rfl, rfl, rfl⟩
      | streamClosed =>
        exact ⟨_, _, rfl, by simp only [Shared.fail]; split <;> rfl, by simp only [Shared.fail]; split <;> rfl⟩
  · cases h

end Work

/-! ## Turns of other tasks -/

theorem Shared.aloof_feeds : Shared.Aloof Shared.feeds := ⟨fun _ _ _ => rfl, fun _ _ => rfl, fun _ _ _ => rfl⟩

theorem Shared.feeds_enter (sh : Shared) (g : Guard) (denial : Event) : (sh.enter g denial).1.feeds = sh.feeds :=
  congrArg Prod.fst (Shared.backdrop_enter sh g denial)

theorem Shared.feeds_exit (sh : Shared) (g : Guard) : (sh.exit g).feeds = sh.feeds :=
  congrArg Prod.fst (Shared.backdrop_exit sh g)

theorem Shared.Writes.feeds {sh sh' : Shared} {c : Option (Epoch × Transaction)} (h : sh.Writes sh' c) :
    sh'.feeds = sh.feeds := congrArg Prod.fst h.backdrop

theorem CatchUp.resume_feeds (token : Token) (sh : Shared) (c : CatchUp) (reply : Reply) :
    (c.resume env token sh reply).1.feeds = sh.feeds := by
  cases c with
  | reading =>
    simp only [resume]
    cases sh.readRecord env reply with
    | error cause => rfl
    | ok record =>
      have he := Shared.feeds_enter sh .service (.passDenied .manual)
      simp only [follow]
      split
      · rename_i h; rwa [h] at he
      · rename_i sh' h
        rw [h] at he
        refine (andThen_view Shared.feeds _ _ fun sh _ => Shared.feeds_exit sh .service).trans ?_
        exact (Follow.start_writes token (record.resumePoint none) sh').feeds.trans he
  | following f =>
    exact (andThen_view Shared.feeds _ _ fun sh _ => Shared.feeds_exit sh .service).trans
      (Follow.resume_writes env token sh f reply).feeds

theorem RangePass.start_feeds (token : Token) (resume target : Epoch) (sh : Shared) :
    (start token resume target sh).1.feeds = sh.feeds := by
  have he := Shared.feeds_enter sh .service (.passDenied .range)
  unfold start
  split
  · rename_i h; rwa [h] at he
  · rename_i sh' h
    rw [h] at he
    refine (andThen_view Shared.feeds _ _ fun sh _ => Shared.feeds_exit sh .service).trans ?_
    exact (Pass.start_writes token resume target sh').feeds.trans he

theorem RangePass.resume_feeds (token : Token) (sh : Shared) (r : RangePass) (reply : Reply) :
    (r.resume env token sh reply).1.feeds = sh.feeds :=
  (andThen_view Shared.feeds _ _ fun sh _ => Shared.feeds_exit sh .service).trans
    (Pass.resume_writes env token sh r.pass reply).feeds

theorem Startup.subscribe_feeds (token : Token) (sh : Shared) (report : Report) :
    (subscribe token sh report).1.feeds = sh.feeds := by
  simp only [subscribe]
  split <;> rfl

theorem Shared.feeds_fail (sh : Shared) (context : String) (cause : Cause) : (sh.fail context cause).feeds = sh.feeds := by
  simp only [fail]
  split <;> rfl

namespace Work

theorem wrapped_feeds {σ ρ : Type} {t : Shared × Turn σ ρ} {wrap : σ → Work} {next : Shared → ρ → Result} {sh : Shared}
    (h : t.1.feeds = sh.feeds) (hn : ∀ sh r, (next sh r).1.feeds = sh.feeds) : (andThen t wrap next).1.feeds = sh.feeds :=
  (andThen_view Shared.feeds t wrap hn).trans h

theorem lookForFatal_feeds (sh : Shared) : (lookForFatal sh).1.feeds = sh.feeds := by
  unfold lookForFatal; split <;> rfl

theorem start_feeds (sh : Shared) (r : Request) (h : r.kind ≠ .listen) : (start env sh r).1.feeds = sh.feeds := by
  cases r with
  | catchUp token => rfl
  | range token resume target => exact wrapped_feeds (RangePass.start_feeds token resume target sh) fun _ _ => rfl
  | head guard token event =>
    exact wrapped_feeds (congrArg Prod.fst (HeadUpdate.start_backdrop env event sh)) fun _ _ => rfl
  | latestEpoch => rfl
  | readRecord => rfl
  | writeEpoch token epoch => exact wrapped_feeds (EpochWrite.start_writes token epoch sh).feeds fun _ _ => rfl
  | stage epoch ending => rfl
  | pass token resume target => exact wrapped_feeds (Pass.start_writes token resume target sh).feeds fun _ _ => rfl
  | listen token feed => exact absurd rfl h
  | waitForFatal => exact lookForFatal_feeds sh
  | stop => exact wrapped_feeds (Stopping.start_view Shared.aloof_feeds sh) fun _ _ => rfl
  | runnerStart root => exact wrapped_feeds (Supervisor.launch_view Shared.aloof_feeds root sh) fun _ _ => rfl
  | runnerStop root => exact wrapped_feeds (Supervisor.stop_view Shared.aloof_feeds root sh) fun _ _ => rfl
  | runnerRun root => exact wrapped_feeds (Supervisor.run_view env Shared.aloof_feeds root sh) fun _ _ => rfl
  | reporter => exact wrapped_feeds (Reporter.resume_view env Shared.aloof_feeds _ sh _) fun _ _ => rfl
  | startup => rfl

/-- Only startup and listeners touch the streams. -/
theorem resume_feeds (sh : Shared) (w : Work) (reply : Reply) (hs : w.kind ≠ .startup) (hl : w.kind ≠ .listen) :
    (w.resume env sh reply).1.feeds = sh.feeds := by
  cases w with
  | asked r => exact start_feeds env sh r hl
  | catchUp token c => exact wrapped_feeds (CatchUp.resume_feeds env token sh c reply) fun _ _ => rfl
  | range token r => exact wrapped_feeds (RangePass.resume_feeds env token sh r reply) fun _ _ => rfl
  | head guard token u =>
    exact wrapped_feeds (congrArg Prod.fst (u.resume_backdrop env guard token sh reply)) fun _ _ => rfl
  | latestEpoch => rfl
  | readRecord => rfl
  | writeEpoch token epoch w => exact wrapped_feeds (w.resume_writes env token epoch sh reply).feeds fun _ _ => rfl
  | stage epoch ending s => exact wrapped_feeds (s.resume_writes env epoch sh reply).feeds fun _ _ => rfl
  | pass token p => exact wrapped_feeds (p.resume_writes env token sh reply).feeds fun _ _ => rfl
  | listen token feed l => exact absurd rfl hl
  | waitForFatal => exact lookForFatal_feeds sh
  | stop s => exact wrapped_feeds (Stopping.resume_view Shared.aloof_feeds sh s) fun _ _ => rfl
  | runner root s => exact wrapped_feeds (Supervisor.resume_view env Shared.aloof_feeds root sh s) fun _ _ => rfl
  | reporter r => exact wrapped_feeds (Reporter.resume_view env Shared.aloof_feeds _ sh r) fun _ _ => rfl
  | startup s => exact absurd rfl hs

end Work

/-! ## Turns beside a stream -/

/-- Nothing was taken from the stream or put into it, and no stream has gone. -/
structure Shared.Spares (feed : Nat) (sh sh' : Shared) : Prop where
  unread : sh'.unread feed = sh.unread feed
  length : sh.feeds.length ≤ sh'.feeds.length

namespace Shared.Spares

variable {sh sh' sh'' : Shared} {feed other : Nat}

theorem of_feeds (h : sh'.feeds = sh.feeds) : sh.Spares feed sh' := ⟨unread_of_feeds h feed, by rw [h]⟩

theorem trans (h : sh.Spares feed sh') (h' : sh'.Spares feed sh'') : sh.Spares feed sh'' :=
  ⟨h'.unread.trans h.unread, Nat.le_trans h.length h'.length⟩

theorem andThen {σ ρ σ' ρ' : Type} {t : Shared × Turn σ ρ} (h : sh.Spares feed t.1) (wrap : σ → σ')
    {next : Shared → ρ → Shared × Turn σ' ρ'} (hn : ∀ (sh : Shared) r, sh.Spares feed (next sh r).1) :
    sh.Spares feed (Turn.andThen t wrap next).1 := by
  obtain ⟨sh', s | r⟩ := t
  · exact h
  · exact h.trans (hn sh' r)

theorem updateFeed (h : other ≠ feed) (sh : Shared) (f : Feed → Feed) : sh.Spares feed (sh.updateFeed other f) :=
  ⟨by rw [Shared.unread, feed_updateFeed_ne h]; rfl, by simp [Shared.updateFeed]⟩

/-- A reader that goes takes nothing along from an empty stream. -/
theorem dropReceiver (h : sh.unread other = []) : sh.Spares feed (sh.updateFeed other Feed.dropReceiver) := by
  by_cases hne : other = feed
  · subst hne
    refine ⟨?_, by simp [Shared.updateFeed]⟩
    rw [h]
    simp only [Shared.unread, Shared.feed, Shared.updateFeed, List.getElem?_modify_eq]
    cases sh.feeds[other]? <;> rfl
  · exact updateFeed hne sh _

/-- A sender that goes leaves what it has sent. -/
theorem dropSender (feed : Nat) (sh : Shared) : sh.Spares feed sh.dropSender := by
  unfold Shared.dropSender
  split
  · rename_i id _
    refine ⟨?_, by simp [Shared.updateFeed]⟩
    show ((sh.updateFeed id Feed.dropSender).feed feed).queue = (sh.feed feed).queue
    by_cases hid : id = feed
    · simp only [Shared.feed, Shared.updateFeed, hid, List.getElem?_modify_eq]
      cases sh.feeds[feed]? <;> rfl
    · rw [feed_updateFeed_ne hid]
  · exact of_feeds rfl

theorem length_dropSender (sh : Shared) : sh.dropSender.feeds.length = sh.feeds.length := by
  unfold Shared.dropSender
  split
  · simp [Shared.updateFeed]
  · rfl

/-- A stream that is opened is empty, as one that is not there. -/
theorem openFeed (feed : Nat) (sh : Shared) : sh.Spares feed sh.openFeed.1 := by
  have hd := dropSender feed sh
  refine hd.trans ⟨?_, by simp [Shared.openFeed]⟩
  simp only [Shared.unread, Shared.feed, Shared.openFeed, List.getElem?_append]
  split
  · rfl
  · rename_i hlt
    rw [List.getElem?_eq_none (Nat.not_lt.1 hlt)]
    rcases hi : feed - sh.dropSender.feeds.length with _ | i
    · rfl
    · rfl

end Shared.Spares

section Elsewhere

variable {sh : Shared} {feed other : Nat}

theorem Listener.stop_spares (exit : ListenerExit) (h : sh.unread other = []) :
    sh.Spares feed (stop other sh exit).1 := by
  have hlog : sh.Spares feed (sh.log exit.event) := .of_feeds rfl
  have hempty : (sh.log exit.event).unread other = [] := h
  exact hlog.trans (.dropReceiver hempty)

theorem Listener.serve_spares (h : other ≠ feed) (token : Token) (sh : Shared) (lag : Nat) (queue : List HeadEvent) :
    sh.Spares feed (serve env token other sh lag queue).1 := by
  refine serve_fst (P := sh.Spares feed) (fun sh' event rest hs => ?_) (fun sh' exit hs => ?_) (.of_feeds rfl) lag queue
  · have hu := hs.trans (Shared.Spares.updateFeed h sh' fun f => { f with queue := rest })
    exact hu.trans (.of_feeds (congrArg Prod.fst (HeadUpdate.start_backdrop env event _)))
  · have hlog : sh'.Spares feed (sh'.log exit.event) := .of_feeds rfl
    exact (hs.trans hlog).trans (.updateFeed h _ _)

theorem Listener.resume_spares (h : other ≠ feed) (guard : Guard) (token : Token) (sh : Shared) (l : Listener)
    (reply : Reply) :
    sh.Spares feed (l.resume env guard token other sh reply).1 := by
  cases l with
  | idle => exact serve_spares env h token sh _ _
  | handling u =>
    have hu : sh.Spares feed (u.resume env guard token sh reply).1 :=
      .of_feeds (congrArg Prod.fst (u.resume_backdrop env guard token sh reply))
    exact hu.andThen _ fun sh' _ => serve_spares env h token sh' _ _

/-- A stream that startup opens is a new one with nothing to read in it yet. -/
theorem Startup.listen_opens (token : Token) (sh : Shared) (feed : Nat) :
    Yields (listen env token sh)
      (fun sh' s' => sh.Spares feed sh' ∧
        ∀ other l, s' = .listening other l → l.isHandling = false ∧ other = sh.feeds.length ∧ other < sh'.feeds.length)
      (fun sh' _ => sh.Spares feed sh') := by
  have hopen := Shared.Spares.openFeed feed sh
  have hid : sh.openFeed.2 = sh.feeds.length := Shared.Spares.length_dropSender sh
  have hlt : sh.openFeed.2 < sh.openFeed.1.feeds.length := by simp [Shared.openFeed]
  have hempty : sh.openFeed.1.unread sh.openFeed.2 = [] := by simp [Shared.openFeed, Shared.unread, Shared.feed, Feed.fresh]
  simp only [listen]
  rcases ho : sh.openFeed with ⟨sh₁, other⟩
  rw [ho] at hopen hid hlt hempty
  have hqueue : (sh₁.log .listening).unread other = [] := hempty
  have hlog : sh.Spares feed (sh₁.log .listening) := hopen.trans (.of_feeds rfl)
  have hstop : ∀ exit, sh.Spares feed (Listener.stop other (sh₁.log .listening) exit).1 :=
    fun exit => hlog.trans (Listener.stop_spares exit hqueue)
  rw [Shared.unread] at hqueue
  simp only [Listener.start, Listener.takeNext, hqueue, Listener.serve]
  split
  · exact hstop .shutdown
  · split
    · refine ⟨hlog, fun other' l hl => ?_⟩
      cases hl
      exact ⟨rfl, hid, hlt⟩
    · exact (hstop .streamClosed).trans (.of_feeds (Shared.feeds_fail _ _ _))

/-- Startup that is not listening yet comes to listen on a stream that it opens itself. -/
theorem Startup.resume_opens (token : Token) (sh : Shared) (feed : Nat) (s : Startup) (reply : Reply)
    (h : ∀ other l, s ≠ .listening other l) :
    Yields (s.resume env token sh reply)
      (fun sh' s' => sh.Spares feed sh' ∧
        ∀ other l, s' = .listening other l → l.isHandling = false ∧ other = sh.feeds.length ∧ other < sh'.feeds.length)
      (fun sh' _ => sh.Spares feed sh') := by
  have hsubscribe : ∀ (sh' : Shared) report, sh.Spares feed sh' → Yields (subscribe token sh' report)
      (fun sh' s' => sh.Spares feed sh' ∧
        ∀ other l, s' = .listening other l → l.isHandling = false ∧ other = sh.feeds.length ∧ other < sh'.feeds.length)
      (fun sh' _ => sh.Spares feed sh') := by
    intro sh' report hsh
    have hs := hsh.trans (.of_feeds (subscribe_feeds token sh' report))
    simp only [subscribe] at hs ⊢
    split
    · rename_i hc
      rw [if_pos hc] at hs
      exact hs
    · rename_i hc
      rw [if_neg hc] at hs
      exact ⟨hs, fun _ _ he => by cases he⟩
  cases s with
  | reading =>
    simp only [resume]
    cases sh.readRecord env reply with
    | error cause => exact .of_feeds (Shared.feeds_fail sh _ cause)
    | ok record =>
      have he := Shared.feeds_enter (sh.log (.startupResumes (record.resumePoint env.startOverride) record.latestEpoch
        env.startOverride)) .service (.passDenied .startup)
      simp only [catchUp]
      split
      · rename_i h
        rw [h] at he
        exact .of_feeds he
      · rename_i sh' h
        rw [h] at he
        have hf := (Follow.start_writes token (record.resumePoint env.startOverride) sh').feeds.trans he
        have hy := yields_of_fst (P := fun sh'' => sh.Spares feed sh'') (Shared.Spares.of_feeds hf)
        exact (yields_andThen ..).2 (hy.mono (fun _ _ h => ⟨h, fun _ _ he => by cases he⟩) fun sh'' report h => hsubscribe sh'' report h)
  | following f =>
    have hf := (Follow.resume_writes env token sh f reply).feeds
    have hy := yields_of_fst (P := fun sh'' => sh.Spares feed sh'') (Shared.Spares.of_feeds hf)
    exact (yields_andThen ..).2 (hy.mono (fun _ _ h => ⟨h, fun _ _ he => by cases he⟩) fun sh'' report h => hsubscribe sh'' report h)
  | subscribing =>
    simp only [resume]
    split
    · exact .of_feeds rfl
    · cases reply with
      | failed cause => exact .of_feeds (Shared.feeds_fail sh _ cause)
      | granted => exact listen_opens env token sh feed
  | listening other l => exact absurd rfl (h other l)

/-- What a turn leaves behind of a stream that its task does not attend, and how the task may
    come to attend it. -/
theorem Work.resume_elsewhere {w : Work} (reply : Reply) (h : ∀ a, w.attends? sh.runToken = some a → a.feed ≠ feed) :
    Yields (w.resume env sh reply)
      (fun sh' w' => sh.Spares feed sh' ∧ ∀ run a, w'.attends? run = some a → a.feed = feed →
        a.listener.isHandling = false ∧ feed = sh.feeds.length ∧ feed < sh'.feeds.length)
      (fun sh' _ => sh.Spares feed sh') := by
  cases ha : w.attends? sh.runToken with
  | some a =>
    obtain ⟨wrap, next, he, hwrap, hnext⟩ := resume_attending env ha reply
    have hannounced : sh.Spares feed (w.announced sh) := by
      unfold announced
      split <;> exact .of_feeds rfl
    have hl := a.listener.resume_spares env (h a ha) a.guard a.token (w.announced sh) reply
    rw [he]
    rcases hr : a.listener.resume env a.guard a.token a.feed (w.announced sh) reply with ⟨sh', l | exit⟩
    · rw [hr] at hl
      refine ⟨hannounced.trans hl, fun run a' ha' hfeed => ?_⟩
      have hsame := attends?_run run sh.runToken (wrap l)
      rw [hwrap l, ha'] at hsame
      exact absurd ((congrArg Prod.fst (Option.some.inj hsame)).symm.trans hfeed) (h a ha)
    · rw [hr] at hl
      obtain ⟨sh'', o, hn, hfeeds, -⟩ := hnext sh' exit
      show Yields (next sh' exit) _ _
      rw [hn]
      exact (hannounced.trans hl).trans (.of_feeds hfeeds)
  | none =>
    by_cases hs : w.kind = .startup
    · cases w with
      | asked r =>
        cases r with
        | startup => exact ⟨.of_feeds rfl, fun run a ha _ => by cases ha⟩
        | _ => cases hs
      | startup s =>
        have hy := s.resume_opens env sh.runToken sh feed reply (by
          rintro other l rfl
          cases ha)
        refine (yields_andThen ..).2 (hy.mono (fun sh' s' h => ⟨h.1, fun run a ha hfeed => ?_⟩) fun _ _ h => h.trans (.of_feeds rfl))
        cases s' with
        | listening other l =>
          cases ha
          cases hfeed
          exact h.2 _ _ rfl
        | _ => cases ha
      | _ => cases hs
    · by_cases hl : w.kind = .listen
      · cases w with
        | asked r =>
          cases r with
          | listen token other => cases ha
          | _ => cases hl
        | listen token other l => cases ha
        | _ => cases hl
      · have hkind := resume_kind env sh w reply
        have hf := yields_of_fst (P := fun sh' => sh.Spares feed sh') (Shared.Spares.of_feeds (resume_feeds env sh w reply hs hl))
        refine (hkind.and hf).mono (fun _ w' h => ⟨h.2, fun run a ha' _ => ?_⟩) fun _ _ h => h.2
        rw [attends?_eq_none (by rw [h.1]; exact hs) (by rw [h.1]; exact hl)] at ha'
        cases ha'

end Elsewhere

end CommitteeSync
