/-
  CommitteeSync.Proofs.AroundWrites — what a task does around its writes.

  A task never has more than one write of an epoch open, and then its turns are turns of that
  write. Around them it decides what to do next: it reads the record, looks at the gate, the
  clock and its token, and asks for a transaction, for the record or for the head stream. None
  of this touches the store.

  Proved, layer by layer and then for any task:
  (1) A turn that finds no write open leaves the store as it is, counts no failure but a
      record that a head event could not read, and makes at most one call, the one whose reply
      it then waits for; the write it opens, if it opens one, is at its beginning. Under a
      cancelled token the task is over or asks for the record, and it asks for it only in its
      first turn or as a listener (`Work.resume_closed`).
  (2) A turn that finds a write open is a turn of that write and, when the write is over, such
      a turn as in (1) besides (`Work.resume_open`).
-/

import CommitteeSync.Proofs.Account

namespace CommitteeSync

open Turn

variable (env : Setup)

/-! ## Going on without an open write -/

namespace Shared

/-- From `sh` to `sh'` the account stayed as it was, and tokens at most were cancelled. -/
structure Keeps (sh sh' : Shared) : Prop where
  account : sh'.account = sh.account
  cancelled : ∀ t, sh.isCancelled t → sh'.isCancelled t

/-- From `sh`, with no write open, on to `sh'` with the write `open?` and the wait `wait`. -/
structure Opens (sh : Shared) (token? : Option Token) (mayAsk : Bool) (sh' : Shared)
    (open? : Option (Epoch × EpochWrite)) (wait : Wait) : Prop where
  account : sh'.account = sh.account.ask wait.call?
  fresh : ∀ epoch w, open? = some (epoch, w) → w = .beginning
  /-- Under a cancelled token the work would be over, or it asks for the record where it may. -/
  stops : ∀ t ∈ token?, sh.isCancelled t → mayAsk ∧ open? = none ∧ wait.call? = some (.metadata env.metadataKey)

/-- A turn that finds no write open. -/
def Proceeds {σ ρ : Type} (sh : Shared) (token? : Option Token) (mayAsk : Bool)
    (open? : σ → Option (Epoch × EpochWrite)) (wait : σ → Wait) (t : Shared × Turn σ ρ) : Prop :=
  Yields t (fun sh' s => sh.Opens env token? mayAsk sh' (open? s) (wait s)) (fun sh' _ => sh.Keeps sh')

variable {env} {sh sh' sh'' : Shared} {token? : Option Token} {mayAsk : Bool} {open? : Option (Epoch × EpochWrite)}
  {wait : Wait}

namespace Keeps

theorem refl (sh : Shared) : sh.Keeps sh := ⟨rfl, fun _ h => h⟩

theorem of_eq (ha : sh'.account = sh.account) (ht : sh'.tokens = sh.tokens) : sh.Keeps sh' :=
  ⟨ha, fun t h => by rw [isCancelled, ht]; exact h⟩

theorem trans (h : sh.Keeps sh') (h' : sh'.Keeps sh'') : sh.Keeps sh'' :=
  ⟨h'.account.trans h.account, fun t ht => h'.cancelled t (h.cancelled t ht)⟩

theorem log (sh : Shared) (e : Event) : sh.Keeps (sh.log e) := of_eq rfl rfl

theorem exit (sh : Shared) (g : Guard) : sh.Keeps (sh.exit g) := by
  cases g <;> exact of_eq rfl rfl

theorem readClock (sh : Shared) : sh.Keeps sh.readClock.1 :=
  of_eq (account_readClock sh) (congrArg Surroundings.tokens (surroundings_readClock sh))

theorem enter (sh : Shared) (g : Guard) (denial : Event) : sh.Keeps (sh.enter g denial).1 := by
  unfold Shared.enter
  split
  · cases g <;> exact of_eq rfl rfl
  · exact of_eq rfl rfl

theorem openFeed (sh : Shared) : sh.Keeps sh.openFeed.1 := by
  have hd : sh.Keeps sh.dropSender := by
    unfold dropSender
    split <;> exact of_eq rfl rfl
  exact hd.trans (of_eq rfl rfl)

theorem fail (sh : Shared) (context : String) (cause : Cause) : sh.Keeps (sh.fail context cause) :=
  ⟨account_fail sh context cause, fun _ h => (Effects.fail sh context cause).cancelled h⟩

theorem opens (h : sh.Keeps sh') (ho : sh'.Opens env token? mayAsk sh'' open? wait) :
    sh.Opens env token? mayAsk sh'' open? wait :=
  ⟨by rw [ho.account, h.account], ho.fresh, fun t ht hc => ho.stops t ht (h.cancelled t hc)⟩

theorem proceeds {σ ρ : Type} {open? : σ → Option (Epoch × EpochWrite)} {wait : σ → Wait} {t : Shared × Turn σ ρ}
    (h : sh.Keeps sh') (ht : sh'.Proceeds env token? mayAsk open? wait t) :
    sh.Proceeds env token? mayAsk open? wait t :=
  ht.mono (fun _ _ ho => h.opens ho) fun _ _ hk => h.trans hk

end Keeps

namespace Opens

/-- A write is begun, as the token is not cancelled. -/
theorem begins {token : Token} (epoch : Epoch) (h : ¬ sh.isCancelled token) :
    sh.Opens env (some token) mayAsk (sh.make .begin) (some (epoch, .beginning)) (.reply .begin (some token)) := by
  refine ⟨account_make sh .begin, fun e w he => ?_, fun t ht hc => ?_⟩
  · cases he; rfl
  · cases ht
    exact absurd hc h

/-- The record is asked for. -/
theorem asks : sh.Opens env token? true (sh.askRecord env) none (.reply (.metadata env.metadataKey) none) :=
  ⟨account_make sh _, nofun, fun _ _ _ => ⟨rfl, rfl, rfl⟩⟩

/-- The task waits for something else than a reply. -/
theorem rests (h : ∀ t ∈ token?, ¬ sh.isCancelled t) (ha : sh'.account = sh.account) (hw : wait.call? = none) :
    sh.Opens env token? mayAsk sh' none wait :=
  ⟨by rw [hw, Account.ask_none, ha], nofun, fun t ht hc => absurd hc (h t ht)⟩

end Opens

namespace Proceeds

/-- Where the token is not cancelled, nothing need be allowed. -/
theorem of_running {σ ρ : Type} {open? : σ → Option (Epoch × EpochWrite)} {wait : σ → Wait} {t : Shared × Turn σ ρ}
    (h : sh.Proceeds env token? mayAsk open? wait t) (hc : ∀ t ∈ token?, ¬ sh.isCancelled t) (mayAsk' : Bool) :
    sh.Proceeds env token? mayAsk' open? wait t :=
  h.mono (fun _ _ ho => ⟨ho.account, ho.fresh, fun t ht h => absurd h (hc t ht)⟩) fun _ _ hk => hk

theorem andThen {σ ρ σ' ρ' : Type} {open? : σ → Option (Epoch × EpochWrite)} {wait : σ → Wait}
    {open?' : σ' → Option (Epoch × EpochWrite)} {wait' : σ' → Wait} {t : Shared × Turn σ ρ} {wrap : σ → σ'}
    {next : Shared → ρ → Shared × Turn σ' ρ'} (h : sh.Proceeds env token? mayAsk open? wait t)
    (hw : ∀ s, open?' (wrap s) = open? s ∧ wait' (wrap s) = wait s)
    (hn : ∀ sh' r, Proceeds env sh' token? mayAsk open?' wait' (next sh' r)) :
    sh.Proceeds env token? mayAsk open?' wait' (Turn.andThen t wrap next) := by
  refine (yields_andThen ..).2 (h.mono (fun sh' s ho => ?_) fun sh' r hk => hk.proceeds (hn sh' r))
  rw [(hw s).1, (hw s).2]
  exact ho

end Proceeds

/-- A failure that counts is counted. -/
def missing (sh : Shared) (counts : Bool) : Shared := if counts then sh.count .epochFailure else sh

theorem account_missing (sh : Shared) (counts : Bool) : (sh.missing counts).account = sh.account.miss counts := by
  cases counts <;> rfl

theorem isCancelled_missing (sh : Shared) (counts : Bool) (t : Token) :
    (sh.missing counts).isCancelled t = sh.isCancelled t := by
  cases counts <;> rfl

end Shared

open Shared

variable {may : Bool}

/-! ## Around a pass -/

def Pass.write? (p : Pass) : Option (Epoch × EpochWrite) := some (p.epoch, p.write)

def Follow.write? (f : Follow) : Option (Epoch × EpochWrite) := f.pass.write?

def RangePass.write? (r : RangePass) : Option (Epoch × EpochWrite) := r.pass.write?

theorem EpochWrite.start_proceeds (token : Token) (epoch : Epoch) (sh : Shared) :
    sh.Proceeds env (some token) may (fun w => some (epoch, w)) (·.waitsFor env token epoch) (start token epoch sh) := by
  unfold start
  by_cases hc : sh.isCancelled token
  · rw [if_pos hc]
    exact .refl sh
  · rw [if_neg hc]
    exact .begins epoch hc

namespace Pass

theorem enter_proceeds (token : Token) (report : Report) (epoch : Epoch) (sh : Shared) :
    sh.Proceeds env (some token) may write? (waitsFor env token) (enter token report epoch sh) := by
  unfold enter
  by_cases hc : sh.isCancelled token
  · rw [if_pos hc]
    exact .log sh _
  · rw [if_neg hc]
    exact .begins epoch hc

theorem settle_proceeds (token : Token) (report : Report) (epoch : Epoch) (sh : Shared) (r : EpochWrite.Result) :
    sh.Proceeds env (some token) may write? (waitsFor env token) (settle token report epoch sh r) := by
  cases r with
  | error error => exact .log sh _
  | ok _ =>
    simp only [settle]
    split
    · exact .log sh _
    · exact enter_proceeds env token _ _ sh

theorem start_proceeds (token : Token) (resume target : Epoch) (sh : Shared) :
    sh.Proceeds env (some token) may write? (waitsFor env token) (start token resume target sh) := by
  unfold start
  split
  · exact .log sh _
  · have hk : sh.Keeps ((sh.count .catchupRun).log (.passStarted resume target)) := .of_eq rfl rfl
    exact hk.proceeds (enter_proceeds env token _ _ _)

end Pass

namespace Follow

theorem lookAgain_proceeds (token : Token) (total : Report) (sh : Shared) :
    sh.Proceeds env (some token) may write? (waitsFor env token) (lookAgain token total sh) := by
  fun_induction lookAgain token total sh with
  | case1 total sh _ _ after pass h =>
    have hs : Proceeds env _ (some token) may _ _ _ :=
      Pass.start_proceeds env token (max total.resume (nextEpoch total.target)) sh.readClock.2 sh.readClock.1
    rw [h] at hs
    exact (Keeps.readClock sh).opens hs
  | case2 total sh _ _ after report h ih =>
    have hs : Proceeds env _ (some token) may _ _ _ :=
      Pass.start_proceeds env token (max total.resume (nextEpoch total.target)) sh.readClock.2 sh.readClock.1
    rw [h] at hs
    exact ((Keeps.readClock sh).trans hs).proceeds ih
  | case3 total sh => exact .readClock sh
  | case4 total sh => exact .refl sh

theorem start_proceeds (token : Token) (resume : Epoch) (sh : Shared) :
    sh.Proceeds env (some token) may write? (waitsFor env token) (start token resume sh) := by
  have hs : Proceeds env _ (some token) may _ _ _ :=
    (Keeps.readClock sh).proceeds (Pass.start_proceeds env token resume sh.readClock.2 sh.readClock.1)
  unfold start
  split
  · rename_i h; rwa [h] at hs
  · rename_i h; rw [h] at hs; exact hs.proceeds (lookAgain_proceeds env token _ _)

end Follow

/-! ## Tasks above a pass -/

namespace HeadUpdate

theorem start_proceeds (token : Token) (event : HeadEvent) (sh : Shared) :
    sh.Proceeds env (some token) true write? (waitsFor env token) (start env event sh) := by
  have hk : sh.Keeps (sh.count .headEvent) := .of_eq rfl rfl
  simp only [start]
  split
  · exact hk.opens .asks
  · exact hk.trans (.log _ _)

theorem finishDirect_proceeds (token : Token) (epoch : Epoch) (sh : Shared) (r : EpochWrite.Result) :
    sh.Proceeds env (some token) may write? (waitsFor env token) (finishDirect epoch sh r) := by
  cases r <;> exact .log sh _

theorem fill_proceeds (guard : Guard) (token : Token) (resume epoch : Epoch) (sh : Shared) :
    sh.Proceeds env (some token) may write? (waitsFor env token) (fill guard token resume epoch sh) := by
  have he := Keeps.enter sh guard (.headDeferred resume epoch)
  unfold fill
  split
  · rename_i h; rwa [h] at he
  · rename_i sh' h
    rw [h] at he
    refine (he.trans (.log sh' _)).proceeds
      ((Pass.start_proceeds env token resume epoch _).andThen (fun _ => ⟨rfl, rfl⟩) ?_)
    intro sh' _
    exact .exit sh' guard

/-- A record that could not be read is the one failure that counts. -/
theorem dispatch_proceeds (guard : Guard) (token : Token) (epoch : Epoch) (sh : Shared) (r : Except Cause Record) :
    (sh.missing !r.isOk).Proceeds env (some token) may write? (waitsFor env token) (dispatch guard token epoch sh r) := by
  cases r with
  | error cause => exact .of_eq rfl rfl
  | ok record =>
    show sh.Proceeds _ _ _ _ _ _
    simp only [dispatch]
    split
    · exact .log sh _
    · split
      · exact fill_proceeds env guard token _ epoch sh
      · exact (EpochWrite.start_proceeds env token epoch sh).andThen (fun _ => ⟨rfl, rfl⟩)
          (finishDirect_proceeds env token epoch)

end HeadUpdate

namespace Listener

theorem stop_keeps (feed : Nat) (sh : Shared) (exit : ListenerExit) : sh.Keeps (stop feed sh exit).1 := .of_eq rfl rfl

theorem serve_proceeds (token : Token) (feed : Nat) (sh : Shared) (lag : Nat) (queue : List HeadEvent) :
    sh.Proceeds env (some token) true write? (waitsFor env token feed) (serve env token feed sh lag queue) := by
  refine serve_yields (R := sh.Keeps) (fun sh' event rest hk => ?_) (fun sh' hk hc => ?_)
    (fun sh' exit hk => hk.trans (stop_keeps feed sh' exit)) (.refl sh) lag queue
  · have hu : sh'.Keeps (sh'.updateFeed feed fun f => { f with queue := rest }) := .of_eq rfl rfl
    exact (hk.trans hu).proceeds (HeadUpdate.start_proceeds env token event _)
  · exact hk.opens (.rests (fun t ht => by cases ht; exact hc) rfl rfl)

theorem start_proceeds (token : Token) (feed : Nat) (sh : Shared) :
    sh.Proceeds env (some token) true write? (waitsFor env token feed) (start env token feed sh) :=
  (Keeps.log sh _).proceeds (serve_proceeds env token feed _ _ _)

end Listener

theorem CatchUp.finish_keeps (sh : Shared) (report : Report) : sh.Keeps (finish sh report).1 := .exit sh .service

theorem CatchUp.follow_proceeds (token : Token) (sh : Shared) (r : Except Cause Record) :
    sh.Proceeds env (some token) may write? (waitsFor env token) (follow token sh r) := by
  cases r with
  | error cause => exact .refl sh
  | ok record =>
    have he := Keeps.enter sh .service (.passDenied .manual)
    simp only [follow]
    split
    · rename_i h; rwa [h] at he
    · rename_i sh' h
      rw [h] at he
      exact he.proceeds ((Follow.start_proceeds env token _ sh').andThen (fun _ => ⟨rfl, rfl⟩) finish_keeps)

theorem RangePass.start_proceeds (token : Token) (resume target : Epoch) (sh : Shared) :
    sh.Proceeds env (some token) may write? (fun r => r.pass.waitsFor env token) (start token resume target sh) := by
  have he := Keeps.enter sh .service (.passDenied .range)
  unfold start
  split
  · rename_i h; rwa [h] at he
  · rename_i sh' h
    rw [h] at he
    refine he.proceeds ((Pass.start_proceeds env token resume target sh').andThen (fun _ => ⟨rfl, rfl⟩) ?_)
    intro sh' _
    exact .exit sh' .service

namespace Startup

theorem finish_proceeds (token : Token) (sh : Shared) (exit : ListenerExit) :
    sh.Proceeds env (some token) may write? (waitsFor env token) (finish sh exit) := by
  cases exit
  · exact .refl sh
  · exact .fail sh _ _

theorem listen_proceeds (token : Token) (sh : Shared) :
    sh.Proceeds env (some token) true write? (waitsFor env token) (listen env token sh) :=
  (Keeps.openFeed sh).proceeds
    ((Listener.start_proceeds env token _ _).andThen (fun _ => ⟨rfl, rfl⟩) (finish_proceeds env token))

theorem subscribe_proceeds (token : Token) (sh : Shared) (report : Report) :
    sh.Proceeds env (some token) may write? (waitsFor env token) (subscribe token sh report) := by
  have hk : sh.Keeps ((sh.exit .service).log (.startupCaughtUp report)) := (Keeps.exit sh .service).trans (.log _ _)
  simp only [subscribe]
  by_cases hc : ((sh.exit .service).log (.startupCaughtUp report)).isCancelled token
  · rw [if_pos hc]
    exact hk
  · rw [if_neg hc]
    refine hk.opens ⟨account_make _ .subscribe, fun _ _ he => (by cases he), fun t ht hc' => ?_⟩
    cases ht
    exact absurd hc' hc

theorem catchUp_proceeds (token : Token) (sh : Shared) (r : Except Cause Record) :
    sh.Proceeds env (some token) may write? (waitsFor env token) (catchUp env token sh r) := by
  cases r with
  | error cause => exact .fail sh _ _
  | ok record =>
    have he := (Keeps.log sh _).trans
      (.enter (sh.log (.startupResumes (record.resumePoint env.startOverride) record.latestEpoch
      env.startOverride)) .service (.passDenied .startup))
    simp only [catchUp]
    split
    · rename_i h; rwa [h] at he
    · rename_i sh' h
      rw [h] at he
      exact he.proceeds ((Follow.start_proceeds env token _ sh').andThen (fun _ => ⟨rfl, rfl⟩)
        (subscribe_proceeds env token))

end Startup

/-- Startup has come to its listener. -/
def Startup.listens : Startup → Bool
  | .listening _ _ => true
  | _ => false

/-! ## Turns of an open write -/

/-- The turn of a task that has the write `w` of `epoch` open: a turn of that write and, when
    it is over, one that finds no write open. -/
def Around {σ ρ : Type} (mayAsk : Bool) (sh : Shared) (reply : Reply) (token : Token) (epoch : Epoch) (w : EpochWrite)
    (open? : σ → Option (Epoch × EpochWrite)) (wait : σ → Wait) (t : Shared × Turn σ ρ) : Prop :=
  ∃ (wrap : EpochWrite → σ) (next : Shared → EpochWrite.Result → Shared × Turn σ ρ),
    t = Turn.andThen (w.resume env token epoch sh reply) wrap next ∧
    (∀ w', open? (wrap w') = some (epoch, w') ∧ wait (wrap w') = w'.waitsFor env token epoch) ∧
    ∀ sh' r, Proceeds env sh' (some token) mayAsk open? wait (next sh' r)

section Around

variable {env} {sh : Shared} {reply : Reply} {token : Token} {epoch : Epoch} {w : EpochWrite}

theorem Around.andThen {σ ρ σ' ρ' : Type} {open? : σ → Option (Epoch × EpochWrite)} {wait : σ → Wait}
    {open?' : σ' → Option (Epoch × EpochWrite)} {wait' : σ' → Wait} {t : Shared × Turn σ ρ} {wrap : σ → σ'}
    {next : Shared → ρ → Shared × Turn σ' ρ'} (h : Around env may sh reply token epoch w open? wait t)
    (hw : ∀ s, open?' (wrap s) = open? s ∧ wait' (wrap s) = wait s)
    (hn : ∀ sh' r, Proceeds env sh' (some token) may open?' wait' (next sh' r)) :
    Around env may sh reply token epoch w open?' wait' (Turn.andThen t wrap next) := by
  obtain ⟨wrap₀, next₀, rfl, hw₀, hn₀⟩ := h
  refine ⟨fun w' => wrap (wrap₀ w'), fun sh' r => Turn.andThen (next₀ sh' r) wrap next, ?_, fun w' => ?_,
    fun sh' r => ?_⟩
  · rcases w.resume env token epoch sh reply with ⟨sh', w' | r⟩ <;> rfl
  · rw [(hw _).1, (hw _).2]
    exact hw₀ w'
  · exact (hn₀ sh' r).andThen hw hn

theorem EpochWrite.resume_around :
    Around env may sh reply token epoch w (fun w' => some (epoch, w')) (·.waitsFor env token epoch)
      (w.resume env token epoch sh reply) := by
  refine ⟨fun w' => w', fun sh' r => (sh', .ends r), ?_, fun w' => ⟨rfl, rfl⟩, fun sh' _ => .refl sh'⟩
  rcases w.resume env token epoch sh reply with ⟨sh', w' | r⟩ <;> rfl

theorem Pass.resume_around (pass : Pass) :
    Around env may sh reply token pass.epoch pass.write Pass.write? (Pass.waitsFor env token)
      (pass.resume env token sh reply) :=
  EpochWrite.resume_around.andThen (fun _ => ⟨rfl, rfl⟩) (settle_proceeds env token pass.report pass.epoch)

theorem Follow.resume_around (f : Follow) :
    Around env may sh reply token f.pass.epoch f.pass.write Follow.write? (Follow.waitsFor env token)
      (f.resume env token sh reply) :=
  (Pass.resume_around f.pass).andThen (fun _ => ⟨rfl, rfl⟩) fun _ _ => lookAgain_proceeds env token _ _

theorem HeadUpdate.resume_around (guard : Guard) {u : HeadUpdate} (h : u.write? = some (epoch, w)) :
    Around env may sh reply token epoch w HeadUpdate.write? (HeadUpdate.waitsFor env token)
      (u.resume env guard token sh reply) := by
  cases u with
  | reading epoch => cases h
  | direct epoch write =>
    cases h
    exact EpochWrite.resume_around.andThen (fun _ => ⟨rfl, rfl⟩) (finishDirect_proceeds env token epoch)
  | filling epoch pass =>
    cases h
    exact (Pass.resume_around pass).andThen (fun _ => ⟨rfl, rfl⟩) fun sh' _ => Keeps.exit sh' guard

theorem Listener.resume_around (guard : Guard) (feed : Nat) {l : Listener} (h : l.write? = some (epoch, w)) :
    Around env true sh reply token epoch w Listener.write? (Listener.waitsFor env token feed)
      (l.resume env guard token feed sh reply) := by
  cases l with
  | idle => cases h
  | handling u =>
    exact (HeadUpdate.resume_around guard h).andThen (fun _ => ⟨rfl, rfl⟩)
      fun sh' _ => serve_proceeds env token feed sh' _ _

theorem CatchUp.resume_around {c : CatchUp} (h : c.write? = some (epoch, w)) :
    Around env may sh reply token epoch w CatchUp.write? (CatchUp.waitsFor env token) (c.resume env token sh reply) := by
  cases c with
  | reading => cases h
  | following f =>
    cases h
    exact (Follow.resume_around f).andThen (fun _ => ⟨rfl, rfl⟩) finish_keeps

theorem RangePass.resume_around (r : RangePass) :
    Around env may sh reply token r.pass.epoch r.pass.write RangePass.write? (fun r => r.pass.waitsFor env token)
      (r.resume env token sh reply) :=
  (Pass.resume_around r.pass).andThen (fun _ => ⟨rfl, rfl⟩) fun sh' _ => Keeps.exit sh' .service

theorem Startup.resume_around {s : Startup} (h : s.write? = some (epoch, w)) :
    Around env s.listens sh reply token epoch w Startup.write? (Startup.waitsFor env token) (s.resume env token sh reply) := by
  cases s with
  | reading => cases h
  | subscribing => cases h
  | following f =>
    cases h
    exact (Follow.resume_around f).andThen (fun _ => ⟨rfl, rfl⟩) (subscribe_proceeds env token)
  | listening feed l =>
    exact (Listener.resume_around .service feed h).andThen (fun _ => ⟨rfl, rfl⟩) (finish_proceeds env token)

end Around

/-! ## Turns without an open write -/

/-- A head event whose record could not be read. -/
def HeadUpdate.misses (sh : Shared) (reply : Reply) : HeadUpdate → Bool
  | .reading _ => !(sh.readRecord env reply).isOk
  | _ => false

/-- The listener has such an event in hand. -/
def Listener.misses (sh : Shared) (reply : Reply) : Listener → Bool
  | .idle => false
  | .handling u => u.misses env sh reply

section Closed

variable {env} {sh : Shared} {reply : Reply}

theorem HeadUpdate.resume_closed (guard : Guard) (token : Token) {u : HeadUpdate} (h : u.write? = none) :
    (sh.missing (u.misses env sh reply)).Proceeds env (some token) may write? (waitsFor env token)
      (u.resume env guard token sh reply) := by
  cases u with
  | reading epoch => exact dispatch_proceeds env guard token epoch sh _
  | direct epoch write => cases h
  | filling epoch pass => cases h

theorem Listener.resume_closed (guard : Guard) (token : Token) (feed : Nat) {l : Listener} (h : l.write? = none) :
    (sh.missing (l.misses env sh reply)).Proceeds env (some token) true write? (waitsFor env token feed)
      (l.resume env guard token feed sh reply) := by
  cases l with
  | idle => exact serve_proceeds env token feed sh _ _
  | handling u =>
    refine (HeadUpdate.resume_closed guard token h).andThen (fun _ => ⟨rfl, rfl⟩) ?_
    intro sh' _
    exact serve_proceeds env token feed sh' _ _

theorem CatchUp.resume_closed (token : Token) {c : CatchUp} (h : c.write? = none) :
    sh.Proceeds env (some token) may write? (waitsFor env token) (c.resume env token sh reply) := by
  cases c with
  | reading => exact follow_proceeds env token sh _
  | following f => cases h

/-- The listener of a startup has a head event in hand whose record cannot be read. -/
def Startup.misses (env : Setup) (sh : Shared) (reply : Reply) : Startup → Bool
  | .listening _ l => l.misses env sh reply
  | _ => false

theorem Startup.resume_closed (token : Token) {s : Startup} (h : s.write? = none) :
    (sh.missing (s.misses env sh reply)).Proceeds env (some token) s.listens write? (waitsFor env token)
      (s.resume env token sh reply) := by
  cases s with
  | reading => exact catchUp_proceeds env token sh _
  | following f => cases h
  | subscribing =>
    show sh.Proceeds _ _ _ _ _ _
    simp only [resume]
    split
    · exact .refl sh
    · rename_i hc
      cases reply with
      | granted => exact (listen_proceeds env token sh).of_running (fun t ht => by cases ht; exact hc) _
      | failed cause => exact .fail sh _ _
  | listening feed l =>
    exact (Listener.resume_closed .service token feed h).andThen (fun _ => ⟨rfl, rfl⟩) (finish_proceeds env token)

end Closed

/-! ## Any task -/

/-- The token that a task handles epochs under. -/
def Request.token? (run : Token) : Request → Option Token
  | .catchUp token | .range token _ _ | .head _ token _ | .writeEpoch token _ | .pass token _ _ | .listen token _ =>
    some token
  | .startup => some run
  | .latestEpoch | .readRecord | .stage _ _ | .waitForFatal | .stop | .runnerStart _ | .runnerStop _ | .runnerRun _ |
    .reporter => none

namespace Work

@[inherit_doc Request.token?]
def token? (run : Token) : Work → Option Token
  | .asked r => r.token? run
  | .catchUp token _ | .range token _ | .head _ token _ | .writeEpoch token _ _ | .pass token _ | .listen token _ _ =>
    some token
  | .startup _ => some run
  | .latestEpoch | .readRecord | .stage _ _ _ | .waitForFatal | .stop _ | .runner _ _ | .reporter _ => none

/-- Whether the task is a listener, which may take an event though its token is cancelled. -/
def listens : Work → Bool
  | .asked (.listen _ _) | .listen _ _ _ => true
  | .startup s => s.listens
  | _ => false

/-- Whether the task may ask for the record in its next turn. What needs the record asks for it
    first, and looks at no token before. -/
def mayAsk : Work → Bool
  | .asked (.catchUp _) | .asked (.head _ _ _) | .asked .startup | .asked .latestEpoch | .asked .readRecord => true
  | w => w.listens

/-- The task has a head event in hand whose record cannot be read. -/
def misses (sh : Shared) (reply : Reply) : Work → Bool
  | .head _ _ u => u.misses env sh reply
  | .listen _ _ l => l.misses env sh reply
  | .startup s => s.misses env sh reply
  | _ => false

variable {env} {sh : Shared} {reply : Reply} {epoch : Epoch} {v : EpochWrite}

theorem start_token (run : Token) (r : Request) :
    Yields (start env sh r) (fun _ w => w.token? run = r.token? run) (fun _ _ => True) := by
  cases r with
  | latestEpoch => rfl
  | readRecord => rfl
  | stage epoch ending => rfl
  | waitForFatal => simp only [start, lookForFatal]; split <;> trivial
  | _ => simp only [start]; exact andThen_wrapped _ (fun _ => rfl) fun _ _ => trivial

/-- No turn changes the token that a task handles epochs under. -/
theorem resume_token (run : Token) (w : Work) :
    Yields (w.resume env sh reply) (fun _ w' => w'.token? run = w.token? run) (fun _ _ => True) := by
  cases w with
  | asked r => exact start_token run r
  | latestEpoch => trivial
  | readRecord => trivial
  | waitForFatal => simp only [resume, lookForFatal]; split <;> trivial
  | _ => exact andThen_wrapped _ (fun _ => rfl) fun _ _ => trivial

/-- A turn of a task with an open write: one of the write, and what follows when that is over. -/
theorem resume_open (env : Setup) (sh : Shared) (reply : Reply) {w : Work} (h : w.write? = some (epoch, v)) :
    ∃ token, w.token? sh.runToken = some token ∧
      Around env w.mayAsk sh reply token epoch v Work.write? (Work.waitsFor env sh.runToken) (w.resume env sh reply) := by
  cases w with
  | asked r => cases h
  | catchUp token c =>
    exact ⟨token, rfl, (CatchUp.resume_around h).andThen (fun _ => ⟨rfl, rfl⟩)
      fun sh' _ => .refl sh'⟩
  | range token r =>
    cases h
    exact ⟨token, rfl, (RangePass.resume_around r).andThen (fun _ => ⟨rfl, rfl⟩) fun sh' _ => .refl sh'⟩
  | head guard token u =>
    exact ⟨token, rfl, (HeadUpdate.resume_around guard h).andThen (fun _ => ⟨rfl, rfl⟩) fun sh' _ => .refl sh'⟩
  | writeEpoch token epoch w =>
    cases h
    exact ⟨token, rfl, EpochWrite.resume_around.andThen (fun _ => ⟨rfl, rfl⟩) fun sh' _ => .refl sh'⟩
  | pass token pass =>
    cases h
    exact ⟨token, rfl, (Pass.resume_around pass).andThen (fun _ => ⟨rfl, rfl⟩) fun sh' _ => .refl sh'⟩
  | listen token feed l =>
    exact ⟨token, rfl, (Listener.resume_around .parts feed h).andThen (fun _ => ⟨rfl, rfl⟩) fun sh' _ => .refl sh'⟩
  | startup s =>
    exact ⟨sh.runToken, rfl, (Startup.resume_around h).andThen (fun _ => ⟨rfl, rfl⟩) fun _ _ => Keeps.of_eq rfl rfl⟩
  | latestEpoch => cases h
  | readRecord => cases h
  | stage epoch ending s => cases h
  | waitForFatal => cases h
  | stop s => cases h
  | runner root s => cases h
  | reporter r => cases h

/-- A turn of the supervisor or the reporter. -/
theorem aside_proceeds {σ ρ : Type} {t : Shared × Turn σ ρ} {wrap : σ → Work} {next : Shared → ρ → Result}
    (ha : t.1.account = sh.account) (he : Effects .aside sh t.1)
    (hw : ∀ s, (wrap s).write? = none ∧ ((wrap s).waitsFor env sh.runToken).call? = none)
    (hn : ∀ sh' r, Yields (next sh' r) (fun _ _ => False) (fun sh'' _ => sh'.Keeps sh'')) :
    sh.Proceeds env none may Work.write? (Work.waitsFor env sh.runToken) (Turn.andThen t wrap next) := by
  obtain ⟨sh', s | r⟩ := t
  · show sh.Opens _ _ _ sh' _ _
    rw [(hw s).1]
    exact .rests nofun ha (hw s).2
  · have hk : sh.Keeps sh' := ⟨ha, fun _ hc => he.cancelled hc⟩
    exact (hn sh' r).mono (fun _ _ hf => hf.elim) fun _ _ h => hk.trans h

theorem stopping_waits (s : Stopping) : s.waitsFor.call? = none := by cases s <;> rfl

theorem supervisor_waits (root : Token) (s : Supervisor) : (s.waitsFor root).call? = none := by
  cases s
  · rfl
  · exact stopping_waits _

theorem lookForFatal_proceeds (sh : Shared) :
    sh.Proceeds env none may Work.write? (Work.waitsFor env sh.runToken) (lookForFatal sh) := by
  unfold lookForFatal
  split
  · exact .refl sh
  · exact .rests nofun rfl rfl

theorem start_proceeds (r : Request) (h : r.kind ≠ .stage) :
    sh.Proceeds env (r.token? sh.runToken) (asked r).mayAsk Work.write? (Work.waitsFor env sh.runToken)
      (start env sh r) := by
  cases r with
  | catchUp token => exact .asks
  | range token resume target =>
    exact (RangePass.start_proceeds env token resume target sh).andThen (fun _ => ⟨rfl, rfl⟩) fun sh' _ => .refl sh'
  | head guard token event =>
    exact (HeadUpdate.start_proceeds env token event sh).andThen (fun _ => ⟨rfl, rfl⟩) fun sh' _ => .refl sh'
  | latestEpoch => exact .asks
  | readRecord => exact .asks
  | writeEpoch token epoch =>
    exact (EpochWrite.start_proceeds env token epoch sh).andThen (fun _ => ⟨rfl, rfl⟩) fun sh' _ => .refl sh'
  | stage epoch ending => exact absurd rfl h
  | pass token resume target =>
    exact (Pass.start_proceeds env token resume target sh).andThen (fun _ => ⟨rfl, rfl⟩) fun sh' _ => .refl sh'
  | listen token feed =>
    exact (Listener.start_proceeds env token feed sh).andThen (fun _ => ⟨rfl, rfl⟩) fun sh' _ => .refl sh'
  | waitForFatal => exact lookForFatal_proceeds sh
  | stop =>
    exact aside_proceeds (Stopping.start_view aloof_account sh) (Stopping.start_effects sh)
      (fun s => ⟨rfl, stopping_waits s⟩) fun sh' _ => .refl sh'
  | runnerStart root =>
    show sh.Proceeds _ _ _ _ _ (Turn.andThen (Supervisor.start root sh) (.runner root) (ending .stopped))
    exact aside_proceeds (Supervisor.launch_view aloof_account root sh)
      (Supervisor.launch_effects root sh) (fun s => ⟨rfl, supervisor_waits root s⟩) fun sh' _ => .refl sh'
  | runnerStop root =>
    exact aside_proceeds (Supervisor.stop_view aloof_account root sh) (Supervisor.stop_effects root sh)
      (fun s => ⟨rfl, supervisor_waits root s⟩) fun sh' _ => .refl sh'
  | runnerRun root =>
    exact aside_proceeds (Supervisor.run_view env aloof_account root sh) (Supervisor.run_effects env root sh)
      (fun s => ⟨rfl, supervisor_waits root s⟩) fun sh' _ => .refl sh'
  | reporter =>
    exact aside_proceeds (Reporter.resume_view env aloof_account _ sh _) (Reporter.resume_effects env _ sh _)
      (fun _ => ⟨rfl, rfl⟩) fun _ _ => .of_eq rfl rfl
  | startup => exact .asks

/-- A turn of a task with no open write. A failure is counted only where the record that a
    head event asked for could not be read. -/
theorem resume_closed (env : Setup) (sh : Shared) (reply : Reply) {w : Work} (hk : w.kind ≠ .stage)
    (h : w.write? = none) :
    (sh.missing (w.misses env sh reply)).Proceeds env (w.token? sh.runToken) w.mayAsk Work.write?
      (Work.waitsFor env sh.runToken) (w.resume env sh reply) := by
  cases w with
  | asked r => exact start_proceeds r hk
  | catchUp token c => exact (CatchUp.resume_closed token h).andThen (fun _ => ⟨rfl, rfl⟩) fun sh' _ => .refl sh'
  | range token r => cases h
  | head guard token u =>
    exact (HeadUpdate.resume_closed guard token h).andThen (fun _ => ⟨rfl, rfl⟩) fun sh' _ => .refl sh'
  | latestEpoch => exact .refl sh
  | readRecord => exact .refl sh
  | writeEpoch token epoch w => cases h
  | stage epoch ending s => exact absurd rfl hk
  | pass token pass => cases h
  | listen token feed l =>
    exact (Listener.resume_closed .parts token feed h).andThen (fun _ => ⟨rfl, rfl⟩) fun sh' _ => .refl sh'
  | waitForFatal => exact lookForFatal_proceeds sh
  | stop s =>
    exact aside_proceeds (Stopping.resume_view aloof_account sh s) (Stopping.resume_effects sh s)
      (fun s => ⟨rfl, stopping_waits s⟩) fun sh' _ => .refl sh'
  | runner root s =>
    exact aside_proceeds (Supervisor.resume_view env aloof_account root sh s) (Supervisor.resume_effects env root sh s)
      (fun s => ⟨rfl, supervisor_waits root s⟩) fun sh' _ => .refl sh'
  | reporter r =>
    exact aside_proceeds (Reporter.resume_view env aloof_account _ sh r) (Reporter.resume_effects env _ sh r)
      (fun _ => ⟨rfl, rfl⟩) fun _ _ => .of_eq rfl rfl
  | startup s =>
    exact (Startup.resume_closed sh.runToken h).andThen (fun _ => ⟨rfl, rfl⟩) fun _ _ => .of_eq rfl rfl

end Work

end CommitteeSync
