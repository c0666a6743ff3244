/-
  CommitteeSync.Proofs.Account — what becomes of the store, what was asked of the
  collaborators, and the failures counted.

  All that the write of an epoch does shows in the account: the transactions begun, committed
  and cancelled, the calls in their order, and the failures.

  Proved: a turn of an open write makes the next call of its epoch, or the write is over and
  its transaction has come to its end in just one way (`EpochWrite.resume_course`). An
  interruption is not counted as a failure.
-/

import CommitteeSync.Proofs.Effects

namespace CommitteeSync

open Turn

variable (env : Setup)

/-! ## Calls, transactions and failures -/

/-- The call whose reply is waited for. -/
def Wait.call? : Wait → Option Call
  | .reply call _ => some call
  | _ => none

/-- A call or the end of a transaction, which a reading of the clock is not. -/
def Mark.isDeal : Mark → Bool
  | .clock _ => false
  | _ => true

/-- The store, what was done with the collaborators but for readings of the clock, and the
    number of failures counted. -/
structure Account where
  store : Store
  deals : List Mark
  failures : UInt64

namespace Account

def ask (a : Account) (call? : Option Call) : Account := { a with deals := a.deals ++ call?.toList.map .call }

def begin (a : Account) : Account := { a with store := a.store.begin }

def commit (a : Account) (tx : Transaction) : Account := { a with store := a.store.commit tx }

/-- A transaction with so many committees staged is cancelled. -/
def cancel (a : Account) (staged : Nat) : Account :=
  { a with store := a.store.cancel, deals := a.deals ++ [.cancelTx staged] }

/-- A failure, if it counts. -/
def miss (a : Account) (counts : Bool) : Account := { a with failures := if counts then a.failures + 1 else a.failures }

@[simp] theorem ask_none (a : Account) : a.ask none = a := by simp [ask]

@[simp] theorem miss_false (a : Account) : a.miss false = a := rfl

/-- The calls made so far, in order. -/
def calls (a : Account) : List Call := a.deals.filterMap fun | .call c => some c | _ => none

@[simp] theorem calls_ask (a : Account) (call? : Option Call) : (a.ask call?).calls = a.calls ++ call?.toList := by
  cases call? <;> simp [calls, ask]

@[simp] theorem calls_miss (a : Account) (counts : Bool) : (a.miss counts).calls = a.calls := rfl

@[simp] theorem calls_commit (a : Account) (tx : Transaction) : (a.commit tx).calls = a.calls := rfl

@[simp] theorem calls_cancel (a : Account) (staged : Nat) : (a.cancel staged).calls = a.calls := by
  simp [calls, cancel]

end Account

namespace Shared

/-- The calls made so far, in order. -/
def calls (sh : Shared) : List Call :=
  sh.trace.toList.filterMap fun | .call c => some c | _ => none

def account (sh : Shared) : Account := ⟨sh.store, sh.trace.toList.filter Mark.isDeal, sh.telemetry.epochFailures⟩

theorem calls_make (sh : Shared) (c : Call) : (sh.make c).calls = sh.calls ++ [c] := by
  simp [calls, make, mark]

theorem account_mark (sh : Shared) (m : Mark) :
    (sh.mark m).account = { sh.account with deals := sh.account.deals ++ [m].filter Mark.isDeal } := by
  simp [account, mark]

theorem account_make (sh : Shared) (c : Call) : (sh.make c).account = sh.account.ask (some c) := by
  rw [make, account_mark]
  rfl

theorem account_cancelTx (sh : Shared) (tx : Transaction) : (sh.cancelTx tx).account = sh.account.cancel tx.staged := by
  rw [cancelTx, account_mark]
  rfl

theorem account_readClock (sh : Shared) : sh.readClock.1.account = sh.account := by
  unfold readClock
  split
  · rw [account_mark]; simp [Mark.isDeal]
  · rw [account_mark]; simp [Mark.isDeal]
  · rw [account_mark]; simp [Mark.isDeal, account]

theorem account_fail (sh : Shared) (context : String) (cause : Cause) :
    (sh.fail context cause).account = sh.account := by
  simp only [fail]
  by_cases h : sh.background.handler.isTriggered
  · rw [if_pos h]; rfl
  · rw [if_neg h]; rfl

theorem aloof_account : Aloof Shared.account := ⟨fun _ _ _ => rfl, fun _ _ => rfl, fun _ _ _ => rfl⟩

/-- The calls among the deals are all the calls. -/
theorem calls_account (sh : Shared) : sh.account.calls = sh.calls := by
  rw [account, Account.calls, List.filterMap_filter, Shared.calls]
  congr 1
  funext m
  cases m <;> rfl

end Shared

/-! ## The write of an epoch -/

theorem Staging.advance_course (epoch : Epoch) (tx : Transaction) (written : Nat) (sh : Shared) (as : List Assignment) :
    Yields (advance env epoch tx written sh as) (fun sh' s => sh'.account = sh.account.ask (some (s.call env epoch)))
      (fun sh' _ => sh' = sh) := by
  cases as with
  | nil => exact rfl
  | cons a rest =>
    simp only [advance]
    split
    · exact Shared.account_make sh _
    · exact rfl

/-- Staging puts one committee after the other, and ends without a call. -/
theorem Staging.resume_course (epoch : Epoch) (sh : Shared) (s : Staging) (reply : Reply) :
    Yields (s.resume env epoch sh reply)
      (fun sh' s' => reply = .granted ∧ sh'.account = sh.account.ask (some (s'.call env epoch)))
      (fun sh' r => sh' = sh ∧ (r.2.isOk → reply = .granted)) := by
  cases reply with
  | granted =>
    cases s with
    | fetching tx =>
      exact (advance_course env epoch tx 0 sh _).mono (fun _ _ h => ⟨rfl, h⟩)
        fun _ _ h => ⟨h, fun _ => rfl⟩
    | putting tx written next rest =>
      exact (advance_course env epoch _ (written + 1) sh rest).mono (fun _ _ h => ⟨rfl, h⟩)
        fun _ _ h => ⟨h, fun _ => rfl⟩
  | failed cause => cases s <;> exact ⟨rfl, fun h => absurd h Bool.false_ne_true⟩

namespace EpochWrite

/-- The transaction of a write that an interruption would cancel. -/
def staged? : EpochWrite → Option Transaction
  | .beginning | .committing _ _ => none
  | .staging s => some s.tx
  | .recording tx _ => some tx

/-- The account once the call that the write waits for is granted; only a begin does anything to it. -/
def granted (a : Account) : EpochWrite → Account
  | .beginning => a.begin
  | _ => a

@[simp] theorem calls_granted (a : Account) (w : EpochWrite) : (w.granted a).calls = a.calls := by
  cases w <;> rfl

/-- How a write may be over, and what that does to the account. -/
inductive Closes (a : Account) (interrupted : Bool) (reply : Reply) : EpochWrite → Account → Prop
  /-- There is no transaction yet. -/
  | unbegun : Closes a interrupted reply .beginning (a.miss !interrupted)
  | cancelled (w : EpochWrite) (tx : Transaction) (staged : Nat) :
    w.staged? = some tx → (interrupted → staged = tx.staged) →
      Closes a interrupted reply w ((a.cancel staged).miss !interrupted)
  | committed (tx : Transaction) (written : Nat) : reply = .granted →
      Closes a interrupted reply (.committing tx written) (a.commit tx)
  | refused (tx : Transaction) (written : Nat) (cause : Cause) : reply = .failed cause →
      Closes a interrupted reply (.committing tx written) (a.miss true)

/-- The end of a write is no call. -/
theorem Closes.calls {a a' : Account} {interrupted : Bool} {reply : Reply} {w : EpochWrite}
    (h : w.Closes a interrupted reply a') : a'.calls = a.calls := by
  cases h <;> simp

/-- How a write goes on: the reply was granted, the token is not cancelled, and one more call is made. -/
structure Advances (token : Token) (epoch : Epoch) (sh : Shared) (reply : Reply) (w : EpochWrite) (sh' : Shared)
    (w' : EpochWrite) : Prop where
  granted : reply = .granted
  running : sh.isCancelled token = false
  begun : w' ≠ .beginning
  account : sh'.account = (w.granted sh.account).ask (w'.waitsFor env token epoch).call?

theorem fail_account (sh : Shared) (error : EpochError) :
    (fail sh error).1.account = sh.account.miss (decide (error.stage ≠ .cancelled)) := by
  simp only [fail]
  by_cases h : error.stage = .cancelled
  · simp [h]
  · simp only [h, if_false, ne_eq, not_false_eq_true, decide_true]
    rfl

theorem abort_account (sh : Shared) (tx : Transaction) (error : EpochError) :
    (abort sh tx error).1.account = (sh.account.cancel tx.staged).miss (decide (error.stage ≠ .cancelled)) := by
  rw [abort, fail_account, Shared.account_cancelTx]

/-- A turn of an open write either makes the next call or disposes of the transaction. -/
theorem resume_course (token : Token) (epoch : Epoch) (sh : Shared) (w : EpochWrite) (reply : Reply) :
    Yields (w.resume env token epoch sh reply) (fun sh' w' => w.Advances env token epoch sh reply sh' w')
      (fun sh' _ => w.Closes sh.account (sh.isCancelled token) reply sh'.account) := by
  cases hc : sh.isCancelled token with
  | true =>
    -- Of the four waits only the commit is not interrupted.
    cases w with
    | beginning =>
      simp only [resume, hc, if_true]
      show Closes _ _ _ _ (fail sh (.cancelled epoch)).1.account
      rw [fail_account]
      exact .unbegun
    | staging s =>
      simp only [resume, hc, if_true]
      show Closes _ _ _ _ (abort sh s.tx (.cancelled epoch)).1.account
      rw [abort_account]
      exact .cancelled _ s.tx _ rfl fun _ => rfl
    | recording tx written =>
      simp only [resume, hc, if_true]
      show Closes _ _ _ _ (abort sh tx (.cancelled epoch)).1.account
      rw [abort_account]
      exact .cancelled _ tx _ rfl fun _ => rfl
    | committing tx written =>
      cases reply with
      | granted => exact .committed tx written rfl
      | failed cause => exact .refused tx written cause rfl
  | false =>
    cases w with
    | beginning =>
      simp only [resume, hc, Bool.false_eq_true, if_false]
      cases reply with
      | granted => exact ⟨rfl, hc, by simp, Shared.account_make sh.beginTx _⟩
      | failed cause => exact .unbegun
    | staging s =>
      simp only [resume, hc, Bool.false_eq_true, if_false]
      refine (yields_andThen ..).2 ((Staging.resume_course env epoch sh s reply).mono ?_ ?_)
      · intro sh' s' hs
        exact ⟨hs.1, hc, by simp, hs.2⟩
      · intro sh' r hr
        obtain ⟨tx, cause | written⟩ := r
        · show Closes _ _ _ _ (abort sh' tx ⟨epoch, .fetch, cause⟩).1.account
          rw [abort_account, hr.1]
          exact .cancelled _ s.tx _ rfl fun h => absurd h Bool.false_ne_true
        · rw [hr.1]
          exact ⟨hr.2 rfl, hc, by simp, Shared.account_make sh _⟩
    | recording tx written =>
      simp only [resume, hc, Bool.false_eq_true, if_false]
      cases reply with
      | granted => exact ⟨rfl, hc, by simp, Shared.account_make sh _⟩
      | failed cause =>
        show Closes _ _ _ _ (abort sh tx ⟨epoch, .setMetadata, cause⟩).1.account
        rw [abort_account]
        exact .cancelled _ tx _ rfl fun h => absurd h Bool.false_ne_true
    | committing tx written =>
      cases reply with
      | granted => exact .committed tx written rfl
      | failed cause => exact .refused tx written cause rfl

end EpochWrite

end CommitteeSync
