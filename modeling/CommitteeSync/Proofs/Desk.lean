/-
  CommitteeSync.Proofs.Desk — what the handling of a head event works on.

  The handling of an event reads and writes the store, what the chain serves, the counters,
  the gates, the tokens and the notes of calls: its desk. The head streams, the log, the
  metrics and the background run are beside it.

  Proved: from two states with one desk, the turns of the same handling leave one desk and
  come to the same (`HeadUpdate.start_alike`, `HeadUpdate.resume_alike`). So it makes no
  difference in whose hands an event is.
-/

import CommitteeSync.Proofs.Alike

namespace CommitteeSync

open Turn

variable (env : Setup)

structure Desk where
  store : Store
  chain : Slot → List Assignment
  telemetry : Telemetry
  serviceGate : Gate
  partsGate : Gate
  tokens : Tokens
  trace : Array Mark

namespace Shared

def desk (sh : Shared) : Desk :=
  ⟨sh.store, sh.chain, sh.telemetry, sh.serviceGate, sh.partsGate, sh.tokens, sh.trace⟩

/-- What has been done so far: the calls made, what is stored and what was counted. -/
def dealings (sh : Shared) : Array Mark × Store × Telemetry := (sh.trace, sh.store, sh.telemetry)

variable {sh sh' : Shared}

theorem dealings_of_desk (h : sh'.desk = sh.desk) : sh'.dealings = sh.dealings :=
  congrArg (fun d : Desk => (d.trace, d.store, d.telemetry)) h

theorem gate_of_desk (h : sh'.desk = sh.desk) (g : Guard) : sh'.gate g = sh.gate g := by
  cases g
  · exact congrArg Desk.serviceGate h
  · exact congrArg Desk.partsGate h

theorem desk_log (h : sh'.desk = sh.desk) (e : Event) : (sh'.log e).desk = (sh.log e).desk := h

/-- A stream is beside the desk. -/
theorem desk_updateFeed (h : sh'.desk = sh.desk) (feed : Nat) (f : Feed → Feed) : sh'.desk = (sh.updateFeed feed f).desk := h

theorem desk_mark (h : sh'.desk = sh.desk) (m : Mark) : (sh'.mark m).desk = (sh.mark m).desk :=
  congrArg (fun d : Desk => { d with trace := d.trace.push m }) h

theorem desk_count (h : sh'.desk = sh.desk) (s : Telemetry.Step) : (sh'.count s).desk = (sh.count s).desk :=
  congrArg (fun d : Desk => { d with telemetry := d.telemetry.apply s }) h

theorem desk_beginTx (h : sh'.desk = sh.desk) : sh'.beginTx.desk = sh.beginTx.desk :=
  congrArg (fun d : Desk => { d with store := d.store.begin }) h

theorem desk_commitTx (h : sh'.desk = sh.desk) (tx : Transaction) : (sh'.commitTx tx).desk = (sh.commitTx tx).desk :=
  congrArg (fun d : Desk => { d with store := d.store.commit tx }) h

theorem desk_cancelTx (h : sh'.desk = sh.desk) (tx : Transaction) : (sh'.cancelTx tx).desk = (sh.cancelTx tx).desk :=
  congrArg (fun d : Desk => { d with store := d.store.cancel, trace := d.trace.push (.cancelTx tx.staged) }) h

theorem desk_setGate (h : sh'.desk = sh.desk) (g : Guard) (gate : Gate) :
    (sh'.setGate g gate).desk = (sh.setGate g gate).desk := by
  cases g
  · exact congrArg (fun d : Desk => { d with serviceGate := gate }) h
  · exact congrArg (fun d : Desk => { d with partsGate := gate }) h

theorem desk_exit (h : sh'.desk = sh.desk) (g : Guard) : (sh'.exit g).desk = (sh.exit g).desk := by
  rw [exit, exit, gate_of_desk h]
  exact desk_setGate h g _

theorem desk_enter (h : sh'.desk = sh.desk) (g : Guard) (denial : Event) :
    (sh'.enter g denial).1.desk = (sh.enter g denial).1.desk ∧ (sh'.enter g denial).2 = (sh.enter g denial).2 := by
  simp only [enter, gate_of_desk h]
  split
  · exact ⟨desk_setGate h g _, rfl⟩
  · exact ⟨desk_count h .guardDenial, rfl⟩

theorem readRecord_of_desk (h : sh'.desk = sh.desk) (reply : Reply) :
    sh'.readRecord env reply = sh.readRecord env reply := by
  have hstore : sh'.store = sh.store := congrArg Desk.store h
  cases reply with
  | granted => rw [readRecord, readRecord, hstore]
  | failed cause => rfl

end Shared

theorem Shared.sees_desk : Shared.Sees Shared.desk where
  chain h := congrArg Desk.chain h
  tokens h := congrArg Desk.tokens h
  make h call := desk_mark h (.call call)
  log h event := desk_log h event
  count h step := desk_count h step
  beginTx h := desk_beginTx h
  commitTx h tx := desk_commitTx h tx
  cancelTx h tx := desk_cancelTx h tx

/-! ## One event -/

namespace HeadUpdate

open Shared

variable {sh sh' : Shared}

theorem start_alike (h : sh'.desk = sh.desk) (event : HeadEvent) : Alike Shared.desk (start env event sh) (start env event sh') := by
  have hc := Shared.desk_count h .headEvent
  simp only [start]
  split
  · exact ⟨Shared.desk_mark hc _, rfl⟩
  · exact ⟨hc, rfl⟩

theorem finishDirect_alike (h : sh'.desk = sh.desk) (epoch : Epoch) (r : EpochWrite.Result) :
    Alike Shared.desk (finishDirect epoch sh r) (finishDirect epoch sh' r) := by
  cases r <;> exact ⟨h, rfl⟩

theorem finishFilling_alike (h : sh'.desk = sh.desk) (guard : Guard) (epoch : Epoch) (report : Report) :
    Alike Shared.desk (finishFilling guard epoch sh report) (finishFilling guard epoch sh' report) :=
  ⟨Shared.desk_exit h guard, rfl⟩

theorem fill_alike (h : sh'.desk = sh.desk) (guard : Guard) (token : Token) (resume epoch : Epoch) :
    Alike Shared.desk (fill guard token resume epoch sh) (fill guard token resume epoch sh') := by
  obtain ⟨hdesk, hadmitted⟩ := Shared.desk_enter h guard (.headDeferred resume epoch)
  rcases he : sh.enter guard (.headDeferred resume epoch) with ⟨sh₁, admitted⟩
  rcases he' : sh'.enter guard (.headDeferred resume epoch) with ⟨sh₁', admitted'⟩
  rw [he, he'] at hdesk hadmitted
  cases hadmitted
  simp only [fill, he, he']
  cases admitted with
  | false => exact ⟨hdesk, rfl⟩
  | true =>
    exact (Pass.start_alike sees_desk (Shared.desk_log hdesk _) token resume epoch).andThen _
      fun _ _ r h => finishFilling_alike h guard epoch r

theorem dispatch_alike (h : sh'.desk = sh.desk) (guard : Guard) (token : Token) (epoch : Epoch) (r : Except Cause Record) :
    Alike Shared.desk (dispatch guard token epoch sh r) (dispatch guard token epoch sh' r) := by
  cases r with
  | error cause => exact ⟨Shared.desk_count (Shared.desk_log h _) .epochFailure, rfl⟩
  | ok record =>
    simp only [dispatch]
    split
    · exact ⟨h, rfl⟩
    · split
      · exact fill_alike h guard token _ epoch
      · exact (EpochWrite.start_alike sees_desk h token epoch).andThen _ fun _ _ r h => finishDirect_alike h epoch r

theorem resume_alike (h : sh'.desk = sh.desk) (guard : Guard) (token : Token) (u : HeadUpdate) (reply : Reply) :
    Alike Shared.desk (u.resume env guard token sh reply) (u.resume env guard token sh' reply) := by
  cases u with
  | reading epoch =>
    rw [resume, resume, Shared.readRecord_of_desk env h]
    exact dispatch_alike h guard token epoch _
  | direct epoch write =>
    exact (EpochWrite.resume_alike env sees_desk h token epoch write reply).andThen _ fun _ _ r h => finishDirect_alike h epoch r
  | filling epoch pass =>
    exact (Pass.resume_alike env sees_desk h token pass reply).andThen _ fun _ _ r h => finishFilling_alike h guard epoch r

end HeadUpdate

end CommitteeSync
