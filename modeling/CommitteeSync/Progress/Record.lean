/-
  CommitteeSync.Progress.Record — the durable record of the last epoch whose committees
  were committed, and where the next run starts.

  The record says only a number, and 0 is also what a store says that holds no record: so
  epoch 0 is processed again while the record holds it, and any other epoch is followed by
  the next one.
-/

import CommitteeSync.Store.Basic

namespace CommitteeSync

/-- Durable progress. -/
structure Record where
  latestEpoch : Epoch
  deriving DecidableEq, Repr

namespace Record

/-- What a store without a record stands for. -/
def initial : Record := ⟨0⟩

/-- The first epoch the next run should process; an override wins outright. -/
def resumePoint (r : Record) (override : Option Epoch) : Epoch :=
  match override with
  | some e => e
  | none => if r.latestEpoch = 0 then 0 else nextEpoch r.latestEpoch

/-- The bytes of an ASCII text. -/
def asciiBytes (cs : List Char) : Bytes := cs.map fun c => UInt8.ofNat c.toNat

/-- The name of the record's only field. -/
def fieldName : List Char := "latest_epoch".toList

/-- The written form, one object with one field. -/
def render (r : Record) : List Char :=
  "\x7b\"".toList ++ fieldName ++ "\":".toList ++ Nat.toDigits 10 r.latestEpoch.toNat ++ ['\x7d']

def encode (r : Record) : Bytes := asciiBytes r.render

end Record

end CommitteeSync
