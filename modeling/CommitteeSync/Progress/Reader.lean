/-
  CommitteeSync.Progress.Reader — the stored bytes of a record.

  A record is an object with the record's field once, among any other members, or an array
  of exactly its one value; spaces may stand around it and nothing else. The bytes are read
  from the left and the first flaw is the answer: a second record field is noticed when its
  key has been read, a missing one when the object closes, and what follows the value comes
  last.
-/

import CommitteeSync.Progress.Json
import CommitteeSync.Progress.Record

namespace CommitteeSync.Record

open Json

/-- A key and the value after it: the record's value if it is the record's field. -/
def readMember (seen : Bool) (bs : Bytes) : Except Flaw (Option Nat × Bytes) :=
  match readText bs with
  | .error flaw => .error flaw
  | .ok (key, rest) =>
    let isField := key = asciiBytes fieldName
    if isField && seen then .error .mismatched
    else
      match skipSpace rest with
      | [] => .error .truncated
      | c :: rest =>
        if c = colon then
          if isField then (readWord rest).map fun (n, rest) => (some n, rest)
          else (skipValue rest).map fun rest => (none, rest)
        else .error .malformed

/-- The object closes: the field must have been seen. -/
def closeObject (found : Option Nat) (rest : Bytes) : Except Flaw (Nat × Bytes) :=
  match found with
  | some n => .ok (n, rest)
  | none => .error .mismatched

/-- The members from one whose opening quote has been read to the closing brace; each takes a byte. -/
def readMembersWithin : Nat → Option Nat → Bytes → Except Flaw (Nat × Bytes)
  | 0, _, _ => .error .truncated
  | fuel + 1, found, bs =>
    match readMember found.isSome bs with
    | .error flaw => .error flaw
    | .ok (value, rest) =>
      let found := found.or value
      match skipSpace rest with
      | [] => .error .truncated
      | b :: rest =>
        if b = closeBrace then closeObject found rest
        else if b = comma then
          match skipSpace rest with
          | [] => .error .truncated
          | q :: rest => if q = quoteByte then readMembersWithin fuel found rest else .error .malformed
        else .error .malformed

/-- After the opening brace. -/
def readObject (bs : Bytes) : Except Flaw (Nat × Bytes) :=
  match skipSpace bs with
  | [] => .error .truncated
  | b :: rest =>
    if b = closeBrace then closeObject none rest
    else if b = quoteByte then readMembersWithin (rest.length + 1) none rest
    else .error .malformed

/-- After the opening bracket. -/
def readArray (bs : Bytes) : Except Flaw (Nat × Bytes) :=
  match skipSpace bs with
  | [] => .error .truncated
  | b :: rest =>
    if b = closeBracket then .error .mismatched
    else
      match readWord (b :: rest) with
      | .error flaw => .error flaw
      | .ok (n, rest) =>
        match skipSpace rest with
        | [] => .error .truncated
        | c :: rest => if c = closeBracket then .ok (n, rest) else .error .malformed

def readValue (bs : Bytes) : Except Flaw (Nat × Bytes) :=
  match skipSpace bs with
  | [] => .error .truncated
  | b :: rest =>
    if b = openBrace then readObject rest
    else if b = openBracket then readArray rest
    else .error (typeFlaw b rest)

/-- The whole of the bytes is one record. -/
def read (bs : Bytes) : Except Flaw Record :=
  match readValue bs with
  | .error flaw => .error flaw
  | .ok (n, rest) => if (skipSpace rest).isEmpty then .ok ⟨UInt64.ofNat n⟩ else .error .malformed

/-- A store without a record has processed nothing. -/
def decode (stored : Option Bytes) : Except Flaw Record :=
  match stored with
  | none => .ok initial
  | some bs => read bs

end CommitteeSync.Record
