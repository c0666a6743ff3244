/-
  CommitteeSync.Progress.Json — reading JSON bytes from the left.

  Every reader takes the bytes that are left and gives the bytes after what it read, or the
  first flaw: the bytes ended inside a value (`truncated`), broke the grammar (`malformed`),
  or were good JSON of the wrong type (`mismatched`).

  A value whose content does not matter is only skipped (`skipValue`): its numbers may have
  any size, and its strings may hold any bytes but raw controls, with any four hex digits
  after an escaped `u`. A string whose content matters is unescaped and has to be UTF-8, with
  surrogate escapes in pairs (`readText`). A number whose value matters is a word if it is a
  plain run of digits that fits; any other number is of the wrong type, unless it is too
  large even for a double (`readWord`).
-/

import CommitteeSync.Decimal.Rounding
import CommitteeSync.Store.Basic

namespace CommitteeSync

/-- The first thing wrong with bytes that should be a JSON value. -/
inductive Flaw where
  | truncated
  | malformed
  | mismatched
  deriving DecidableEq, Repr

namespace Json

/-! ## Bytes -/

def quoteByte : UInt8 := 0x22
def backslash : UInt8 := 0x5C
def comma : UInt8 := 0x2C
def colon : UInt8 := 0x3A
def openBrace : UInt8 := 0x7B
def closeBrace : UInt8 := 0x7D
def openBracket : UInt8 := 0x5B
def closeBracket : UInt8 := 0x5D
def minus : UInt8 := 0x2D
def plus : UInt8 := 0x2B
def point : UInt8 := 0x2E
def letterU : UInt8 := 0x75

def isSpace (b : UInt8) : Bool := b == 0x20 || b == 0x09 || b == 0x0A || b == 0x0D

def isDigit (b : UInt8) : Bool := 0x30 ≤ b && b ≤ 0x39

def isExponentMark (b : UInt8) : Bool := b == 0x65 || b == 0x45

def digitValue (b : UInt8) : Nat := b.toNat - 0x30

/-- The value of a hexadecimal digit. -/
def hexValue? (b : UInt8) : Option Nat :=
  if isDigit b then some (digitValue b)
  else if 0x61 ≤ b && b ≤ 0x66 then some (b.toNat - 0x61 + 10)
  else if 0x41 ≤ b && b ≤ 0x46 then some (b.toNat - 0x41 + 10)
  else none

def skipSpace (bs : Bytes) : Bytes := bs.dropWhile isSpace

def startsWith (p : UInt8 → Bool) : Bytes → Bool
  | [] => false
  | b :: _ => p b

/-- The rest of a word whose first byte has been read. -/
def expect : Bytes → Bytes → Except Flaw Bytes
  | [], bs => .ok bs
  | _ :: _, [] => .error .truncated
  | w :: ws, b :: bs => if b = w then expect ws bs else .error .malformed

def ull : Bytes := [0x75, 0x6C, 0x6C]
def rue : Bytes := [0x72, 0x75, 0x65]
def alse : Bytes := [0x61, 0x6C, 0x73, 0x65]

/-! ## Numbers that are skipped -/

def skipExponentDigits : Bytes → Except Flaw Bytes
  | [] => .error .malformed
  | b :: bs => if isDigit b then .ok (bs.dropWhile isDigit) else .error .malformed

/-- After the mark of an exponent. -/
def skipExponent : Bytes → Except Flaw Bytes
  | [] => .error .malformed
  | b :: bs => if b = plus || b = minus then skipExponentDigits bs else skipExponentDigits (b :: bs)

def skipExponentPart : Bytes → Except Flaw Bytes
  | [] => .ok []
  | b :: bs => if isExponentMark b then skipExponent bs else .ok (b :: bs)

/-- After the digits before a point. -/
def skipFraction : Bytes → Except Flaw Bytes
  | [] => .ok []
  | b :: bs =>
    if b = point then
      if startsWith isDigit bs then skipExponentPart (bs.dropWhile isDigit) else .error .malformed
    else skipExponentPart (b :: bs)

/-- A number after its sign; a zero in front stands alone. -/
def skipNumber : Bytes → Except Flaw Bytes
  | [] => .error .malformed
  | b :: bs =>
    if b = 0x30 then if startsWith isDigit bs then .error .malformed else skipFraction bs
    else if isDigit b then skipFraction (bs.dropWhile isDigit)
    else .error .malformed

/-! ## Strings that are skipped -/

/-- The letters that stand after a backslash for one character. -/
def simpleEscape? (b : UInt8) : Option UInt8 :=
  if b = quoteByte || b = backslash || b = 0x2F then some b
  else if b = 0x62 then some 0x08
  else if b = 0x66 then some 0x0C
  else if b = 0x6E then some 0x0A
  else if b = 0x72 then some 0x0D
  else if b = 0x74 then some 0x09
  else none

/-- Four hex digits, most significant first. -/
def hex4? (a b c d : UInt8) : Option Nat :=
  match hexValue? a, hexValue? b, hexValue? c, hexValue? d with
  | some a, some b, some c, some d => some (((a * 16 + b) * 16 + c) * 16 + d)
  | _, _, _, _ => none

/-- A string after its opening quote. -/
def skipString : Bytes → Except Flaw Bytes
  | [] => .error .truncated
  | [b] => if b = quoteByte then .ok [] else if b < 0x20 then .error .malformed else .error .truncated
  | b :: e :: bs =>
    if b = quoteByte then .ok (e :: bs)
    else if b = backslash then
      if e = letterU then
        match bs with
        | h1 :: h2 :: h3 :: h4 :: rest =>
          if (hex4? h1 h2 h3 h4).isSome then skipString rest else .error .malformed
        | _ => .error .truncated
      else if (simpleEscape? e).isSome then skipString bs
      else .error .malformed
    else if b < 0x20 then .error .malformed
    else skipString (e :: bs)

/-! ## Values that are skipped -/

mutual

/-- Skips one value; `fuel` bounds the nesting and the number of items. -/
def skipValueWithin (fuel : Nat) (bs : Bytes) : Except Flaw Bytes :=
  match fuel with
  | 0 => .error .truncated
  | fuel + 1 =>
    match skipSpace bs with
    | [] => .error .truncated
    | b :: rest =>
      if b = 0x6E then expect ull rest
      else if b = 0x74 then expect rue rest
      else if b = 0x66 then expect alse rest
      else if b = minus then skipNumber rest
      else if isDigit b then skipNumber (b :: rest)
      else if b = quoteByte then skipString rest
      else if b = openBracket then
        match skipSpace rest with
        | [] => .error .truncated
        | c :: after => if c = closeBracket then .ok after else skipItemsWithin fuel (c :: after)
      else if b = openBrace then
        match skipSpace rest with
        | [] => .error .truncated
        | c :: after => if c = closeBrace then .ok after else skipMembersWithin fuel (c :: after)
      else .error .malformed

/-- Skips the items of an array from the first one that is left to the closing bracket. -/
def skipItemsWithin (fuel : Nat) (bs : Bytes) : Except Flaw Bytes :=
  match fuel with
  | 0 => .error .truncated
  | fuel + 1 =>
    match skipValueWithin fuel bs with
    | .error e => .error e
    | .ok rest =>
      match skipSpace rest with
      | [] => .error .truncated
      | b :: after =>
        if b = comma then skipItemsWithin fuel after
        else if b = closeBracket then .ok after
        else .error .malformed

/-- Skips the members of an object from the first one that is left to the closing brace. -/
def skipMembersWithin (fuel : Nat) (bs : Bytes) : Except Flaw Bytes :=
  match fuel with
  | 0 => .error .truncated
  | fuel + 1 =>
    match skipSpace bs with
    | [] => .error .truncated
    | b :: afterQuote =>
      if b = quoteByte then
        match skipString afterQuote with
        | .error e => .error e
        | .ok afterKey =>
          match skipSpace afterKey with
          | [] => .error .truncated
          | c :: afterColon =>
            if c = colon then
              match skipValueWithin fuel afterColon with
              | .error e => .error e
              | .ok rest =>
                match skipSpace rest with
                | [] => .error .truncated
                | d :: after =>
                  if d = comma then skipMembersWithin fuel after
                  else if d = closeBrace then .ok after
                  else .error .malformed
            else .error .malformed
      else .error .malformed

end

/-- Skips one value. Two steps of the readers above take at least one byte, which bounds them. -/
def skipValue (bs : Bytes) : Except Flaw Bytes := skipValueWithin (2 * bs.length + 2) bs

/-! ## Text that matters -/

/-- The UTF-8 bytes of a code point. -/
def utf8Bytes (n : Nat) : Bytes :=
  if n < 0x80 then [UInt8.ofNat n]
  else if n < 0x800 then [UInt8.ofNat (0xC0 + n / 64), UInt8.ofNat (0x80 + n % 64)]
  else if n < 0x10000 then
    [UInt8.ofNat (0xE0 + n / 4096), UInt8.ofNat (0x80 + n / 64 % 64), UInt8.ofNat (0x80 + n % 64)]
  else
    [UInt8.ofNat (0xF0 + n / 262144), UInt8.ofNat (0x80 + n / 4096 % 64), UInt8.ofNat (0x80 + n / 64 % 64),
      UInt8.ofNat (0x80 + n % 64)]

def isContinuation (b : UInt8) : Bool := 0x80 ≤ b && b ≤ 0xBF

/-- Whether bytes are UTF-8: shortest forms only, no surrogates, nothing past the last code point. -/
def isUtf8 : Bytes → Bool
  | [] => true
  | [a] => a < 0x80
  | [a, b] =>
    if a < 0x80 then b < 0x80 else 0xC2 ≤ a && a ≤ 0xDF && isContinuation b
  | a :: b :: c :: rest =>
    if a < 0x80 then isUtf8 (b :: c :: rest)
    else if 0xC2 ≤ a && a ≤ 0xDF then isContinuation b && isUtf8 (c :: rest)
    else if 0xE0 ≤ a && a ≤ 0xEF then
      isContinuation b && isContinuation c && (a != 0xE0 || 0xA0 ≤ b) && (a != 0xED || b ≤ 0x9F) && isUtf8 rest
    else if 0xF0 ≤ a && a ≤ 0xF4 then
      match rest with
      | [] => false
      | d :: rest =>
        isContinuation b && isContinuation c && isContinuation d && (a != 0xF0 || 0x90 ≤ b) &&
          (a != 0xF4 || b ≤ 0x8F) && isUtf8 rest
    else false

def isLeading (n : Nat) : Bool := 0xD800 ≤ n && n ≤ 0xDBFF

def isTrailing (n : Nat) : Bool := 0xDC00 ≤ n && n ≤ 0xDFFF

/-- The code point of a pair of surrogates. -/
def pairValue (leading trailing : Nat) : Nat := (leading - 0xD800) * 1024 + (trailing - 0xDC00) + 0x10000

/-- The second half of a pair after its first half. -/
def readTrailing : Bytes → Except Flaw (Nat × Bytes)
  | [] => .error .truncated
  | b :: bs =>
    if b = backslash then
      match bs with
      | [] => .error .truncated
      | u :: bs =>
        if u = letterU then
          match bs with
          | h1 :: h2 :: h3 :: h4 :: rest =>
            match hex4? h1 h2 h3 h4 with
            | some n => if isTrailing n then .ok (n, rest) else .error .malformed
            | none => .error .malformed
          | _ => .error .truncated
        else .error .malformed
    else .error .malformed

/-- An escape after its backslash: the bytes it stands for, and what is left. -/
def readEscape : Bytes → Except Flaw (Bytes × Bytes)
  | [] => .error .truncated
  | e :: bs =>
    if e = letterU then
      match bs with
      | h1 :: h2 :: h3 :: h4 :: rest =>
        match hex4? h1 h2 h3 h4 with
        | none => .error .malformed
        | some n =>
          if isTrailing n then .error .malformed
          else if isLeading n then
            match readTrailing rest with
            | .error flaw => .error flaw
            | .ok (m, rest) => .ok (utf8Bytes (pairValue n m), rest)
          else .ok (utf8Bytes n, rest)
      | _ => .error .truncated
    else
      match simpleEscape? e with
      | some c => .ok ([c], bs)
      | none => .error .malformed

/-- A string after its opening quote, unescaped; every step takes a byte, which bounds it. -/
def readStringWithin : Nat → Bytes → Except Flaw (Bytes × Bytes)
  | 0, _ => .error .truncated
  | _ + 1, [] => .error .truncated
  | fuel + 1, b :: bs =>
    if b = quoteByte then .ok ([], bs)
    else if b = backslash then
      match readEscape bs with
      | .error flaw => .error flaw
      | .ok (content, rest) =>
        match readStringWithin fuel rest with
        | .error flaw => .error flaw
        | .ok (more, rest) => .ok (content ++ more, rest)
    else if b < 0x20 then .error .malformed
    else
      match readStringWithin fuel bs with
      | .error flaw => .error flaw
      | .ok (more, rest) => .ok (b :: more, rest)

/-- A string after its opening quote; its content has to be UTF-8 when it ends. -/
def readText (bs : Bytes) : Except Flaw (Bytes × Bytes) :=
  match readStringWithin (bs.length + 1) bs with
  | .error flaw => .error flaw
  | .ok (content, rest) => if isUtf8 content then .ok (content, rest) else .error .malformed

/-! ## Numbers that matter -/

/-- Continues a number with digits as long as it stays within `limit`. -/
def digitsUpTo (limit : Nat) : Nat → Bytes → Nat × Bytes
  | acc, [] => (acc, [])
  | acc, b :: bs =>
    if isDigit b && acc * 10 + digitValue b ≤ limit then digitsUpTo limit (acc * 10 + digitValue b) bs
    else (acc, b :: bs)

def wordLimit : Nat := 1 <<< 64 - 1

/-- The largest exponent that is read digit by digit. -/
def exponentLimit : Nat := 1 <<< 31 - 1

/-- What a number that is no word is: too large for a double, or of the wrong type. -/
def fractionalFlaw (digits : Nat) (exponent : Int) : Flaw :=
  if Decimal.overflowsDouble digits exponent then .malformed else .mismatched

/-- After the sign of an exponent. -/
def exponentFlaw (digits : Nat) (exponent : Int) (negative : Bool) : Bytes → Flaw
  | [] => .truncated
  | b :: bs =>
    if isDigit b then
      let (n, rest) := digitsUpTo exponentLimit (digitValue b) bs
      if startsWith isDigit rest then
        if digits != 0 && !negative then .malformed else .mismatched
      else fractionalFlaw digits (if negative then exponent - n else exponent + n)
    else .malformed

/-- After the mark of an exponent. -/
def signedExponentFlaw (digits : Nat) (exponent : Int) : Bytes → Flaw
  | [] => .truncated
  | b :: bs =>
    if b = plus then exponentFlaw digits exponent false bs
    else if b = minus then exponentFlaw digits exponent true bs
    else exponentFlaw digits exponent false (b :: bs)

/-- After the digits of a number that is no word. -/
def exponentPartFlaw (digits : Nat) (exponent : Int) : Bytes → Flaw
  | [] => fractionalFlaw digits exponent
  | b :: bs => if isExponentMark b then signedExponentFlaw digits exponent bs else fractionalFlaw digits exponent

/-- After a decimal point. Digits that no longer fit a word are left out. -/
def fractionFlaw (digits : Nat) (exponent : Int) (bs : Bytes) : Flaw :=
  let (n, rest) := digitsUpTo wordLimit digits bs
  let places := bs.length - rest.length
  if startsWith isDigit rest then exponentPartFlaw n (exponent - places) (rest.dropWhile isDigit)
  else if places = 0 then
    match rest with
    | [] => .truncated
    | _ :: _ => .malformed
  else exponentPartFlaw n (exponent - places) rest

/-- After the digits of a number that no longer fits a word. -/
def longNumberFlaw (digits : Nat) (exponent : Int) : Bytes → Flaw
  | [] => fractionalFlaw digits exponent
  | b :: bs =>
    if b = point then fractionFlaw digits exponent bs else exponentPartFlaw digits exponent (b :: bs)

/-- After the digits of a number that fits a word so far. -/
def finishNumber (digits : Nat) : Bytes → Except Flaw (Nat × Bytes)
  | [] => .ok (digits, [])
  | b :: bs =>
    if b = point then .error (fractionFlaw digits 0 bs)
    else if isExponentMark b then .error (signedExponentFlaw digits 0 bs)
    else .ok (digits, b :: bs)

/-- A number without its sign. -/
def readDigits : Bytes → Except Flaw (Nat × Bytes)
  | [] => .error .truncated
  | b :: bs =>
    if b = 0x30 then if startsWith isDigit bs then .error .malformed else finishNumber 0 bs
    else if isDigit b then
      let (n, rest) := digitsUpTo wordLimit (digitValue b) bs
      if startsWith isDigit rest then
        .error (longNumberFlaw n (rest.takeWhile isDigit).length (rest.dropWhile isDigit))
      else finishNumber n rest
    else .error .malformed

/-- The flaw of a number with a minus sign, which is never a word. -/
def negativeFlaw (bs : Bytes) : Flaw :=
  match readDigits bs with
  | .error flaw => flaw
  | .ok _ => .mismatched

/-- The flaw of a value of the wrong type, given its first byte. A scalar is read to its end first. -/
def typeFlaw (b : UInt8) (bs : Bytes) : Flaw :=
  let after : Except Flaw Unit :=
    if b = 0x6E then (expect ull bs).map fun _ => ()
    else if b = 0x74 then (expect rue bs).map fun _ => ()
    else if b = 0x66 then (expect alse bs).map fun _ => ()
    else if b = minus then .error (negativeFlaw bs)
    else if isDigit b then (readDigits (b :: bs)).map fun _ => ()
    else if b = quoteByte then (readText bs).map fun _ => ()
    else if b = openBracket || b = openBrace then .ok ()
    else .error .malformed
  match after with
  | .error flaw => flaw
  | .ok () => .mismatched

/-- A value that has to be a word. -/
def readWord (bs : Bytes) : Except Flaw (Nat × Bytes) :=
  match skipSpace bs with
  | [] => .error .truncated
  | b :: rest => if isDigit b then readDigits (b :: rest) else .error (typeFlaw b rest)

end Json

end CommitteeSync
