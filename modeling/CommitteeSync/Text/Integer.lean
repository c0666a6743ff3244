/-
  CommitteeSync.Text.Integer — reading decimal integers that have to fit a 64-bit word.

  The text is read from the left: at each character the digit check comes before the range
  check, so whichever fails first is the answer. A sign alone is no number.
-/

namespace CommitteeSync.Text

/-- Why a text is not an integer of the wanted range. -/
inductive IntegerError where
  | empty
  | invalidDigit
  | tooLarge
  | tooSmall
  deriving DecidableEq, Repr

def IntegerError.message : IntegerError → String
  | .empty => "cannot parse integer from empty string"
  | .invalidDigit => "invalid digit found in string"
  | .tooLarge => "number too large to fit in target type"
  | .tooSmall => "number too small to fit in target type"

def isDigit (c : Char) : Bool := 0x30 ≤ c.toNat && c.toNat ≤ 0x39

/-- The value of a run of digits continued from `acc`; `overflow` when it passes `limit`. -/
def readDigits (limit : Nat) (overflow : IntegerError) : Nat → List Char → Except IntegerError Nat
  | acc, [] => .ok acc
  | acc, c :: cs =>
    if isDigit c then
      let n := acc * 10 + (c.toNat - 0x30)
      if limit < n then .error overflow else readDigits limit overflow n cs
    else .error .invalidDigit

/-- A number without sign or with `+`, at most 2^64 - 1. -/
def readUnsigned : List Char → Except IntegerError Nat
  | [] => .error .empty
  | '+' :: c :: cs => readDigits (1 <<< 64 - 1) .tooLarge 0 (c :: cs)
  | cs => readDigits (1 <<< 64 - 1) .tooLarge 0 cs

/-- A number with an optional sign, from -2^63 to 2^63 - 1. -/
def readSigned : List Char → Except IntegerError Int
  | [] => .error .empty
  | '+' :: c :: cs => (readDigits (1 <<< 63 - 1) .tooLarge 0 (c :: cs)).map Int.ofNat
  | '-' :: c :: cs => (readDigits (1 <<< 63) .tooSmall 0 (c :: cs)).map fun n => -(Int.ofNat n)
  | cs => (readDigits (1 <<< 63 - 1) .tooLarge 0 cs).map Int.ofNat

end CommitteeSync.Text
