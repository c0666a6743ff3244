/-
  CommitteeSync.Decimal.Rounding — rounding quotients, and the edge of double precision.

  `roundQuotient` is the nearest whole number to a quotient, a tie going to the even one.
  `significand53` rounds a whole number the same way to 53 significant bits, as a double
  holds it, and `overflowsDouble` says that a decimal read as the product of its two rounded
  factors, digits and power of ten, is past the largest double.
-/

namespace CommitteeSync.Decimal

/-- The whole number nearest to `n / d`; of two nearest ones the even one. -/
def roundQuotient (n d : Nat) : Nat :=
  let q := n / d
  let r := n % d
  if 2 * r < d then q
  else if d < 2 * r then q + 1
  else if q % 2 = 0 then q
  else q + 1

/-- `n` rounded to 53 significant bits. -/
def significand53 (n : Nat) : Nat :=
  let excess := n.log2 - 52
  roundQuotient n (1 <<< excess) <<< excess

/-- The least product that rounds past the largest double: half a step above it. -/
def doubleLimit : Nat := (1 <<< 54 - 1) <<< 970

/-- Whether `digits * 10 ^ exponent` is too large for a double. -/
def overflowsDouble (digits : Nat) (exponent : Int) : Bool :=
  if digits = 0 || exponent < 0 then false
  else if 308 < exponent then true
  else doubleLimit ≤ significand53 digits * significand53 (Nat.pow 10 exponent.toNat)

end CommitteeSync.Decimal
