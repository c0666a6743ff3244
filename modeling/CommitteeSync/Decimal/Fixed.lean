/-
  CommitteeSync.Decimal.Fixed — a number with two places after the point.

  The places come from the number's exact value; a half goes to the even neighbour.
-/

import CommitteeSync.Decimal.Rounding

namespace CommitteeSync.Decimal

/-- `hundredths / 100` in digits. -/
def renderHundredths (hundredths : Nat) : String :=
  let cents := hundredths % 100
  toString (hundredths / 100) ++ "." ++ (if cents < 10 then "0" else "") ++ toString cents

/-- The non-negative number `mantissa * 2 ^ exponent` with two places. -/
def renderBinary (mantissa : Nat) (exponent : Int) : String :=
  if exponent < 0 then renderHundredths (roundQuotient (mantissa * 100) (1 <<< (-exponent).toNat))
  else renderHundredths ((mantissa * 100) <<< exponent.toNat)

/-- A finite non-negative double with two places. -/
def renderDouble (x : Float) : String :=
  let bits := x.toBits.toNat
  let fraction : Nat := bits % 1 <<< 52
  let scale : Nat := bits >>> 52 % 1 <<< 11
  if scale = 0 then renderBinary fraction (-1074) else renderBinary (1 <<< 52 + fraction) (Int.ofNat scale - 1075)

end CommitteeSync.Decimal
