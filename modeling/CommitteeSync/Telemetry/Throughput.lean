/-
  CommitteeSync.Telemetry.Throughput — epochs per second, with two places.
-/

import CommitteeSync.Decimal.Fixed

namespace CommitteeSync.Throughput

/-- A span in seconds. -/
def seconds (nanos : Nat) : Float := (nanos / 1000000000).toFloat + (nanos % 1000000000).toFloat / 1000000000.0

/-- The least span that counts as time at all: the gap between one and the next double. -/
def resolution : Float := Float.ofBits 0x3CB0000000000000

/-- `count` in `nanos`; no time at all means no throughput. -/
def render (count nanos : Nat) : String :=
  let elapsed := seconds nanos
  if elapsed ≤ resolution then "0.00" else Decimal.renderDouble (count.toFloat / elapsed)

end CommitteeSync.Throughput
