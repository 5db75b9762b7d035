import SyncCascade.Timespan
import SyncCascade.Timestamp

/-!
# Clocks

Rows carry civil time. Brokers and workers measure time by a clock that only moves forward, in
nanoseconds since it started; its readings are numbers without a bound.
-/

namespace SyncCascade

structure Clock where
  wall : Timestamp
  elapsed : Nat
deriving DecidableEq, Repr, Inhabited

namespace Clock

def advance (c : Clock) (t : Timespan) : Clock := { c with elapsed := c.elapsed + t.nanos }

end Clock

end SyncCascade
