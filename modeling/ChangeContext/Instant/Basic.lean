/-!
# Instants

A moment in time, to the nanosecond, counted from the first moment of 1970 in universal time;
earlier moments have a negative count of seconds.  The nanoseconds are counted forward from the
second.  A leap second is the second before it with nanoseconds from one thousand million up.
-/

set_option autoImplicit false

namespace ChangeContext

/-- A moment in time. -/
structure Instant where
  /-- Whole seconds since the beginning of 1970. -/
  seconds : Int
  /-- Nanoseconds after that second. -/
  nanos : Nat
deriving DecidableEq, Inhabited

namespace Instant

/-- Nanoseconds since the beginning of 1970. -/
def toNanos (t : Instant) : Int :=
  t.seconds * 1000000000 + t.nanos

/-- The order of time. -/
def le (t u : Instant) : Bool :=
  decide (t.seconds < u.seconds) || (t.seconds == u.seconds && t.nanos ≤ u.nanos)

/-- At `now`, at least `age` seconds have passed since `t`. -/
def hasAged (t now : Instant) (age : Nat) : Bool :=
  decide ((age : Int) * 1000000000 ≤ now.toNanos - t.toNanos)

end Instant

end ChangeContext
