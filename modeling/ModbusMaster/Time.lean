import ModbusMaster.Double

/-!
Time. Durations and instants are counted in nanoseconds; instants from the start of the clock on.
A number of seconds becomes the nearest whole number of nanoseconds.

Instants are taken to be ones that the clock can show, sums of an instant and a duration included,
except where an operation panics when they are not.
-/

namespace ModbusMaster

/-- A length of time in nanoseconds. None is taken to be longer than `Duration.longest`. -/
abbrev Duration := Nat

/-- A point in time, in nanoseconds since the clock was started. The clock shows none from
`Instant.limit` on. -/
abbrev Instant := Nat

namespace Duration

def ofSeconds (seconds : Nat) : Duration :=
  seconds * 1000000000

def ofMillis (millis : Nat) : Duration :=
  millis * 1000000

/-- The number of seconds from which on durations are too long. -/
def secondsLimit : Nat := 18446744073709551616

/-- The longest duration that is told apart from longer ones. -/
def longest : Duration :=
  ofSeconds secondsLimit - 1

/-- Three times a duration, or the longest one. -/
def triple (d : Duration) : Duration :=
  min (3 * d) longest

/-- The whole seconds of a duration. -/
def seconds (d : Duration) : Nat :=
  d / 1000000000

/-- The nanoseconds of a duration beyond its whole seconds. -/
def nanos (d : Duration) : Nat :=
  d % 1000000000

/-- The nearest duration to a number of seconds, of two equally near ones the even one. There is
none for a number that is negative, not finite, or 2^64 or more. -/
def ofDouble? : Double → Option Duration
  | .finite negative significand exponent =>
      let (n, d) := (significand * Nat.pow 2 exponent.toNat, Nat.pow 2 (-exponent).toNat)
      if significand = 0 then some 0
      else if negative ∨ d * secondsLimit ≤ n then none
      else some (roundHalfEven (n * 1000000000) d)
  | _ => none

end Duration

/-- The first instant that the clock cannot show: its seconds are a signed number of 64 bits. -/
def Instant.limit : Instant :=
  Duration.ofSeconds 9223372036854775808

end ModbusMaster
