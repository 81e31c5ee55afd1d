import TraceTimeline.Decimal.Binary

/-!
# Backoff between connection attempts

After a failed attempt the client waits before it tries again.  The first delay is multiplied by a
growth factor for every further attempt, up to a greatest delay.  Delays are computed in seconds as
doubles and rounded to whole nanoseconds.
-/

namespace TraceTimeline

/-- How long to wait between attempts. -/
structure ReconnectPolicy where
  /-- The delay after the first attempt, in milliseconds. -/
  initialDelay : Nat
  /-- The greatest delay, in milliseconds. -/
  maxDelay : Nat
  /-- The growth factor per attempt. -/
  multiplier : Float
deriving DecidableEq

/-- A time span in whole seconds and nanoseconds below a second. -/
structure TimeSpan where
  seconds : Nat
  nanoseconds : Nat
deriving DecidableEq, Repr

namespace TimeSpan

def nanosPerSecond : Nat := 1000000000

def ofNanos (n : Nat) : TimeSpan := ⟨n / nanosPerSecond, n % nanosPerSecond⟩

/-- The nearest time span of a number of seconds that is not negative; a half goes to the even
nanosecond. -/
def ofSeconds (x : Float) : TimeSpan :=
  let b := Decimal.Binary.of x
  ofNanos (Decimal.roundQuotient (b.mantissa * Nat.pow 2 b.exponent.toNat * nanosPerSecond)
    (Nat.pow 2 (-b.exponent).toNat))

end TimeSpan

namespace ReconnectPolicy

/-- The usual policy: half a second at first, doubling up to five seconds. -/
def default : ReconnectPolicy := ⟨500, 5000, 2.0⟩

instance : Inhabited ReconnectPolicy := ⟨default⟩

/-- The policy of a fixed delay. -/
def fixed (delay : Nat) : ReconnectPolicy := ⟨delay, delay, 1.0⟩

/-- The policy with a finite factor of at least one, and a greatest delay that is not below the
first. -/
def normalized (p : ReconnectPolicy) : ReconnectPolicy :=
  { p with
    maxDelay := max p.maxDelay p.initialDelay
    multiplier := if p.multiplier.isFinite ∧ 1.0 ≤ p.multiplier then p.multiplier else 1.0 }

/-- A power with a whole exponent, by repeated squaring from the lowest binary digit. -/
def power (base : Float) (n : Nat) (result : Float) : Float :=
  let result := if n % 2 = 1 then result * base else result
  if n / 2 = 0 then result else power (base * base) (n / 2) result
termination_by n

/-- A number of milliseconds in seconds, as a double. -/
def seconds (ms : Nat) : Float :=
  (ms / 1000).toUInt64.toFloat + ((ms % 1000) * 1000000).toUInt64.toFloat / 1000000000.0

/-- The lesser of two doubles; of a number and a value that is none, the number. -/
def lesser (x y : Float) : Float := if x.isNaN ∨ y < x then y else x

/-- The delay before an attempt, counted from zero.  The factor is applied at most sixty-four
times. -/
def delay (p : ReconnectPolicy) (attempt : Nat) : TimeSpan :=
  let p := p.normalized
  TimeSpan.ofSeconds
    (lesser (seconds p.initialDelay * power p.multiplier (min attempt 64) 1.0) (seconds p.maxDelay))

end ReconnectPolicy

end TraceTimeline
