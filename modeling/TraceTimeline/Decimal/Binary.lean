/-!
# Doubles as whole numbers

A finite double is a whole number times a power of two.  This module takes a double apart into the
two, finds the double nearest to a decimal, and rounds quotients of whole numbers.
-/

namespace TraceTimeline.Decimal

/-- A finite double, taken apart: its magnitude is `mantissa * 2 ^ exponent`. -/
structure Binary where
  negative : Bool
  mantissa : Nat
  exponent : Int
  /-- Whether the next smaller magnitude is only half as far away as the next greater one. -/
  narrow : Bool
deriving DecidableEq, Repr

/-- The parts of a finite double. -/
def Binary.of (x : Float) : Binary :=
  let bits := x.toBits.toNat
  let biased : Nat := bits / Nat.pow 2 52 % Nat.pow 2 11
  let fraction : Nat := bits % Nat.pow 2 52
  { negative := Nat.pow 2 63 ≤ bits
    mantissa := if biased = 0 then fraction else fraction + Nat.pow 2 52
    exponent := if biased = 0 then -1074 else (biased : Int) - 1075
    narrow := fraction = 0 ∧ 1 < biased }

/-- A quotient rounded to the nearest whole number; a half goes to the even neighbour. -/
def roundQuotient (num den : Nat) : Nat :=
  let q := num / den
  let twice := 2 * (num % den)
  if twice > den ∨ (twice = den ∧ q % 2 = 1) then q + 1 else q

/-- The double nearest to `digits * 10 ^ exponent`.  Decimals with their first digit more than four
hundred places from the point are beyond the range of doubles on either side. -/
def nearestDouble (digits : Nat) (exponent : Int) : Float :=
  let position := ((Nat.toDigits 10 digits).length : Int) + exponent
  if digits = 0 ∨ position < -400 then 0.0
  else if 400 < position then 1.0 / 0.0
  else Float.ofScientific digits (exponent < 0) exponent.natAbs

end TraceTimeline.Decimal
