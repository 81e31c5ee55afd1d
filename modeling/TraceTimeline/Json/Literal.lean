import TraceTimeline.Json.Basic
import TraceTimeline.Text.Numeral

/-!
# Number literals

The spelling of a JSON number and the number it denotes.

A literal without fraction and exponent is a whole number if it fits the unsigned 64-bit range or,
with a minus sign, the signed one; `-0` is a double, so that its sign is kept.  Every other literal
is a double.  Its digits are gathered into a 64-bit significand until the next digit would not fit,
and the significand is then scaled by one power of ten.  Both conversions round, so the result can
differ from the nearest double in the last place.  A literal beyond the greatest double denotes
nothing.
-/

namespace TraceTimeline

/-- A number as it is spelled. -/
structure Literal where
  /-- Whether a minus sign stands in front. -/
  negative : Bool
  /-- The digits before the point. -/
  whole : List Char
  /-- The digits after the point, if there is one. -/
  fraction : Option (List Char)
  /-- Whether the exponent is negative, and its digits. -/
  exponent : Option (Bool × List Char)
deriving DecidableEq, Repr

namespace Literal

/-! ## Spelling -/

/-- A non-empty run of digits at the front of a text. -/
def digitRun? (cs : List Char) : Option (List Char × List Char) :=
  match cs.takeWhile Char.isDigit with
  | [] => none
  | d :: ds => some (d :: ds, cs.dropWhile Char.isDigit)

/-- The digits before the point: a zero by itself, or digits that do not begin with one. -/
def wholePart? : List Char → Option (List Char × List Char)
  | '0' :: cs => some (['0'], cs)
  | cs => digitRun? cs

def fractionPart? : List Char → Option (Option (List Char) × List Char)
  | '.' :: cs => (digitRun? cs).map fun (ds, rest) => (some ds, rest)
  | cs => some (none, cs)

/-- The sign of an exponent and the text after it. -/
def exponentSign : List Char → Bool × List Char
  | '+' :: cs => (false, cs)
  | '-' :: cs => (true, cs)
  | cs => (false, cs)

/-- The exponent, if its mark comes next. -/
def exponentPart? : List Char → Option (Option (Bool × List Char) × List Char)
  | c :: cs =>
    if c = 'e' ∨ c = 'E' then
      let (negative, digits) := exponentSign cs
      (digitRun? digits).map fun (ds, rest) => (some (negative, ds), rest)
    else some (none, c :: cs)
  | [] => some (none, [])

def sign : List Char → Bool × List Char
  | '-' :: cs => (true, cs)
  | cs => (false, cs)

/-- The number literal at the front of a text, and the rest of the text. -/
def read? (cs : List Char) : Option (Literal × List Char) := do
  let (negative, cs) := sign cs
  let (whole, cs) ← wholePart? cs
  let (fraction, cs) ← fractionPart? cs
  let (exponent, cs) ← exponentPart? cs
  return (⟨negative, whole, fraction, exponent⟩, cs)

/-! ## Denotation -/

def digitValue (c : Char) : Nat := c.toNat - 48

/-- The first digits as a 64-bit number, up to the first that would not fit, and the digits that
are left. -/
def gather (significand : Nat) : List Char → Nat × List Char
  | [] => (significand, [])
  | c :: cs =>
    let next := significand * 10 + digitValue c
    if next < UInt64.size then gather next cs else (significand, c :: cs)

/-- A power of ten as a double. -/
def powerOfTen (n : Nat) : Float := Float.ofScientific 1 false n

/-- The double divided by `10 ^ n`, in steps that stay within the range of doubles. -/
def scaleDown (x : Float) (n : Nat) : Float :=
  if n ≤ 308 then x / powerOfTen n
  else if x == 0 then x
  else scaleDown (x / powerOfTen 308) (n - 308)
termination_by n

/-- The double multiplied by `10 ^ n`, or nothing if that exceeds the range of doubles. -/
def scaleUp? (x : Float) (n : Nat) : Option Float :=
  if n ≤ 308 then
    let y := x * powerOfTen n
    if y.isInf then none else some y
  else if x == 0 then some x
  else none

/-- A significand scaled by a power of ten. -/
def scale? (significand : Nat) (exponent : Int) : Option Float :=
  let x := significand.toUInt64.toFloat
  if 0 ≤ exponent then scaleUp? x exponent.toNat else some (scaleDown x (-exponent).toNat)

/-- One more than the greatest exponent of the signed 32-bit range. -/
def exponentBound : Nat := 2147483648

/-- The magnitude of a double given by a significand, a power of ten from the places of its digits,
and the exponent as written.  An exponent beyond the signed 32-bit range makes the number zero or
puts it out of range. -/
def magnitude? (significand : Nat) (places : Int) : Option (Bool × List Char) → Option Float
  | none => scale? significand places
  | some (negative, digits) =>
    let e : Int := Nat.ofDigitChars 10 digits 0
    if e < exponentBound then scale? significand (if negative then places - e else places + e)
    else if significand ≠ 0 ∧ ¬ negative then none
    else some 0

/-- A double with a sign. -/
def signed (negative : Bool) (x : Float) : Float := if negative then -x else x

/-- The number that a literal denotes, if it is in range. -/
def value? (l : Literal) : Option Number :=
  let (head, unread) := gather 0 l.whole
  match l.fraction, l.exponent with
  | none, none =>
    if unread ≠ [] then
      (scale? head unread.length).map fun x => .float (signed l.negative x)
    else if ¬ l.negative then some (.int head)
    else if 0 < head ∧ Text.isSigned64 (-(head : Int)) then some (.int (-head))
    else some (.float (-head.toUInt64.toFloat))
  | fraction, exponent =>
    let ds := fraction.getD []
    let (significand, ignored) := gather head ds
    let places : Int := (unread.length : Int) - (ds.length - ignored.length : Nat)
    (magnitude? significand places exponent).map fun x => .float (signed l.negative x)

end Literal

end TraceTimeline
