import TraceTimeline.Decimal.Binary

/-!
# The shortest decimal of a double

A finite positive double stands for a whole interval of real numbers, those that round to it.  Its
shortest decimal is the decimal in that interval with the fewest digits, and among those the one
nearest to the double; an exact tie goes to the even digit.

Everything is computed in exact arithmetic on natural numbers.  A decimal of `n` digits lies on a
grid of spacing `10 ^ k`.  If any point of a grid lies in the interval then so does one of the two
grid points next to the double, so it suffices to test those two, for grids of one digit, two
digits and so on.  Seventeen digits always suffice.
-/

namespace TraceTimeline.Decimal

/-- A positive decimal `digits * 10 ^ exponent`. -/
structure Scientific where
  digits : Nat
  exponent : Int
deriving DecidableEq, Repr

/-- The reals that round to a positive double, as numerators over the common denominator `unit`:
the double itself is `4 * mantissa` steps of `step`, and each neighbour is four steps away, or two
below the double where the spacing changes. -/
structure Interval where
  /-- The lower end. -/
  low : Nat
  /-- The double. -/
  mid : Nat
  /-- The upper end. -/
  high : Nat
  /-- The common denominator. -/
  unit : Nat
  /-- Whether the ends round to the double too. -/
  closed : Bool

/-- The interval of the double `mantissa * 2 ^ exponent`; `narrow` says that the next double below
is only half as far away as the next one above. -/
def Interval.of (mantissa : Nat) (exponent : Int) (narrow : Bool) : Interval :=
  let step := Nat.pow 2 (exponent - 2).toNat
  { low := (4 * mantissa - (if narrow then 1 else 2)) * step
    mid := 4 * mantissa * step
    high := (4 * mantissa + 2) * step
    unit := Nat.pow 2 (2 - exponent).toNat
    closed := mantissa % 2 == 0 }

/-- Numerator and denominator of a quotient of powers of ten times `d`, that is `d * 10 ^ k`. -/
def grid (d : Nat) (k : Int) : Nat × Nat :=
  (d * Nat.pow 10 k.toNat, Nat.pow 10 (-k).toNat)

/-- Whether the grid point `d * 10 ^ k` lies in the interval. -/
def Interval.holds (i : Interval) (d : Nat) (k : Int) : Bool :=
  let (num, den) := grid d k
  let x := num * i.unit
  if i.closed then i.low * den ≤ x && x ≤ i.high * den else i.low * den < x && x < i.high * den

/-- The double divided by `10 ^ k`, rounded down. -/
def Interval.floorAt (i : Interval) (k : Int) : Nat :=
  (i.mid * Nat.pow 10 (-k).toNat) / (i.unit * Nat.pow 10 k.toNat)

/-- Twice the distance between the double and `d * 10 ^ k`, compared with the spacing of the grid:
whether the grid point after `d` is nearer, with a tie decided for the even one. -/
def Interval.nextIsNearer (i : Interval) (d : Nat) (k : Int) : Bool :=
  let scaled := 2 * i.mid * Nat.pow 10 (-k).toNat
  let middle := (2 * d + 1) * i.unit * Nat.pow 10 k.toNat
  scaled > middle || (scaled == middle && d % 2 == 1)

/-- The decimal of the grid with spacing `10 ^ k` that stands for the double, if there is one. -/
def Interval.onGrid (i : Interval) (k : Int) : Option Scientific :=
  let d := i.floorAt k
  match i.holds d k, i.holds (d + 1) k with
  | true, true => some ⟨if i.nextIsNearer d k then d + 1 else d, k⟩
  | true, false => some ⟨d, k⟩
  | false, true => some ⟨d + 1, k⟩
  | false, false => none

/-- The number of digits before the decimal point; zero or less for numbers below one tenth.  A
positive double exceeds `10 ^ (-324)`, so four hundred places are enough to see a digit. -/
def Interval.magnitude (i : Interval) : Int :=
  ((Nat.toDigits 10 (i.mid * Nat.pow 10 400 / i.unit)).length : Int) - 400

/-- The first decimal that stands for the double on grids of `n`, `n + 1`, … digits, at most
`fuel` of them. -/
def Interval.search (i : Interval) (magnitude : Int) : Nat → Nat → Scientific
  | 0, n => ⟨i.floorAt (magnitude - n), magnitude - n⟩
  | fuel + 1, n =>
    match i.onGrid (magnitude - n) with
    | some s => s
    | none => i.search magnitude fuel (n + 1)

/-- The decimal without a final zero among its digits.  Only a one-digit grid can give one, where
the grid point after nine is ten. -/
def Scientific.trimZero (s : Scientific) : Scientific :=
  if s.digits % 10 = 0 then ⟨s.digits / 10, s.exponent + 1⟩ else s

/-- The shortest decimal of the double `mantissa * 2 ^ exponent`. -/
def shortest (mantissa : Nat) (exponent : Int) (narrow : Bool) : Scientific :=
  let i := Interval.of mantissa exponent narrow
  (i.search i.magnitude 17 1).trimZero

/-! ## Layout -/

/-- How a decimal is written: where positional notation begins and ends, and the marks that are
used.  Positions count the digits before the decimal point. -/
structure Layout where
  /-- The least position that is written out with a point. -/
  least : Int
  /-- The greatest position that is written out with a point. -/
  greatest : Int
  /-- What follows a whole number. -/
  wholeMark : List Char
  /-- What introduces an exponent that is not negative. -/
  upMark : List Char
  /-- What introduces a negative exponent. -/
  downMark : List Char

/-- The decimal's digits with a point put into them. -/
def Layout.write (l : Layout) (s : Scientific) : List Char :=
  let ds := Nat.toDigits 10 s.digits
  let position := (ds.length : Int) + s.exponent
  if l.least ≤ position ∧ position ≤ l.greatest then
    if 0 ≤ s.exponent then ds ++ List.replicate s.exponent.toNat '0' ++ l.wholeMark
    else if 0 < position then ds.take position.toNat ++ '.' :: ds.drop position.toNat
    else '0' :: '.' :: List.replicate (-position).toNat '0' ++ ds
  else
    let lead := match ds with
      | [] => []
      | [d] => [d]
      | d :: rest => d :: '.' :: rest
    let e := position - 1
    lead ++ (if 0 ≤ e then l.upMark else l.downMark) ++ Nat.toDigits 10 e.natAbs

/-- A double under a layout; zeros keep their sign.  Only finite doubles have a decimal. -/
def Layout.writeDouble (l : Layout) (x : Float) : List Char :=
  let b := Binary.of x
  (if b.negative then ['-'] else []) ++
    if b.mantissa = 0 then '0' :: l.wholeMark
    else l.write (shortest b.mantissa b.exponent b.narrow)

end TraceTimeline.Decimal
