/-!
# Decimal numerals

Whole numbers as text: digits of base ten, read with an optional plus sign and written without
one.  A numeral that exceeds the range asked for is not read at all; it is never reduced modulo
the range.
-/

namespace TraceTimeline.Text

/-- The number that a non-empty run of decimal digits stands for. -/
def ofDigits? (cs : List Char) : Option Nat :=
  if cs ≠ [] ∧ cs.all Char.isDigit then some (Nat.ofDigitChars 10 cs 0) else none

/-- The number that a numeral stands for: decimal digits after at most one plus sign. -/
def readNat? : List Char → Option Nat
  | '+' :: cs => ofDigits? cs
  | cs => ofDigits? cs

/-- The 64-bit number that a numeral stands for, if it is in range. -/
def readUInt64? (cs : List Char) : Option UInt64 := do
  let n ← readNat? cs
  if n < UInt64.size then some n.toUInt64 else none

/-- The 32-bit number that a numeral stands for, if it is in range. -/
def readUInt32? (cs : List Char) : Option UInt32 := do
  let n ← readNat? cs
  if n < UInt32.size then some n.toUInt32 else none

/-- Whether a whole number is in the signed 64-bit range. -/
def isSigned64 (n : Int) : Bool := -9223372036854775808 ≤ n && n < 9223372036854775808

/-- The value of a digit in a base of at most sixteen, in either case of letters. -/
def digitIn? (base : Nat) (c : Char) : Option Nat :=
  let n := c.toNat
  let v :=
    if c.isDigit then n - 48
    else if 'a' ≤ c ∧ c ≤ 'f' then n - 87
    else if 'A' ≤ c ∧ c ≤ 'F' then n - 55
    else base
  if v < base then some v else none

/-- The number that digits of a base stand for. -/
def ofDigitsIn? (base : Nat) (cs : List Char) : Option Nat :=
  cs.foldlM (fun n c => (digitIn? base c).map fun v => n * base + v) 0

def digits (n : Nat) : List Char := Nat.toDigits 10 n

theorem ofDigits?_digits (n : Nat) : ofDigits? (digits n) = some n := by
  have hall : (digits n).all Char.isDigit = true := by
    rw [List.all_eq_true]
    exact fun c hc => Nat.isDigit_of_mem_toDigits (by decide) (by decide) hc
  have hne : digits n ≠ [] := Nat.toDigits_ne_nil
  rw [ofDigits?, if_pos ⟨hne, hall⟩, digits, Nat.ofDigitChars_ten_toDigits]

/-- A number is read back from its digits. -/
theorem readNat?_digits (n : Nat) : readNat? (digits n) = some n := by
  unfold readNat?
  split
  · next cs h =>
    have : '+' ∈ digits n := by rw [h]; simp
    have := Nat.isDigit_of_mem_toDigits (b := 10) (by decide) (by decide) this
    exact absurd this (by decide)
  · exact ofDigits?_digits n

end TraceTimeline.Text
