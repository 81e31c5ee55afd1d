import TraceTimeline.Decimal.Binary
import TraceTimeline.Text.Numeral

/-!
# TOML scalars

The parts of a TOML document that do not nest: blanks, line ends and comments, keys, strings in
their four forms, numbers, and dates with times.  Every reader takes the text from where it stands
and gives what it read and the text after it, or nothing if the text does not begin like that.
-/

namespace TraceTimeline.Toml

/-! ## Blanks, line ends and comments -/

def isSpace (c : Char) : Bool := c = ' ' || c = '\t'

/-- The text without spaces and tabs at its front. -/
def skipSpace (cs : List Char) : List Char := cs.dropWhile isSpace

/-- Whether a character may stand in a comment: all but the control characters other than tab. -/
def isCommentChar (c : Char) : Bool := c = '\t' || (0x20 ≤ c.toNat && c.toNat ≠ 0x7F)

/-- The text after a line end. -/
def newLine? : List Char → Option (List Char)
  | '\n' :: rest => some rest
  | '\r' :: '\n' :: rest => some rest
  | _ => none

/-- The text after a line end, or nothing at the end of the text. -/
def lineEnd? : List Char → Option (List Char)
  | [] => some []
  | cs => newLine? cs

/-- The text after a comment, if one stands here. -/
def skipComment : List Char → List Char
  | '#' :: rest => rest.dropWhile isCommentChar
  | cs => cs

/-- The text of the next line, when nothing but blanks and a comment is left of this one. -/
def restOfLine? (cs : List Char) : Option (List Char) := lineEnd? (skipComment (skipSpace cs))

/-- The text without blanks, line ends and comments at its front; at most `fuel` of them. -/
def skipLines : Nat → List Char → List Char
  | 0, cs => cs
  | fuel + 1, cs =>
    match newLine? (skipSpace cs) with
    | some rest => skipLines fuel rest
    | none =>
      match skipSpace cs with
      | '#' :: rest => skipLines fuel (rest.dropWhile isCommentChar)
      | rest => rest

/-! ## Strings -/

/-- Whether a character may stand in a basic string. -/
def isBasicChar (c : Char) : Bool := isCommentChar c && c ≠ '\x22' && c ≠ '\\'

/-- Whether a character may stand in a literal string. -/
def isLiteralChar (c : Char) : Bool := isCommentChar c && c ≠ '\x27'

/-- The character of a number, unless the number is no character's. -/
def charOf? (n : Nat) : Option Char := if n.isValidChar then some (Char.ofNat n) else none

/-- The character that the text after a backslash names, and the text after it. -/
def escape? : List Char → Option (Char × List Char)
  | 'b' :: rest => some ('\x08', rest)
  | 'f' :: rest => some ('\x0c', rest)
  | 'n' :: rest => some ('\n', rest)
  | 'r' :: rest => some ('\r', rest)
  | 't' :: rest => some ('\t', rest)
  | '\\' :: rest => some ('\\', rest)
  | '\x22' :: rest => some ('\x22', rest)
  | 'u' :: a :: b :: c :: d :: rest => do
    return (← charOf? (← Text.ofDigitsIn? 16 [a, b, c, d]), rest)
  | 'U' :: a :: b :: c :: d :: e :: f :: g :: h :: rest => do
    return (← charOf? (← Text.ofDigitsIn? 16 [a, b, c, d, e, f, g, h]), rest)
  | _ => none

/-- The rest of a basic string after its opening mark; at most `fuel` characters. -/
def basicString? : Nat → List Char → Option (List Char × List Char)
  | 0, _ => none
  | fuel + 1, cs =>
    match cs with
    | [] => none
    | '\x22' :: rest => some ([], rest)
    | '\\' :: rest => do
      let (c, rest) ← escape? rest
      let (more, rest) ← basicString? fuel rest
      return (c :: more, rest)
    | c :: rest =>
      if isBasicChar c then (basicString? fuel rest).map fun (more, rest) => (c :: more, rest)
      else none

/-- The rest of a literal string after its opening mark. -/
def literalString? (cs : List Char) : Option (List Char × List Char) :=
  match cs.dropWhile isLiteralChar with
  | '\x27' :: rest => some (cs.takeWhile isLiteralChar, rest)
  | _ => none

/-- The text after a backslash at the end of a line: the line end and all blanks and line ends that
follow. -/
def skipContinued : Nat → List Char → List Char
  | 0, cs => cs
  | fuel + 1, cs =>
    match newLine? (skipSpace cs) with
    | some rest => skipContinued fuel rest
    | none => skipSpace cs

/-- The end of a string of several lines: up to two quotation marks that belong to the string, and
the three that close it. -/
def closing? (mark : Char) (cs : List Char) : Option (List Char × List Char) :=
  let marks := (cs.takeWhile (· = mark)).length
  if 3 ≤ marks then
    let kept := min (marks - 3) 2
    some (List.replicate kept mark, cs.drop (kept + 3))
  else none

/-- The rest of a basic string of several lines; at most `fuel` characters. -/
def basicLines? : Nat → List Char → Option (List Char × List Char)
  | 0, _ => none
  | fuel + 1, cs =>
    match closing? '\x22' cs with
    | some found => some found
    | none =>
      match cs with
      | [] => none
      | '\\' :: rest =>
        match newLine? (skipSpace rest) with
        | some rest => basicLines? fuel (skipContinued rest.length rest)
        | none => do
          let (c, rest) ← escape? rest
          let (more, rest) ← basicLines? fuel rest
          return (c :: more, rest)
      | c :: rest =>
        match newLine? (c :: rest) with
        | some rest => (basicLines? fuel rest).map fun (more, rest) => ('\n' :: more, rest)
        | none =>
          if isBasicChar c ∨ c = '\x22' then
            (basicLines? fuel rest).map fun (more, rest) => (c :: more, rest)
          else none

/-- The rest of a literal string of several lines; at most `fuel` characters. -/
def literalLines? : Nat → List Char → Option (List Char × List Char)
  | 0, _ => none
  | fuel + 1, cs =>
    match closing? '\x27' cs with
    | some found => some found
    | none =>
      match cs with
      | [] => none
      | c :: rest =>
        match newLine? (c :: rest) with
        | some rest => (literalLines? fuel rest).map fun (more, rest) => ('\n' :: more, rest)
        | none =>
          if isLiteralChar c ∨ c = '\x27' then
            (literalLines? fuel rest).map fun (more, rest) => (c :: more, rest)
          else none

/-- The text without a line end right at its front. -/
def skipFirstLineEnd (cs : List Char) : List Char := (newLine? cs).getD cs

/-- A string in any of its forms. -/
def string? (cs : List Char) : Option (List Char × List Char) :=
  let fuel := cs.length + 1
  match cs with
  | '\x22' :: '\x22' :: '\x22' :: rest => basicLines? fuel (skipFirstLineEnd rest)
  | '\x22' :: rest => basicString? fuel rest
  | '\x27' :: '\x27' :: '\x27' :: rest => literalLines? fuel (skipFirstLineEnd rest)
  | '\x27' :: rest => literalString? rest
  | _ => none

/-! ## Keys -/

/-- Whether a character may stand in a key without quotation marks. -/
def isBareChar (c : Char) : Bool := c.isAlphanum || c = '-' || c = '_'

/-- One part of a key. -/
def simpleKey? (cs : List Char) : Option (String × List Char) :=
  match cs with
  | '\x22' :: rest =>
    (basicString? (cs.length + 1) rest).map fun (k, rest) => (String.ofList k, rest)
  | '\x27' :: rest => (literalString? rest).map fun (k, rest) => (String.ofList k, rest)
  | _ =>
    match cs.takeWhile isBareChar with
    | [] => none
    | k => some (String.ofList k, cs.dropWhile isBareChar)

/-- A key: parts separated by points, with blanks around them; at most `fuel` of them. -/
def key? : Nat → List Char → Option (List String × List Char)
  | 0, _ => none
  | fuel + 1, cs => do
    let (part, rest) ← simpleKey? (skipSpace cs)
    match skipSpace rest with
    | '.' :: more =>
      match key? fuel more with
      | some (parts, rest) => some (part :: parts, rest)
      | none => none
    | rest => some ([part], rest)

/-! ## Numbers -/

/-- One or more digits of a base, with single underscores between them; the underscores are left
out. -/
def digitGroup? (base : Nat) : List Char → Option (List Char × List Char)
  | [] => none
  | c :: '_' :: rest =>
    if (Text.digitIn? base c).isNone then none
    else (digitGroup? base rest).map fun (more, rest) => (c :: more, rest)
  | c :: rest =>
    if (Text.digitIn? base c).isNone then none
    else match digitGroup? base rest with
      | some (more, rest) => some (c :: more, rest)
      | none => some ([c], rest)

/-- The sign of a number, and whether it is a minus. -/
def sign : List Char → Bool × List Char
  | '+' :: rest => (false, rest)
  | '-' :: rest => (true, rest)
  | cs => (false, cs)

/-- The digits of a decimal whole number, which does not begin with a zero unless it is one. -/
def wholeDigits? : List Char → Option (List Char × List Char)
  | '0' :: rest => some (['0'], rest)
  | cs => digitGroup? 10 cs

/-- A whole number of the signed 64-bit range. -/
def integer? (cs : List Char) : Option (Int × List Char) := do
  let (negative, digits, rest, base) ←
    match cs with
    | '0' :: 'x' :: rest => (digitGroup? 16 rest).map fun (ds, rest) => (false, ds, rest, 16)
    | '0' :: 'o' :: rest => (digitGroup? 8 rest).map fun (ds, rest) => (false, ds, rest, 8)
    | '0' :: 'b' :: rest => (digitGroup? 2 rest).map fun (ds, rest) => (false, ds, rest, 2)
    | _ =>
      let (negative, rest) := sign cs
      (wholeDigits? rest).map fun (ds, rest) => (negative, ds, rest, 10)
  let magnitude ← Text.ofDigitsIn? base digits
  let n : Int := if negative then -magnitude else magnitude
  if Text.isSigned64 n then some (n, rest) else none

/-- The digits after a point. -/
def fraction? : List Char → Option (List Char × List Char)
  | '.' :: rest => digitGroup? 10 rest
  | _ => none

/-- The exponent after its mark. -/
def exponent? : List Char → Option (Int × List Char)
  | c :: rest =>
    if c = 'e' ∨ c = 'E' then do
      let (negative, rest) := sign rest
      let (digits, rest) ← digitGroup? 10 rest
      let magnitude ← Text.ofDigitsIn? 10 digits
      return (if negative then -magnitude else magnitude, rest)
    else none
  | [] => none

/-- Infinity or the number that is none, after a sign. -/
def specialDouble? : List Char → Option (Float × List Char)
  | 'i' :: 'n' :: 'f' :: rest => some (1.0 / 0.0, rest)
  | 'n' :: 'a' :: 'n' :: rest => some (0.0 / 0.0, rest)
  | _ => none

/-- A double in decimal notation; a positive one must not exceed the range of doubles. -/
def decimalDouble? (cs : List Char) : Option (Float × List Char) := do
  let (negative, cs) := sign cs
  let (whole, cs) ← wholeDigits? cs
  let fraction := fraction? cs
  let (places, cs) := fraction.getD ([], cs)
  let exponent := exponent? cs
  let (e, cs) := exponent.getD (0, cs)
  if fraction.isNone ∧ exponent.isNone then none
  let digits ← Text.ofDigitsIn? 10 (whole ++ places)
  let x := Decimal.nearestDouble digits (e - places.length)
  if negative then some (-x, cs) else if x.isInf then none else some (x, cs)

/-- A double. -/
def double? (cs : List Char) : Option (Float × List Char) :=
  match decimalDouble? cs with
  | some found => some found
  | none =>
    let (negative, rest) := sign cs
    (specialDouble? rest).map fun (x, rest) => (if negative then -x else x, rest)

/-! ## Dates and times -/

/-- Exactly `count` digits whose number lies between two bounds. -/
def fixed? (count low high : Nat) (cs : List Char) : Option (Nat × List Char) := do
  let digits := cs.take count
  if digits.length < count ∨ !digits.all Char.isDigit then none
  let n := Nat.ofDigitChars 10 digits 0
  if low ≤ n ∧ n ≤ high then some (n, cs.drop count) else none

/-- The text after a character that has to stand here. -/
def expect? (c : Char) : List Char → Option (List Char)
  | d :: rest => if c = d then some rest else none
  | [] => none

/-- The number of days of a month. -/
def daysOf (year month : Nat) : Nat :=
  if month = 2 then
    if year % 4 = 0 ∧ (year % 100 ≠ 0 ∨ year % 400 = 0) then 29 else 28
  else if month = 4 ∨ month = 6 ∨ month = 9 ∨ month = 11 then 30
  else 31

/-- The text after a date. -/
def date? (cs : List Char) : Option (List Char) := do
  let (year, cs) ← fixed? 4 0 9999 cs
  let cs ← expect? '-' cs
  let (month, cs) ← fixed? 2 1 12 cs
  let cs ← expect? '-' cs
  let (_, cs) ← fixed? 2 1 (daysOf year month) cs
  return cs

/-- The text after the fraction of a second, if there is one. -/
def skipSecondFraction (cs : List Char) : List Char :=
  match cs with
  | '.' :: d :: rest => if d.isDigit then rest.dropWhile Char.isDigit else cs
  | _ => cs

/-- The text after a time of day. -/
def time? (cs : List Char) : Option (List Char) := do
  let (_, cs) ← fixed? 2 0 23 cs
  let cs ← expect? ':' cs
  let (_, cs) ← fixed? 2 0 59 cs
  let cs ← expect? ':' cs
  let (_, cs) ← fixed? 2 0 60 cs
  return skipSecondFraction cs

/-- The text after the offset of a time zone. -/
def offset? : List Char → Option (List Char)
  | 'Z' :: cs => some cs
  | 'z' :: cs => some cs
  | c :: cs => do
    if c ≠ '+' ∧ c ≠ '-' then none
    let (_, cs) ← fixed? 2 0 23 cs
    let cs ← expect? ':' cs
    let (_, cs) ← fixed? 2 0 59 cs
    return cs
  | [] => none

/-- The text after the time that belongs to a date, if one follows. -/
def skipTimeOfDate (cs : List Char) : List Char :=
  match cs with
  | c :: rest =>
    if c = 'T' ∨ c = 't' ∨ c = ' ' then
      match time? rest with
      | some rest => (offset? rest).getD rest
      | none => cs
    else cs
  | [] => []

/-- The text after a date, a date with a time, or a time. -/
def dateTime? (cs : List Char) : Option (List Char) :=
  match date? cs with
  | some rest => some (skipTimeOfDate rest)
  | none => time? cs

end TraceTimeline.Toml
