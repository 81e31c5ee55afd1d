import TraceTimeline.Json.Literal
import TraceTimeline.Text.Numeral

/-!
# JSON documents

A document is the tree that a JSON text spells, before anything is decided about what it denotes.
It keeps repeated member names and knows no limit to nesting.  A number that is out of range and a
string whose escapes name half a surrogate pair are well-formed parts of a document that denote
nothing; a reader that never looks at them does not fail on them.

`Document.ofText?` reads a text.  `Document.value?` gives the value that a document denotes, if it
is not nested too deeply: of members of one name the last one counts.
-/

namespace TraceTimeline

/-! ## Strings -/

/-- A part of a quoted text: a character, or a UTF-16 unit named by an escape. -/
inductive Piece where
  | char (c : Char)
  | unit (u : Nat)
deriving DecidableEq, Repr

namespace Piece

/-- Whether a unit is the first half of a surrogate pair. -/
def isHigh (u : Nat) : Bool := 0xD800 ≤ u && u ≤ 0xDBFF

/-- Whether a unit is the second half of a surrogate pair. -/
def isLow (u : Nat) : Bool := 0xDC00 ≤ u && u ≤ 0xDFFF

/-- The character of a surrogate pair. -/
def paired (high low : Nat) : Char :=
  Char.ofNat (0x10000 + (high - 0xD800) * 0x400 + (low - 0xDC00))

/-- The text that pieces denote; nothing if half a surrogate pair stands alone. -/
def text? : List Piece → Option (List Char)
  | [] => some []
  | .char c :: rest => (text? rest).map (c :: ·)
  | .unit u :: .unit v :: rest =>
    if isHigh u then if isLow v then (text? rest).map (paired u v :: ·) else none
    else if isLow u then none
    else (text? (.unit v :: rest)).map (Char.ofNat u :: ·)
  | .unit u :: rest =>
    if isHigh u || isLow u then none else (text? rest).map (Char.ofNat u :: ·)

/-- The character that a one-letter escape names. -/
def ofEscape? (c : Char) : Option Char :=
  if c = '\x22' ∨ c = '\\' ∨ c = '/' then some c
  else if c = 'b' then some '\x08'
  else if c = 'f' then some '\x0c'
  else if c = 'n' then some '\n'
  else if c = 'r' then some '\r'
  else if c = 't' then some '\t'
  else none

/-- The pieces up to a closing quotation mark, and the text after it. -/
def read? : List Char → Option (List Piece × List Char)
  | [] => none
  | '\\' :: 'u' :: a :: b :: c :: d :: rest => do
    let u ← Text.ofDigitsIn? 16 [a, b, c, d]
    let (pieces, rest) ← read? rest
    return (.unit u :: pieces, rest)
  | '\\' :: e :: rest => do
    let c ← ofEscape? e
    let (pieces, rest) ← read? rest
    return (.char c :: pieces, rest)
  | c :: rest =>
    if c = '\x22' then some ([], rest)
    else if c = '\\' ∨ c.toNat < 0x20 then none
    else (read? rest).map fun (pieces, rest) => (.char c :: pieces, rest)

end Piece

/-! ## Documents -/

/-- The tree that a JSON text spells. -/
inductive Document where
  | null
  | bool (value : Bool)
  | num (value : Option Number)
  | str (text : Option String)
  | arr (items : List Document)
  | obj (members : List (Option String × Document))
deriving Inhabited

namespace Document

/-- The text without the space, tab and line end characters at its front. -/
def skipSpace (cs : List Char) : List Char :=
  cs.dropWhile fun c => c = ' ' ∨ c = '\n' ∨ c = '\t' ∨ c = '\r'

section

variable {α : Type}

/-- One or more items separated by commas, up to the closing character; at most `fuel` of them. -/
def someItems (closing : Char) (item : List Char → Option (α × List Char)) :
    Nat → List Char → Option (List α × List Char)
  | 0, _ => none
  | fuel + 1, cs => do
    let (x, cs) ← item cs
    match skipSpace cs with
    | [] => none
    | c :: rest =>
      if c = ',' then (someItems closing item fuel rest).map fun (xs, rest) => (x :: xs, rest)
      else if c = closing then some ([x], rest)
      else none

/-- The items up to the closing character, at most `fuel` of them. -/
def items (closing : Char) (item : List Char → Option (α × List Char)) (fuel : Nat)
    (cs : List Char) : Option (List α × List Char) :=
  match skipSpace cs with
  | [] => none
  | c :: rest => if c = closing then some ([], rest) else someItems closing item fuel cs

end

/-- What the text between quotation marks denotes, and the text after it. -/
def quoted? (cs : List Char) : Option (Option String × List Char) :=
  (Piece.read? cs).map fun (pieces, rest) => ((Piece.text? pieces).map String.ofList, rest)

/-- A member: a name, a colon and a part read by `part`. -/
def member? (part : List Char → Option (Document × List Char)) (cs : List Char) :
    Option ((Option String × Document) × List Char) :=
  match skipSpace cs with
  | '\x22' :: cs => do
    let (name, cs) ← quoted? cs
    match skipSpace cs with
    | ':' :: cs =>
      let (d, cs) ← part cs
      return ((name, d), cs)
    | _ => none
  | _ => none

/-- The document at the front of a text, and the rest of the text.  The document may be nested at
most `fuel` levels deep, and the part at level `l` may have at most `fuel - l` items.  The length
of the text is enough for both, since every bracket and every item takes a character. -/
def read? : Nat → List Char → Option (Document × List Char)
  | 0, _ => none
  | fuel + 1, cs =>
    match skipSpace cs with
    | '\x22' :: rest => (quoted? rest).map fun (s, rest) => (.str s, rest)
    | '[' :: rest => (items ']' (read? fuel) fuel rest).map fun (xs, rest) => (.arr xs, rest)
    | '\x7b' :: rest =>
      (items '\x7d' (member? (read? fuel)) fuel rest).map fun (ms, rest) => (.obj ms, rest)
    | 'n' :: 'u' :: 'l' :: 'l' :: rest => some (.null, rest)
    | 't' :: 'r' :: 'u' :: 'e' :: rest => some (.bool true, rest)
    | 'f' :: 'a' :: 'l' :: 's' :: 'e' :: rest => some (.bool false, rest)
    | rest => (Literal.read? rest).map fun (l, rest) => (.num l.value?, rest)

/-- The document that a text spells, with nothing but space around it. -/
def ofText? (s : String) : Option Document :=
  match read? (s.toList.length + 1) s.toList with
  | some (d, rest) => if skipSpace rest = [] then some d else none
  | none => none

/-! ## Denotation -/

/-- The number of nested arrays and objects that a text may have. -/
def nestingLimit : Nat := 127

mutual

/-- The value that a document denotes, if at most `room` arrays and objects are nested in it. -/
def value? (room : Nat) : Document → Option Json
  | .null => some .null
  | .bool b => some (.bool b)
  | .num n => n.map .num
  | .str s => s.map .str
  | .arr items =>
    match room with
    | 0 => none
    | room + 1 => (itemValues? room items).map .arr
  | .obj members =>
    match room with
    | 0 => none
    | room + 1 => (memberValues? room members).map Json.object

def itemValues? (room : Nat) : List Document → Option (List Json)
  | [] => some []
  | d :: rest => do return (← value? room d) :: (← itemValues? room rest)

def memberValues? (room : Nat) : List (Option String × Document) → Option (List (String × Json))
  | [] => some []
  | (k, d) :: rest => do return (← k, ← value? room d) :: (← memberValues? room rest)

end

end Document

/-- The value that a text denotes. -/
def Json.ofText? (s : String) : Option Json :=
  (Document.ofText? s).bind (Document.value? Document.nestingLimit)

end TraceTimeline
