import TraceTimeline.Decimal.Shortest
import TraceTimeline.Json.Basic

/-!
# JSON text

A value as text, in two forms.  `Json.text` is the compact form of the wire: no blanks at all.
`Json.pretty` is the form for readers: each item and each member stands on a line of its own,
indented by two spaces for every level, and an empty array or object stays on its line.

Members are written in the order in which the object lists them.
-/

namespace TraceTimeline

/-- Doubles are written with the fewest digits that read back; with a point and at least one place
after it while they have at most sixteen digits before the point or four zeros after it, and with
a signed exponent otherwise. -/
def Number.layout : Decimal.Layout where
  least := -4
  greatest := 16
  wholeMark := ['.', '0']
  upMark := ['e', '+']
  downMark := ['e', '-']

/-- A number as text. -/
def Number.text : Number → List Char
  | .int (.ofNat n) => Nat.toDigits 10 n
  | .int (.negSucc n) => '-' :: Nat.toDigits 10 (n + 1)
  | .float x => layout.writeDouble x

namespace Json

/-- A character inside a quoted text.  The quotation mark, the backslash and the characters below
the space are escaped, the common ones by a letter and the others by their number. -/
def escaped (c : Char) : List Char :=
  if c = '\x22' then ['\\', '\x22']
  else if c = '\\' then ['\\', '\\']
  else if c = '\n' then ['\\', 'n']
  else if c = '\r' then ['\\', 'r']
  else if c = '\t' then ['\\', 't']
  else if c = '\x08' then ['\\', 'b']
  else if c = '\x0c' then ['\\', 'f']
  else if c.toNat < 0x20 then
    ['\\', 'u', '0', '0', Nat.digitChar (c.toNat / 16), Nat.digitChar (c.toNat % 16)]
  else [c]

def quoted (s : String) : List Char := '\x22' :: (s.toList.flatMap escaped ++ ['\x22'])

/-- A list of texts between an opening and a closing character, separated by commas. -/
def enclosed (opening closing : Char) (texts : List (List Char)) : List Char :=
  opening :: (List.intercalate [','] texts ++ [closing])

mutual

/-- The compact text of a value. -/
def text : Json → List Char
  | .null => ['n', 'u', 'l', 'l']
  | .bool true => ['t', 'r', 'u', 'e']
  | .bool false => ['f', 'a', 'l', 's', 'e']
  | .num n => n.text
  | .str s => quoted s
  | .arr items => enclosed '[' ']' (itemTexts items)
  | .obj members => enclosed '\x7b' '\x7d' (memberTexts members)

def itemTexts : List Json → List (List Char)
  | [] => []
  | v :: rest => text v :: itemTexts rest

def memberTexts : List (String × Json) → List (List Char)
  | [] => []
  | (k, v) :: rest => (quoted k ++ ':' :: text v) :: memberTexts rest

end

def compact (v : Json) : String := String.ofList v.text

/-- A line break followed by the indentation of a level. -/
def newLine (level : Nat) : List Char := '\n' :: List.replicate (2 * level) ' '

/-- Texts on lines of their own, one level deeper than the brackets around them. -/
def stacked (level : Nat) (opening closing : Char) (texts : List (List Char)) : List Char :=
  if texts.isEmpty then [opening, closing]
  else opening :: (newLine (level + 1) ++
    List.intercalate (',' :: newLine (level + 1)) texts ++ newLine level ++ [closing])

mutual

/-- The indented text of a value at a level. -/
def prettyText (level : Nat) : Json → List Char
  | .arr items => stacked level '[' ']' (prettyItems (level + 1) items)
  | .obj members => stacked level '\x7b' '\x7d' (prettyMembers (level + 1) members)
  | v => text v

def prettyItems (level : Nat) : List Json → List (List Char)
  | [] => []
  | v :: rest => prettyText level v :: prettyItems level rest

def prettyMembers (level : Nat) : List (String × Json) → List (List Char)
  | [] => []
  | (k, v) :: rest => (quoted k ++ ':' :: ' ' :: prettyText level v) :: prettyMembers level rest

end

def pretty (v : Json) : String := String.ofList (prettyText 0 v)

end Json

end TraceTimeline
