/-!
# Control sequences

A text for a terminal may hold control characters, and control sequences that tell the terminal how
to show what follows.  `plain` gives what is left of a text where there is no terminal: characters
that can be seen, and white space.  `plainFrom_sublist` says that nothing is added and nothing
changes its place, and `isVisible_of_mem_plainFrom` that no other control character is left.

A sequence is read up to the character that ends it.  White space inside a short sequence is still
kept, and so are the visible characters that follow it: the sequence is then taken up again at the
next control character.
-/

namespace TraceTimeline.Text

/-- The control sequence that the next character belongs to, by how far it was read. -/
inductive ControlSequence where
  /-- There is none. -/
  | outside
  /-- After the escape character. -/
  | escape
  /-- After the escape character and some punctuation. -/
  | escapeIntermediate
  /-- In the parameters of a function of the terminal. -/
  | function
  /-- At the start of a message to the device. -/
  | deviceEntry
  /-- In the parameters of a message to the device. -/
  | deviceParameters
  /-- After the parameters of a message to the device. -/
  | deviceIntermediate
  /-- In a text that a string terminator ends. -/
  | controlString
  /-- In a text for the operating system, which a bell ends. -/
  | systemCommand
deriving DecidableEq, Repr

/-- Whether the code of a character lies between two bounds. -/
def isBetween (low high : Nat) (c : Char) : Bool := low ≤ c.toNat && c.toNat ≤ high

/-- White space, except for the space itself, that a terminal acts on at once. -/
def isLayout (c : Char) : Bool := ['\t', '\n', '\x0c', '\r'].contains c

/-- Characters that can be seen, and white space. -/
def isVisible (c : Char) : Bool := (0x20 ≤ c.toNat && c.toNat ≠ 0x7F) || isLayout c

/-- Whether the encoding of a character holds the byte of the string terminator. -/
def holdsTerminator (c : Char) : Bool := (String.utf8EncodeChar c).contains 0x9C

namespace ControlSequence

/-- Whether a character is kept although it is read as part of a sequence. -/
def shows : ControlSequence → Char → Bool
  | outside, c => isVisible c
  | escape, c => isLayout c
  | escapeIntermediate, c => isLayout c
  | function, c => isLayout c
  | _, _ => false

/-- The sequence after a character of it that is not kept.  Wherever it stands, the escape character
begins a new sequence, and the characters for cancelling and for substitution end the one that was
read. -/
def next (q : ControlSequence) (c : Char) : ControlSequence :=
  if c = '\x1b' then escape
  else if c = '\x18' ∨ c = '\x1a' then outside
  else
    match q with
    | outside => outside
    | escape =>
      if isBetween 0x20 0x2F c then escapeIntermediate
      else if c = '[' then function
      else if c = ']' then systemCommand
      else if c = 'P' then deviceEntry
      else if c = 'X' ∨ c = '^' ∨ c = '_' then controlString
      else if isBetween 0x30 0x7E c then outside
      else escape
    | escapeIntermediate => if isBetween 0x30 0x7E c then outside else escapeIntermediate
    | function => if isBetween 0x40 0x7E c then outside else function
    | deviceEntry =>
      if isBetween 0x20 0x2F c then deviceIntermediate
      else if isBetween 0x30 0x3F c then deviceParameters
      else if isBetween 0x40 0x7E c then controlString
      else deviceEntry
    | deviceParameters =>
      if isBetween 0x20 0x2F c then deviceIntermediate
      else if isBetween 0x3C 0x7E c then controlString
      else deviceParameters
    | deviceIntermediate => if isBetween 0x30 0x7E c then controlString else deviceIntermediate
    | controlString => if holdsTerminator c then outside else controlString
    | systemCommand => if c = '\x07' then outside else systemCommand

end ControlSequence

/-- Whether a character is kept.  After a character that was, all visible ones are. -/
def isKept (kept : Bool) (q : ControlSequence) (c : Char) : Bool :=
  bif kept then isVisible c else q.shows c

/-- What is left of the characters that follow in a sequence; `kept` says whether the character
before them was kept.  One that is kept and lies beyond the seven-bit range ends the sequence. -/
def plainFrom (kept : Bool) (q : ControlSequence) : List Char → List Char
  | [] => []
  | c :: cs =>
    if isKept kept q c then c :: plainFrom true (if c.toNat < 0x80 then q else .outside) cs
    else plainFrom false (q.next c) cs

/-- What is left of a text where there is no terminal. -/
def plain (s : String) : String := String.ofList (plainFrom false .outside s.toList)

/-- A text that a terminal shows in bold. -/
def emphasized (s : String) : String := "\x1b[1m" ++ s ++ "\x1b[0m"

theorem plainFrom_sublist (kept : Bool) (q : ControlSequence) (cs : List Char) :
    (plainFrom kept q cs).Sublist cs := by
  induction cs generalizing kept q with
  | nil => exact .slnil
  | cons c cs ih =>
    unfold plainFrom
    split
    · exact (ih _ _).cons_cons c
    · exact (ih _ _).cons c

theorem isVisible_of_isKept {kept : Bool} {q : ControlSequence} {c : Char}
    (h : isKept kept q c) : isVisible c := by
  cases kept with
  | true => exact h
  | false => cases q <;> simp_all [isKept, ControlSequence.shows, isVisible]

theorem isVisible_of_mem_plainFrom {kept : Bool} {q : ControlSequence} {cs : List Char} {c : Char}
    (h : c ∈ plainFrom kept q cs) : isVisible c := by
  induction cs generalizing kept q with
  | nil => cases h
  | cons d cs ih =>
    unfold plainFrom at h
    split at h
    · next hd =>
      cases h with
      | head => exact isVisible_of_isKept hd
      | tail _ h => exact ih h
    · exact ih h

end TraceTimeline.Text
