import TraceTimeline.Diff
import TraceTimeline.Text.Numeral

/-!
# Steps

A step is one event of the traced program's interpreter: a line reached, a call, a return, an
exception.  The backend numbers the steps of a run, and the number is the step's identity: a step
that comes again under the same number corrects the earlier one.

A step says where the program is, how the global and the local variables change, and what it
returns or raises.  For the last three it matters whether nothing was said or an explicit `null`
was; `Reported` keeps the two apart.
-/

namespace TraceTimeline

/-- The number of a step, given by the backend. -/
abbrev StepId := UInt64

/-- The number of a line of the source. -/
abbrev SourceLine := UInt32

/-- What kind of event a step is. -/
inductive EventKind where
  | line
  | call
  | ret
  | exception
  | other
deriving DecidableEq, Repr, Inhabited

namespace EventKind

/-- The name of a kind of event. -/
def name : EventKind → String
  | .line => "line"
  | .call => "call"
  | .ret => "return"
  | .exception => "exception"
  | .other => "other"

/-- The text without the quotation marks at either end. -/
def unquote (cs : List Char) : List Char :=
  ((cs.dropWhile (· = '\x22')).reverse.dropWhile (· = '\x22')).reverse

/-- The kind that a name stands for, in any case of letters, with blanks and quotation marks around
it.  Every other name is of the kind `other`. -/
def ofName (s : String) : EventKind :=
  let word := (Text.trimChars (unquote (Text.trimChars s.toList))).map Char.toLower
  match String.ofList word with
  | "line" => .line
  | "call" => .call
  | "return" => .ret
  | "exception" => .exception
  | _ => .other

/-- The capital initial of a kind of event. -/
def initial : EventKind → Char
  | .line => 'L'
  | .call => 'C'
  | .ret => 'R'
  | .exception => 'E'
  | .other => 'O'

end EventKind

/-- A field of which it matters whether it was left out or explicitly empty. -/
inductive Reported (α : Type) where
  | absent
  | null
  | value (a : α)
deriving DecidableEq, Repr

namespace Reported

variable {α : Type}

instance : Inhabited (Reported α) := ⟨.absent⟩

/-- The report of a field that was given. -/
def ofOption : Option α → Reported α
  | none => .null
  | some a => .value a

/-- The reported value, if there is one. -/
def value? : Reported α → Option α
  | .value a => some a
  | _ => none

def isAbsent : Reported α → Bool
  | .absent => true
  | _ => false

end Reported

/-- One event of the traced program. -/
structure Step where
  id : StepId
  kind : EventKind
  /-- The line that the program is at. -/
  line : Option SourceLine
  /-- The stack frame that the program is in. -/
  frame : Option String
  file : Option String
  function : Option String
  target : Option String
  /-- The text of the line. -/
  sourceText : Option String
  globals : Diff
  locals : Diff
  returned : Reported Json
  error : Reported Json
  traceback : Reported String
deriving DecidableEq

namespace Step

/-- A step of some kind that says nothing else. -/
def ofKind (id : StepId) (kind : EventKind) : Step where
  id := id
  kind := kind
  line := none
  frame := none
  file := none
  function := none
  target := none
  sourceText := none
  globals := Diff.none
  locals := Diff.none
  returned := .absent
  error := .absent
  traceback := .absent

/-- The step at a line. -/
def atLine (s : Step) (line : SourceLine) : Step := { s with line := some line }

def ofLine (id : StepId) (line : SourceLine) : Step := (ofKind id .line).atLine line

def inFrame (s : Step) (frame : String) : Step := { s with frame := some frame }

def withGlobals (s : Step) (d : Diff) : Step := { s with globals := d }

def withLocals (s : Step) (d : Diff) : Step := { s with locals := d }

def withReturn (s : Step) (v : Option Json) : Step := { s with returned := .ofOption v }

def withError (s : Step) (v : Option Json) : Step := { s with error := .ofOption v }

/-- The label of a step on a time line: its line number where it reaches a line, and the initial of
its kind otherwise. -/
def glyph (s : Step) : String :=
  match s.kind, s.line with
  | .line, some line => String.ofList (Text.digits line.toNat)
  | kind, _ => kind.initial.toString

end Step

end TraceTimeline
