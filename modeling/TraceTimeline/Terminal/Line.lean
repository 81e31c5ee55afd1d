import TraceTimeline.Engine.Basic

/-!
# Lines on the terminal

Everything that is written to the terminal is one of a few kinds of line.  `TerminalLine` says which
and what it is about; `TerminalLine.text` is what is written.
-/

namespace TraceTimeline

/-- Something that is written to the terminal. -/
inductive TerminalLine where
  /-- The state of the connection changed. -/
  | connection (state : ConnectionState)
  /-- The time line was replaced; it now has so many steps. -/
  | banner (steps : Nat)
  /-- A step, as it is shown. -/
  | step (id : StepId) (shown : String)
  /-- A sealed output entry. -/
  | sealed (id : Nat) (channel : OutputChannel) (text : String)
  /-- Where the cursor is. -/
  | cursor (id : StepId) (line : Option SourceLine) (mode : FollowMode)
  /-- The scope at the cursor. -/
  | scope (scope : Option Scope)
  /-- An output entry, sealed or not. -/
  | entry (entry : OutputEntry)
  /-- A message to the operator. -/
  | message (text : String)
deriving DecidableEq

namespace TerminalLine

/-- A text moved to the right within a width. -/
def rightAligned (width : Nat) (s : String) : String :=
  String.ofList (List.replicate (width - s.toList.length) ' ') ++ s

def numeral (n : Nat) : String := String.ofList (Text.digits n)

/-- Where a step is: the file and the line, as far as they are known. -/
def location (step : Step) : String :=
  match step.file, step.line with
  | some file, some line => file ++ ":" ++ numeral line.toNat
  | none, some line => "line " ++ numeral line.toNat
  | some file, none => file
  | none, none => ""

/-- A step as it is shown: number, label, kind, place and the text of its line. -/
def showStep (step : Step) : String :=
  "[" ++ rightAligned 5 (numeral step.id.toNat) ++ "] " ++ rightAligned 4 step.glyph ++ " " ++
    step.kind.name ++ " " ++ location step ++ " " ++ Text.trim (step.sourceText.getD "")

/-- A text without the line ends at its end. -/
def withoutLineEnds (s : String) : String :=
  String.ofList (s.toList.reverse.dropWhile (· = '\n')).reverse

/-- What is written of the state of the connection. -/
def connectionText : ConnectionState → String
  | .connecting => "-- connecting"
  | .connected g => "-- connected (generation " ++ numeral g ++ ")"
  | .disconnected => "-- disconnected, retrying"
  | .closed => "-- closed"

/-- What is written, without the line end. -/
def text : TerminalLine → String
  | .connection state => connectionText state
  | .banner n => "-- timeline: " ++ numeral n ++ " steps"
  | .step _ shown => shown
  | .sealed _ channel text => channel.name ++ "> " ++ withoutLineEnds text
  | .cursor id (some line) mode =>
    "-> step " ++ numeral id.toNat ++ " (line " ++ numeral line.toNat ++ ", " ++ mode.name ++ ")"
  | .cursor id none mode => "-> step " ++ numeral id.toNat ++ " (" ++ mode.name ++ ")"
  | .scope (some s) => s.toJson.pretty
  | .scope none => "(no step selected)"
  | .entry e =>
    e.channel.name ++ (if e.flushed then " " else "…") ++ " " ++ withoutLineEnds e.text
  | .message text => text

/-- What is written for a list of lines, each with its line end. -/
def textOf (lines : List TerminalLine) : String :=
  String.join (lines.map fun l => l.text ++ "\n")

end TerminalLine

end TraceTimeline
