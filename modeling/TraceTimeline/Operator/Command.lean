import TraceTimeline.Step.Basic

/-!
# Operator commands

The operator types one command per line: a word and, for some words, a number and a text after it.
Blanks separate the parts, and blanks at either end of the line do not count.  The text of an `edit`
may hold blanks of its own.
-/

namespace TraceTimeline

/-- What the operator asks for. -/
inductive Command where
  /-- Resume the program. -/
  | resume
  /-- Pin the cursor to a step. -/
  | seek (id : StepId)
  /-- Move to the latest step at a line. -/
  | line (line : SourceLine)
  /-- Follow live again. -/
  | follow
  /-- Show the scope. -/
  | scope
  /-- Show the output entries. -/
  | output
  /-- Drop the output entries. -/
  | clear
  /-- Replace the text of a line. -/
  | edit (line : SourceLine) (code : String)
  /-- Start a new run. -/
  | restart
  | quit
deriving DecidableEq, Repr

/-- The number that a command takes. -/
inductive CommandArgument where
  | stepId
  | line
deriving DecidableEq, Repr

def CommandArgument.name : CommandArgument → String
  | .stepId => "step id"
  | .line => "line"

/-- Why a line is not a command. -/
inductive CommandError where
  | unknown (word : String)
  | missingArgument (argument : CommandArgument)
  | invalidNumber (text : String)
deriving DecidableEq, Repr

def CommandError.message : CommandError → String
  | .unknown word => "unknown command: " ++ word
  | .missingArgument argument => "missing argument: " ++ argument.name
  | .invalidNumber text => "not a number: " ++ text

namespace Command

/-- A number that a command takes. -/
def number {α : Type} (argument : CommandArgument) (read : List Char → Option α)
    (cs : List Char) : Except CommandError α :=
  if cs = [] then .error (.missingArgument argument)
  else match read cs with
    | some n => .ok n
    | none => .error (.invalidNumber (String.ofList cs))

/-- The command that a word and what comes after it spell. -/
def ofWord (word : String) (rest : List Char) : Except CommandError Command :=
  match word with
  | "c" => .ok .resume
  | "continue" => .ok .resume
  | "seek" => (number .stepId Text.readUInt64? rest).map .seek
  | "line" => (number .line Text.readUInt32? rest).map .line
  | "follow" => .ok .follow
  | "scope" => .ok .scope
  | "output" => .ok .output
  | "clear" => .ok .clear
  | "edit" =>
    let (target, code) := Text.wordAndRest rest
    (number .line Text.readUInt32? target).map fun n =>
      .edit n (String.ofList (Text.trimLeft code))
  | "restart" => .ok .restart
  | "q" => .ok .quit
  | "quit" => .ok .quit
  | "exit" => .ok .quit
  | word => .error (.unknown word)

/-- The command that a line without blanks at its ends spells, if it is not empty. -/
def parseTrimmed (cs : List Char) : Except CommandError Command :=
  let (word, rest) := Text.wordAndRest cs
  ofWord (String.ofList word) (Text.trimChars rest)

/-- The command that a line spells; a blank line spells none. -/
def parse (line : String) : Except CommandError (Option Command) :=
  match Text.trimChars line.toList with
  | [] => .ok none
  | cs => (parseTrimmed cs).map some

end Command

end TraceTimeline
