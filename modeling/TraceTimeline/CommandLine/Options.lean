import TraceTimeline.Text.Numeral
import TraceTimeline.Timeline.Scope

/-!
# The command line's vocabulary

The subcommands of the client, the values they take, and the help text for them.  Three options may
be given before or after the subcommand: where the client keeps its files and the two addresses of
the backend.
-/

namespace TraceTimeline.CommandLine

def programName : String := "retrace"

def version : String := "0.1.0"

/-- What the program is for. -/
def purpose : String := "Follow, scrub and inspect a traced program's execution timeline"

/-- What the program can do. -/
inductive Subcommand where
  | follow
  | inspect
  | resume
  | seek
  | restart
deriving DecidableEq, Repr

/-- A value that is given on the command line. -/
inductive Argument where
  | dataDirectory
  | httpUrl
  | wsUrl
  | position
  | policy
  | path
  | stepId
deriving DecidableEq, Repr

namespace Subcommand

def all : List Subcommand := [follow, inspect, resume, seek, restart]

/-- The name of a subcommand. -/
def name : Subcommand → String
  | follow => "follow"
  | inspect => "inspect"
  | resume => "continue"
  | seek => "seek"
  | restart => "restart"

/-- What a subcommand does. -/
def purpose : Subcommand → String
  | follow => "Connect and follow execution live, reading commands from stdin (default)"
  | inspect => "Reconstruct the scope from a saved sync payload without connecting"
  | resume => "Resume the paused program"
  | seek => "Move execution to a recorded step"
  | restart => "Start a new run of the traced program"

def ofName? (s : String) : Option Subcommand := all.find? (·.name = s)

/-- The values that a subcommand takes by their positions.  All of them have to be given. -/
def positionals : Subcommand → List Argument
  | inspect => [.path]
  | seek => [.stepId]
  | _ => []

end Subcommand

namespace Argument

/-- The name of an option, without the two hyphens. -/
def optionName? : Argument → Option String
  | dataDirectory => some "data-dir"
  | httpUrl => some "http-url"
  | wsUrl => some "ws-url"
  | position => some "at"
  | policy => some "policy"
  | path => none
  | stepId => none

/-- What stands for the value in help texts. -/
def valueName : Argument → String
  | dataDirectory => "DATA_DIR"
  | httpUrl => "HTTP_URL"
  | wsUrl => "WS_URL"
  | position => "AT"
  | policy => "POLICY"
  | path => "PATH"
  | stepId => "ID"

/-- What a value is for. -/
def purpose : Argument → String
  | dataDirectory => "Data directory (default: ~/.retrace)"
  | httpUrl => "Base URL of the backend's HTTP API"
  | wsUrl => "WebSocket URL of the backend's push channel"
  | position => "Step to reconstruct at (default: the payload's selected step)"
  | policy => "How return values and errors carry over between steps"
  | path => "File holding a sync payload or a full `sync` frame"
  | stepId => ""

/-- How a value is named to the user. -/
def label (a : Argument) : String :=
  let value := "<" ++ a.valueName ++ ">"
  match a.optionName? with
  | some name => "--" ++ name ++ " " ++ value
  | none => value

end Argument

/-! ## Values -/

/-- Why a text is no step number. -/
inductive NumeralFault where
  | empty
  | badDigit
  | tooLarge
deriving DecidableEq, Repr

/-- The wording of a fault. -/
def NumeralFault.message : NumeralFault → String
  | .empty => "cannot parse integer from empty string"
  | .badDigit => "invalid digit found in string"
  | .tooLarge => "number too large to fit in target type"

/-- The first fault of a run of digits that follows digits of some value. -/
def digitFault? (value : Nat) : List Char → Option NumeralFault
  | [] => none
  | c :: cs =>
    match Text.digitIn? 10 c with
    | none => some .badDigit
    | some d =>
      if UInt64.size ≤ value * 10 + d then some .tooLarge else digitFault? (value * 10 + d) cs

/-- The first fault of a step number. -/
def numeralFault? : List Char → Option NumeralFault
  | [] => some .empty
  | ['+'] => some .badDigit
  | '+' :: cs => digitFault? 0 cs
  | cs => digitFault? 0 cs

/-- Why a value is not accepted. -/
inductive ValueFault where
  /-- It is empty. -/
  | missing
  /-- It is not of the right form. -/
  | invalid (reason : String)
deriving DecidableEq, Repr

/-- Why a value is not accepted for an argument, if it is not. -/
def Argument.fault? (a : Argument) (value : String) : Option ValueFault :=
  let path := if value = "" then some .missing else none
  let number := (numeralFault? value.toList).map fun f => .invalid f.message
  match a with
  | .dataDirectory => path
  | .path => path
  | .httpUrl => none
  | .wsUrl => none
  | .position => number
  | .stepId => number
  | .policy =>
    match CarryPolicy.ofName value with
    | .ok _ => none
    | .error e => some (.invalid e.message)

/-! ## Levels -/

/-- An option: one that takes a value, or one that asks for a text about the program. -/
inductive Flag where
  | value (argument : Argument)
  | help
  | version
deriving DecidableEq, Repr

namespace Flag

/-- The name of an option, without the two hyphens. -/
def name : Flag → String
  | value a => a.optionName?.getD ""
  | help => "help"
  | version => "version"

/-- How an option is named to the user. -/
def label : Flag → String
  | value a => a.label
  | f => "--" ++ f.name

end Flag

/-- A level of the command line: the program itself, or one of its subcommands. -/
abbrev Level := Option Subcommand

namespace Level

/-- The arguments that every level takes. -/
def shared : List Argument := [.dataDirectory, .httpUrl, .wsUrl]

/-- The arguments that are declared at a level. -/
def own : Level → List Argument
  | none => shared
  | some .inspect => [.path, .position, .policy]
  | some .seek => [.stepId]
  | some _ => []

/-- The arguments of a level: its own, and then those that it has from the program. -/
def arguments (level : Level) : List Argument :=
  level.own ++ if level.isSome then shared else []

/-- The options of a level in the order in which they are listed, which is that of their names. -/
def options : Level → List Argument
  | some .inspect => [.position, .dataDirectory, .httpUrl, .policy, .wsUrl]
  | _ => shared

/-- The values that a level takes by their positions. -/
def positionals : Level → List Argument
  | some c => c.positionals
  | none => []

/-- All options of a level. -/
def flags (level : Level) : List Flag :=
  (level.arguments.filter (·.optionName?.isSome)).map .value ++ [.help] ++
    if level = none then [.version] else []

/-- The option that a level knows by a name. -/
def flag? (level : Level) (name : String) : Option Flag := level.flags.find? (·.name = name)

/-- The option that a level knows by a letter. -/
def letterFlag? (level : Level) (letter : Char) : Option Flag :=
  if letter = 'h' then some .help
  else if letter = 'V' ∧ level = none then some .version
  else none

/-- The words that lead to a level. -/
def title : Level → String
  | none => programName
  | some c => programName ++ " " ++ c.name

end Level

end TraceTimeline.CommandLine
