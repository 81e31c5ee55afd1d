import TraceTimeline.CommandLine.Usage
import TraceTimeline.Text.ControlSequence
import TraceTimeline.Text.Similarity

/-!
# Complaints

What the user is told about a command line that was not understood: what is wrong with it, a hint at
what may have been meant, and how the command line is used.

The user's own words are set off from the rest.  A complaint is written where there is no terminal,
so that the marks for this are left out again, and with them the control characters and sequences
that the words themselves hold.
-/

namespace TraceTimeline.CommandLine

open Text (emphasized)

/-- What is wrong with a command line. -/
inductive UsageError where
  | unexpected (word : String)
  | unknownSubcommand (word : String)
  /-- An argument without its value. -/
  | valueMissing (argument : Argument)
  | valueInvalid (value : String) (argument : Argument) (reason : String)
  /-- A value for an option that takes none. -/
  | valueUnneeded (value : String) (flag : Flag)
  /-- An option that is given more than once. -/
  | repeated (argument : Argument)
  | argumentsMissing (arguments : List Argument)
deriving DecidableEq, Repr

/-- The wording of an error. -/
def UsageError.message : UsageError → String
  | .unexpected word => "unexpected argument '" ++ emphasized word ++ "' found"
  | .unknownSubcommand word => "unrecognized subcommand '" ++ emphasized word ++ "'"
  | .valueMissing a => "a value is required for '" ++ a.label ++ "' but none was supplied"
  | .valueInvalid value a reason =>
    "invalid value '" ++ emphasized value ++ "' for '" ++ emphasized a.label ++ "': " ++ reason
  | .valueUnneeded value flag =>
    "unexpected value '" ++ emphasized value ++ "' for '" ++ emphasized flag.label ++
      "' found; no more were expected"
  | .repeated a => "the argument '" ++ a.label ++ "' cannot be used multiple times"
  | .argumentsMissing as =>
    "the following required arguments were not provided:" ++
      String.join (as.map fun a => "\n  " ++ a.label)

/-- A hint at what may have been meant. -/
inductive Hint where
  /-- Subcommands with similar names. -/
  | subcommands (names : List String)
  /-- An option with a similar name. -/
  | option (flag : Flag)
  /-- An option with a similar name, of a subcommand that is named later. -/
  | optionOf (command : Subcommand) (flag : Flag)
  /-- The word is a value, although it looks like an option. -/
  | asValue (word : String)
  /-- The word is a subcommand, although only values were expected. -/
  | withoutHyphens (name : String)
deriving DecidableEq, Repr

/-- The wording of a hint. -/
def Hint.message : Hint → String
  | .subcommands names =>
    (if names.length = 1 then "a similar subcommand exists: "
      else "some similar subcommands exist: ") ++
    String.intercalate ", " (names.map fun name => "'" ++ name ++ "'")
  | .option flag => "a similar argument exists: '--" ++ flag.name ++ "'"
  | .optionOf command flag => "'" ++ command.name ++ " --" ++ flag.name ++ "' exists"
  | .asValue word =>
    "to pass '" ++ emphasized word ++ "' as a value, use '-- " ++ emphasized word ++ "'"
  | .withoutHyphens name =>
    "subcommand '" ++ name ++ "' exists; to use it, remove the '--' before it"

namespace Hint

/-- The option of a level whose name is most alike a word, if one is much alike it. -/
def nearestFlag? (level : Level) (word : String) : Option Flag :=
  (Text.nearestName? word (level.flags.map (·.name))).bind level.flag?

/-- A hint at an option of the first subcommand among some words that has one with a similar
name. -/
def ofLaterOption? (word : String) (words : List String) : Option Hint :=
  words.findSome? fun w => do
    let c ← Subcommand.ofName? w
    return .optionOf c (← nearestFlag? (some c) word)

/-- The hint that a word may be a value, at a level that takes values by their positions. -/
def ofValue? (level : Level) (word : String) : Option Hint :=
  if level.positionals.isEmpty then none else some (.asValue word)

/-- A hint at subcommands with similar names. -/
def ofSubcommand? (word : String) : Option Hint :=
  match Text.similarNames word (Subcommand.all.map (·.name) ++ ["help"]) with
  | [] => none
  | names => some (.subcommands names)

end Hint

/-- What the user is told about a command line. -/
structure Complaint where
  error : UsageError
  hint : Option Hint
  usage : Option Usage
deriving DecidableEq, Repr

namespace Complaint

/-- An error at a level.  Where words are out of place or missing, the general usage is shown. -/
def ofError (level : Level) (e : UsageError) : Complaint where
  error := e
  hint := none
  usage :=
    match e with
    | .valueMissing _ => none
    | .valueInvalid .. => none
    | _ => some (.general level)

/-- The last words, which say where to find more.  About help itself there is no more. -/
def closing (c : Complaint) : String :=
  if c.usage = some .help then "\n"
  else "\n\nFor more information, try '" ++ emphasized "--help" ++ "'.\n"

/-- The wording of a complaint. -/
def text (c : Complaint) : String :=
  Text.plain <| "error: " ++ c.error.message ++
    (match c.hint with
      | none => ""
      | some h => "\n\n  tip: " ++ h.message) ++
    (match c.usage with
      | none => ""
      | some u => "\n\n" ++ u.text) ++
    c.closing

end Complaint

end TraceTimeline.CommandLine
