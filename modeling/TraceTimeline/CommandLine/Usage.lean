import TraceTimeline.CommandLine.Options

/-!
# Usage and help

How the command line is used, in one line or at length.  The line is that of a level in general, or
it names the options that were used and what has to be given with them.
-/

namespace TraceTimeline.CommandLine

/-- A line about how the command line is used. -/
inductive Usage where
  /-- Whatever a level takes. -/
  | general (level : Level)
  /-- What has to be given at a level, with some of its options. -/
  | narrowed (level : Level) (flags : List Flag)
  /-- Some options of a level, with a choice of the arguments that are declared there. -/
  | choice (level : Level) (flags : List Flag)
  /-- How to ask for help. -/
  | help
deriving DecidableEq, Repr

namespace Usage

/-- Words with a space in front of each. -/
def spaced (words : List String) : String := String.join (words.map (" " ++ ·))

/-- The labels of a level's positions. -/
def positions (level : Level) : List String := level.positionals.map (·.label)

/-- What an option is shown as in front of the positions, if it is an option. -/
def optionLabel? : Flag → Option String
  | .value a => a.optionName?.map fun _ => a.label
  | f => some f.label

/-- Whether an option takes one of the arguments that are declared at a level. -/
def takesOwn (level : Level) : Flag → Bool
  | .value a => level.own.contains a
  | _ => false

/-- The arguments that are declared at a level, as a choice. -/
def choiceLabel (level : Level) : String :=
  "<" ++ String.intercalate "|" (level.own.map fun a =>
    if a.optionName?.isSome then a.label else a.valueName) ++ ">"

/-- What follows the words that lead to the level. -/
def rest : Usage → List String
  | general none => ["[OPTIONS]", "[COMMAND]"]
  | general level => "[OPTIONS]" :: positions level
  | narrowed level flags => flags.filterMap optionLabel? ++ positions level
  | choice level flags =>
    (flags.filter fun f => ! takesOwn level f).filterMap optionLabel? ++ [choiceLabel level]
  | help => ["[COMMAND]..."]

/-- The words that lead to the level. -/
def title : Usage → String
  | general level => level.title
  | narrowed level _ => level.title
  | choice level _ => level.title
  | help => programName ++ " help"

/-- The wording of a line. -/
def text (u : Usage) : String := "Usage: " ++ u.title ++ spaced u.rest

end Usage

/-! ## Help -/

namespace Level

/-- A term and its explanation, the term filled up to a width. -/
def entry (width : Nat) (term explanation : String) : String :=
  "  " ++ term ++ String.ofList (List.replicate (width - term.toList.length) ' ') ++ "  " ++
    explanation ++ "\n"

/-- A titled table of terms and explanations; nothing if there are none. -/
def table (title : String) (entries : List (String × String)) : String :=
  if entries.isEmpty then ""
  else
    let width := entries.foldl (fun w e => max w e.1.toList.length) 0
    "\n" ++ title ++ ":\n" ++ String.join (entries.map fun e => entry width e.1 e.2)

/-- The options of a level with explanations. -/
def optionEntries (level : Level) : List (String × String) :=
  level.options.map (fun a => ("    " ++ a.label, a.purpose)) ++ [("-h, --help", "Print help")] ++
    if level = none then [("-V, --version", "Print version")] else []

/-- The subcommands with explanations. -/
def subcommandEntries (level : Level) : List (String × String) :=
  if level = none then
    Subcommand.all.map (fun c => (c.name, c.purpose)) ++
      [("help", "Print this message or the help of the given subcommand(s)")]
  else []

/-- The help text of a level. -/
def help (level : Level) : String :=
  (match level with
    | none => CommandLine.purpose
    | some c => c.purpose) ++ "\n\n" ++ (Usage.general level).text ++ "\n" ++
  table "Commands" level.subcommandEntries ++
  table "Arguments" (level.positionals.map fun a => (a.label, a.purpose)) ++
  table "Options" level.optionEntries

end Level

/-- The help text of the subcommand that prints help. -/
def helpOnHelp : String :=
  "Print this message or the help of the given subcommand(s)\n\n" ++ Usage.help.text ++ "\n" ++
    Level.table "Arguments" [("[COMMAND]...", "Print help for the subcommand(s)")]

end TraceTimeline.CommandLine
