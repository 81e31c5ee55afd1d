import TraceTimeline.CommandLine.Complaint

/-!
# Invocations

The words of a command line are read from left to right.  An option takes its value from the same
word, after an equals sign, or from the next word, which may not look like an option.  A value is
looked at when the next word is understood, so that a word that is not understood is reported before
a bad value in front of it.  After the word `--` every word is a value.

`Invocation.ofWords` gives what the words ask for; or the help text or version that they ask for; or
what is wrong with them.
-/

namespace TraceTimeline.CommandLine

/-- Why a command line is not carried out. -/
inductive Stop where
  | help (level : Level)
  | helpOnHelp
  | version
  | complaint (c : Complaint)
deriving DecidableEq, Repr

/-- What a command line asks for. -/
inductive Task where
  | follow
  | inspect (path : String) (position : Option StepId) (policy : Option CarryPolicy)
  | resume
  | seek (id : StepId)
  | restart
deriving DecidableEq, Repr

/-- A command line that was understood. -/
structure Invocation where
  dataDirectory : Option String
  httpUrl : Option String
  wsUrl : Option String
  task : Task
deriving DecidableEq, Repr

/-! ## Words -/

/-- The values that were given so far. -/
abbrev Values := List (Argument × String)

/-- How far a level was read. -/
structure Progress where
  /-- The values that were looked at. -/
  values : Values
  /-- The argument that was understood last, and its value, which was not looked at; an option may
  still be without its value. -/
  pending : Option (Argument × Option String)
  /-- The positions that no value was given for. -/
  positionals : List Argument
  /-- Whether every further word is a value. -/
  valuesOnly : Bool

namespace Progress

/-- The beginning of a level. -/
def start (level : Level) : Progress := ⟨[], none, level.positionals, false⟩

/-- Looks at a value. -/
def accept (p : Progress) (a : Argument) (value : String) : Except UsageError Progress :=
  if (p.values.map (·.1)).contains a then .error (.repeated a)
  else
    match a.fault? value with
    | none => .ok { p with values := p.values ++ [(a, value)] }
    | some .missing => .error (.valueMissing a)
    | some (.invalid reason) => .error (.valueInvalid value a reason)

/-- Looks at the value of the argument that was understood last. -/
def resolve (p : Progress) : Except UsageError Progress :=
  match p.pending with
  | none => .ok p
  | some (a, none) => .error (.valueMissing a)
  | some (a, some value) => { p with pending := none }.accept a value

/-- Whether an option is waiting for its value. -/
def isWaiting (p : Progress) : Bool :=
  match p.pending with
  | some (_, none) => true
  | _ => false

/-- The word as the value of the option that is waiting for one. -/
def supply (p : Progress) (word : String) : Progress :=
  { p with pending := p.pending.map fun (a, _) => (a, some word) }

/-- The word as a value at the next position. -/
def place (p : Progress) (word : String) : Except UsageError Progress :=
  match p.positionals with
  | [] => .error (.unexpected word)
  | a :: rest => do
    let p ← p.resolve
    return { p with pending := some (a, some word), positionals := rest }

/-- The arguments that were used up to a word that is not understood.  The one that was understood
last is among them, unless it is without its value; if it was given before, it does not count at
all. -/
def used (p : Progress) : List Argument :=
  let seen := p.values.map (·.1)
  match p.pending with
  | some (a, some _) => if seen.contains a then seen.filter (· ≠ a) else seen ++ [a]
  | _ => seen

end Progress

/-- A name, and the value that follows it after an equals sign. -/
def nameAndValue (cs : List Char) : String × Option String :=
  match cs.dropWhile (· ≠ '=') with
  | [] => (String.ofList cs, none)
  | _ :: value => (String.ofList (cs.takeWhile (· ≠ '=')), some (String.ofList value))

/-- Reports an error of a level. -/
def report {α : Type} (level : Level) : Except UsageError α → Except Stop α
  | .ok a => .ok a
  | .error e => .error (.complaint (.ofError level e))

/-- The complaint about an option that a level does not know, in front of some words.  An option
with a similar name is shown in the usage as if it had been used. -/
def unknownOption (level : Level) (p : Progress) (name : String) (words : List String) :
    Complaint :=
  let error := .unexpected ("--" ++ name)
  let used := p.used.map Flag.value
  match Hint.nearestFlag? level name with
  | some flag =>
    let shown := if used.contains flag then used else used ++ [flag]
    ⟨error, some (.option flag), some (.narrowed level shown)⟩
  | none =>
    let hint := match level with
      | none => Hint.ofLaterOption? name words
      | some _ => Hint.ofValue? level ("--" ++ name)
    ⟨error, hint, some (if used.isEmpty then .general level else .narrowed level used)⟩

/-- The complaint about a letter that no option of a level has. -/
def unknownLetter (level : Level) (letter : Char) : Complaint :=
  let word := String.ofList ['-', letter]
  ⟨.unexpected word, Hint.ofValue? level word, some (.general level)⟩

/-- The complaint about a value for an option that takes none.  The usage names the option after
those that were used; if one of them was declared at this level, it gives the choice of all. -/
def unneededValue (level : Level) (p : Progress) (value : String) (flag : Flag) : Complaint :=
  let used := p.values.map (·.1)
  let shown := (used.filter fun a => ! level.positionals.contains a).map Flag.value ++ [flag]
  ⟨.valueUnneeded value flag, none, some <|
    if used.any level.own.contains then .choice level shown else .narrowed level shown⟩

/-- Stops for the text that an option asks for. -/
def stopFor (level : Level) : Flag → Stop
  | .version => .version
  | _ => .help level

/-- Reads the name of an option and the value that comes with it, in front of some words. -/
def readOption (level : Level) (p : Progress) (name : String) (value : Option String)
    (words : List String) : Except Stop Progress :=
  match level.flag? name, value with
  | none, _ => .error (.complaint (unknownOption level p name words))
  | some (.value a), some v => do (← report level p.resolve).accept a v |> report level
  | some (.value a), none => do return { ← report level p.resolve with pending := some (a, none) }
  | some f, some v => .error (.complaint (unneededValue level p v f))
  | some f, none => do
    let _ ← report level p.resolve
    .error (stopFor level f)

/-- Reads the letter of an option. -/
def readLetter (level : Level) (p : Progress) (letter : Char) : Except Stop Progress :=
  match level.letterFlag? letter with
  | some f => do
    let _ ← report level p.resolve
    .error (stopFor level f)
  | none => .error (.complaint (unknownLetter level letter))

/-- Reads one word of a level, in front of some words. -/
def readWord (level : Level) (p : Progress) (word : String) (words : List String) :
    Except Stop Progress :=
  if p.valuesOnly then report level (p.place word)
  else
    match word.toList with
    | ['-', '-'] => .ok { p with valuesOnly := true }
    | '-' :: '-' :: cs =>
      let (name, value) := nameAndValue cs
      readOption level p name value words
    | '-' :: c :: _ => readLetter level p c
    | _ => if p.isWaiting then .ok (p.supply word) else report level (p.place word)

/-- The values of a level, after its last word.  A value has to be given for every position. -/
def finish (level : Level) (p : Progress) : Except Stop Values := do
  let p ← report level p.resolve
  if p.positionals.isEmpty then return p.values
  else
    let used := p.values.map fun v => Flag.value v.1
    .error (.complaint ⟨.argumentsMissing p.positionals, none, some (.narrowed level used)⟩)

/-! ## Levels -/

/-- Reads the words of a subcommand. -/
def readSubcommand (c : Subcommand) (p : Progress) : List String → Except Stop Values
  | [] => finish (some c) p
  | word :: words => do readSubcommand c (← readWord (some c) p word words) words

/-- The help text that the words after `help` ask for. -/
def helpFor : List String → Stop
  | [] => .help none
  | word :: words =>
    if word = "help" then
      match words with
      | [] => .helpOnHelp
      | w :: _ => .complaint ⟨.unknownSubcommand w, none, some .help⟩
    else
      match Subcommand.ofName? word, words with
      | none, _ => .complaint (.ofError none (.unknownSubcommand word))
      | some c, [] => .help (some c)
      | some c, w :: _ => .complaint (.ofError (some c) (.unknownSubcommand w))

/-- The complaint about a word that should be a subcommand. -/
def notASubcommand (p : Progress) (word : String) : Complaint :=
  if p.valuesOnly ∧ (word = "help" ∨ (Subcommand.ofName? word).isSome) then
    ⟨.unexpected word, some (.withoutHyphens word), some (.general none)⟩
  else ⟨.unknownSubcommand word, Hint.ofSubcommand? word, some (.general none)⟩

/-- Reads the words of the program: the values given before the subcommand, and the subcommand with
the values given after it. -/
def readProgram (p : Progress) : List String → Except Stop (Values × Option (Subcommand × Values))
  | [] => do return (← finish none p, none)
  | word :: words =>
    if p.valuesOnly then .error (.complaint (notASubcommand p word))
    else if p.isWaiting ∨ word.toList.head? = some '-' ∧ word ≠ "-" then do
      readProgram (← readWord none p word words) words
    else if word = "help" then .error (helpFor words)
    else
      match Subcommand.ofName? word with
      | none => .error (.complaint (notASubcommand p word))
      | some c => do
        let inner ← readSubcommand c (Progress.start (some c)) words
        return (← finish none p, some (c, inner))

/-! ## Tasks -/

/-- The value that was given for an argument. -/
def valueOf (a : Argument) (values : Values) : Option String :=
  (values.find? (·.1 = a)).map (·.2)

/-- The step number that was given for an argument. -/
def stepOf (a : Argument) (values : Values) : Option StepId :=
  (valueOf a values).bind fun s => Text.readUInt64? s.toList

/-- The policy that was given. -/
def policyOf (values : Values) : Option CarryPolicy :=
  (valueOf .policy values).bind fun s => (CarryPolicy.ofName s).toOption

/-- The task of a subcommand with its values. -/
def taskOf (values : Values) : Subcommand → Task
  | .follow => .follow
  | .inspect =>
    .inspect ((valueOf .path values).getD "") (stepOf .position values) (policyOf values)
  | .resume => .resume
  | .seek => .seek ((stepOf .stepId values).getD 0)
  | .restart => .restart

/-- What the words of a command line ask for.  Without a subcommand it is to follow.  Of a value
given before and after the subcommand the latter counts. -/
def Invocation.ofWords (words : List String) : Except Stop Invocation := do
  let (outer, chosen) ← readProgram (Progress.start none) words
  let (c, inner) := chosen.getD (.follow, [])
  let values := inner ++ outer
  return {
    dataDirectory := valueOf .dataDirectory values
    httpUrl := valueOf .httpUrl values
    wsUrl := valueOf .wsUrl values
    task := taskOf values c }

end TraceTimeline.CommandLine
