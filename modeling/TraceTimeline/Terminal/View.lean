import TraceTimeline.Terminal.Line

/-!
# The terminal view

The view writes the state of an engine to a terminal, line by line, and only what changed since it
last wrote: the connection when its state is another, every step that is new or shown differently,
every output entry once it is sealed, and the cursor when it moved.  When the time line was replaced
the view says so and shows all steps anew.
-/

namespace TraceTimeline

/-- What the view remembers of what it wrote. -/
structure View where
  /-- The epoch of the time line that is shown. -/
  epoch : Option Nat
  /-- The steps that are shown and still in the time line. -/
  steps : OrderedMap StepId String
  cursor : Option StepId
  /-- The output entries that were written and are still kept. -/
  entries : OrderedMap Nat Unit
  connection : Option ConnectionState
deriving DecidableEq

namespace View

/-- The view before it wrote anything. -/
def new : View where
  epoch := none
  steps := OrderedMap.empty
  cursor := none
  entries := OrderedMap.empty
  connection := none

/-- Writes the state of the connection if it changed. -/
def renderConnection (v : View) (e : Engine) : View × List TerminalLine :=
  if v.connection = some e.connection then (v, [])
  else ({ v with connection := some e.connection }, [.connection e.connection])

/-- Announces a new time line, and forgets the steps and the cursor of the old one. -/
def renderEpoch (v : View) (e : Engine) : View × List TerminalLine :=
  if v.epoch = some e.epoch then (v, [])
  else ({ v with epoch := some e.epoch, steps := OrderedMap.empty, cursor := none },
    [.banner e.store.size])

/-- Writes a step unless it is shown as it is. -/
def renderStep (shown : OrderedMap StepId String) (step : Step) :
    OrderedMap StepId String × List TerminalLine :=
  let text := TerminalLine.showStep step
  if shown.get? step.id = some text then (shown, [])
  else (shown.insert step.id text, [.step step.id text])

/-- Writes the steps of a list that are not shown as they are. -/
def renderStepList (shown : OrderedMap StepId String) :
    List Step → OrderedMap StepId String × List TerminalLine
  | [] => (shown, [])
  | step :: rest =>
    let (shown, lines) := renderStep shown step
    let (shown, more) := renderStepList shown rest
    (shown, lines ++ more)

/-- Writes new and changed steps, and forgets those that left the time line. -/
def renderSteps (v : View) (e : Engine) : View × List TerminalLine :=
  let (shown, lines) := renderStepList v.steps e.store.steps.toList
  ({ v with steps := shown.filterKeys e.store.contains }, lines)

/-- Writes the sealed entries of a list that were not written before. -/
def renderEntryList (written : OrderedMap Nat Unit) :
    List OutputEntry → OrderedMap Nat Unit × List TerminalLine
  | [] => (written, [])
  | e :: rest =>
    if e.flushed ∧ written.get? e.id = none then
      let (written, lines) := renderEntryList (written.insert e.id ()) rest
      (written, .sealed e.id e.channel e.text :: lines)
    else renderEntryList written rest

/-- Writes newly sealed entries, and forgets those that are not kept any more. -/
def renderEntries (v : View) (e : Engine) : View × List TerminalLine :=
  let (written, lines) := renderEntryList v.entries e.output.entries
  let kept (id : Nat) : Bool := e.output.entries.any (·.id = id)
  ({ v with entries := written.filterKeys kept }, lines)

/-- Writes the cursor if it moved. -/
def renderCursor (v : View) (e : Engine) : View × List TerminalLine :=
  if e.cursor = v.cursor then (v, [])
  else ({ v with cursor := e.cursor },
    match e.cursor with
    | some id => [.cursor id e.highlighted e.store.follow]
    | none => [])

/-- Writes all that changed. -/
def render (v : View) (e : Engine) : View × List TerminalLine :=
  let (v, connection) := v.renderConnection e
  let (v, epoch) := v.renderEpoch e
  let (v, steps) := v.renderSteps e
  let (v, entries) := v.renderEntries e
  let (v, cursor) := v.renderCursor e
  (v, connection ++ epoch ++ steps ++ entries ++ cursor)

/-- The scope at the cursor, on request. -/
def scopeLines (e : Engine) : List TerminalLine := [.scope e.scope]

/-- All output entries, on request. -/
def outputLines (e : Engine) : List TerminalLine := e.output.entries.map .entry

end View

end TraceTimeline
