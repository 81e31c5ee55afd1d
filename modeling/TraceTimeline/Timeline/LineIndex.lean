import TraceTimeline.Step.Basic

/-!
# The line index

For every line of the source, the numbers of the steps that are at that line.  Lines without steps
are not in the index.
-/

namespace TraceTimeline

/-- A finite set of step numbers. -/
abbrev StepIds := OrderedMap StepId Unit

/-- The numbers of the steps at every line. -/
abbrev LineIndex := OrderedMap SourceLine StepIds

namespace LineIndex

/-- The numbers of the steps at a line, in ascending order. -/
def stepsAt (index : LineIndex) (line : SourceLine) : List StepId :=
  match index.get? line with
  | some ids => ids.keys
  | none => []

/-- The index with a step at a line; a step without a line is not entered. -/
def enter (index : LineIndex) (line : Option SourceLine) (id : StepId) : LineIndex :=
  match line with
  | none => index
  | some line => index.insert line (((index.get? line).getD OrderedMap.empty).insert id ())

/-- The index without a step at a line; the line itself goes when no step is left at it. -/
def leave (index : LineIndex) (line : Option SourceLine) (id : StepId) : LineIndex :=
  match line with
  | none => index
  | some line =>
    match index.get? line with
    | none => index
    | some ids =>
      let ids := ids.erase id
      if ids.isEmpty then index.erase line else index.insert line ids

/-- The greatest number of a step at a line. -/
def latest? (index : LineIndex) (line : SourceLine) : Option StepId := (index.stepsAt line).getLast?

/-- The greatest number, up to a bound, of a step at a line. -/
def latestUpTo? (index : LineIndex) (line : SourceLine) (bound : StepId) : Option StepId :=
  ((index.stepsAt line).filter (· ≤ bound)).getLast?

end LineIndex

end TraceTimeline
