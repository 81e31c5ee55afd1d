import TraceTimeline.Operator.Command

/-!
# Operator input

The operator's terminal delivers bytes.  A command is heard when its line is complete, or when the
input ends after it.  A line whose bytes are not text ends the input, and nothing after it is heard.
-/

namespace TraceTimeline

/-- Something that the operator said. -/
inductive Utterance where
  | command (command : Command)
  /-- A line that is no command. -/
  | mistake (error : CommandError)
  /-- There will be no more commands. -/
  | ended
deriving DecidableEq, Repr

/-- The input as far as it was not heard yet. -/
structure OperatorInput where
  /-- The bytes after the last line end. -/
  pending : List UInt8
  /-- Whether the input has ended. -/
  ended : Bool
deriving DecidableEq, Repr

namespace OperatorInput

def empty : OperatorInput := ⟨[], false⟩

def lineEnd : UInt8 := 10

/-- The complete lines of some bytes, without their line ends, and the bytes after the last one. -/
def splitLines : List UInt8 → List (List UInt8) × List UInt8
  | [] => ([], [])
  | b :: bytes =>
    match splitLines bytes with
    | (lines, rest) =>
      if b = lineEnd then ([] :: lines, rest)
      else
        match lines with
        | [] => ([], b :: rest)
        | line :: lines => ((b :: line) :: lines, rest)

/-- What a line of text says; a blank line says nothing. -/
def utterances (line : String) : List Utterance :=
  match Command.parse line with
  | .ok none => []
  | .ok (some c) => [.command c]
  | .error e => [.mistake e]

/-- What a list of lines says, up to the first one that is not text. -/
def hearLines : List (List UInt8) → List Utterance
  | [] => []
  | line :: lines =>
    match String.fromUTF8? ⟨line.toArray⟩ with
    | none => [.ended]
    | some text => utterances text ++ hearLines lines

/-- The input after more bytes arrived, and what they say. -/
def feed (i : OperatorInput) (bytes : List UInt8) : OperatorInput × List Utterance :=
  if i.ended then (i, [])
  else
    let (lines, rest) := splitLines (i.pending ++ bytes)
    let heard := hearLines lines
    (⟨rest, heard.contains .ended⟩, heard)

/-- The input after it was closed, and what its last line says. -/
def close (i : OperatorInput) : OperatorInput × List Utterance :=
  if i.ended then (i, [])
  else
    let heard := if i.pending.isEmpty then [] else hearLines [i.pending]
    (⟨[], true⟩, if heard.contains .ended then heard else heard ++ [.ended])

end OperatorInput

end TraceTimeline
