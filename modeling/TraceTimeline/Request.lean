import TraceTimeline.Json.Record
import TraceTimeline.Step.Basic

/-!
# Requests

What the client sends to the backend: to move to a recorded step, to take over an edited line of
source, or to resume the program.  A request is an object whose `type` says which of the three it
is.
-/

namespace TraceTimeline

/-- A message to the backend. -/
inductive Request where
  /-- Move the program to a recorded step. -/
  | selectStep (id : StepId)
  /-- Replace the text of a source line. -/
  | updateCode (line : SourceLine) (code : String)
  /-- Resume the program. -/
  | resume
deriving DecidableEq, Repr

namespace Request

/-- The value of a request on the wire. -/
def toJson : Request → Json
  | .selectStep id =>
    .obj [("type", .str "new_timeline_id"), ("new_timeline_id", .nat id.toNat)]
  | .updateCode line code =>
    .obj [("type", .str "update_node_code"), ("lineno", .nat line.toNat),
      ("code_segment", .str code)]
  | .resume => .obj [("type", .str "continue")]

def encode (r : Request) : String := r.toJson.compact

def stepField : Field := ⟨["new_timeline_id"], 0⟩

def lineField : Field := ⟨["lineno"], 0⟩

def codeField : Field := ⟨["code_segment"], 1⟩

/-- The type of a request and the record of its other fields: an object has a member `type`, and a
list begins with the type. -/
def split? (v : Layer Nested) : Option (String × Record Nested) :=
  match v with
  | .obj members =>
    match members.filter (·.1 = "type") with
    | [m] => do return (← Source.string? m.2, .named (members.filter (·.1 ≠ "type")))
    | _ => none
  | .arr (head :: rest) => do return (← Source.string? head, .listed rest)
  | _ => none

/-- Whether all parts of a record are well formed, known to it or not. -/
def wellFormed (r : Record Nested) : Bool :=
  match r with
  | .named members => members.all fun m => (Source.value? m.2).isSome
  | .listed items => items.all fun i => (Source.value? i).isSome

/-- Whether a record that lists its fields has at most so many of them. -/
def fits (arity : Nat) : Record Nested → Bool
  | .named _ => true
  | .listed items => items.length ≤ arity

/-- The request of a type with the other fields in a record. -/
def ofRecord? (type : String) (r : Record Nested) : Option Request :=
  match type with
  | "new_timeline_id" =>
    if fits 1 r then do return .selectStep (← r.required? stepField Source.uint64?) else none
  | "update_node_code" =>
    if fits 2 r then do
      return .updateCode (← r.required? lineField Source.uint32?)
        (← r.required? codeField Source.string?)
    else none
  | "continue" => if fits 0 r then some .resume else none
  | _ => none

def ofText? (s : String) : Option Request := do
  let layer ← Source.layer? (← Nested.ofText? s)
  let (type, r) ← split? layer
  if wellFormed r then ofRecord? type r else none

end Request

end TraceTimeline
