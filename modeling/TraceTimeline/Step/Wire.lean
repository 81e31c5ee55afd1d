import TraceTimeline.Json.Record
import TraceTimeline.Step.Basic

/-!
# Steps on the wire

How a step is read and written.  A step is a record of thirteen fields, several of which go by more
than one name.  Only the number of the step has to be given.

A step is written as an object under the first name of each field, in the order of the fields.  The
kind, the line and the two diffs are always written, the descriptive texts only where they are
known, and the three reports only where something was reported.
-/

namespace TraceTimeline.Step

/-! ## Fields -/

/-- The field of the step's number. -/
def idField : Field := ⟨["id", "sequence_id", "sequenceId"], 0⟩

def kindField : Field := ⟨["event", "kind"], 1⟩

def lineField : Field := ⟨["line_number", "source_line", "sourceLine"], 2⟩

def frameField : Field := ⟨["frame_id", "frameId"], 3⟩

def fileField : Field := ⟨["file"], 4⟩

def functionField : Field := ⟨["function"], 5⟩

def targetField : Field := ⟨["target"], 6⟩

def sourceTextField : Field := ⟨["source_segment"], 7⟩

def globalsField : Field := ⟨["global_diff", "globals_diff", "globalsDiff"], 8⟩

def localsField : Field := ⟨["local_diff", "locals_diff", "localsDiff"], 9⟩

def returnedField : Field := ⟨["return_value", "returnValue"], 10⟩

def errorField : Field := ⟨["error"], 11⟩

def tracebackField : Field := ⟨["traceback"], 12⟩

/-- The fields of a step in the order in which a list gives them. -/
def fields : List Field :=
  [idField, kindField, lineField, frameField, fileField, functionField, targetField,
   sourceTextField, globalsField, localsField, returnedField, errorField, tracebackField]

/-! ## Reading -/

section

variable {α β : Type} [Source α]

/-- The kind of event: a name, or `null` for an unnamed one. -/
def readKind? (a : α) : Option EventKind :=
  (Source.nullable? Source.string? a).map fun
    | none => .other
    | some s => .ofName s

/-- A report: `null`, or what `read` accepts. -/
def readReport? (read : α → Option β) (a : α) : Option (Reported β) :=
  (Source.nullable? read a).map .ofOption

/-- A diff, which may be any value at all. -/
def readDiff? (a : α) : Option Diff := (Source.value? a).map Diff.ofJson

/-- The step that a record holds. -/
def ofSource? (a : α) : Option Step := do
  let r ← Record.of? fields.length a
  let text := Source.nullable? (α := α) Source.string?
  return {
    id := ← r.required? idField Source.uint64?
    kind := ← r.optional? kindField .other readKind?
    line := ← r.optional? lineField none (Source.nullable? Source.uint32?)
    frame := ← r.optional? frameField none Source.identifier?
    file := ← r.optional? fileField none text
    function := ← r.optional? functionField none text
    target := ← r.optional? targetField none text
    sourceText := ← r.optional? sourceTextField none text
    globals := ← r.optional? globalsField Diff.none readDiff?
    locals := ← r.optional? localsField Diff.none readDiff?
    returned := ← r.optional? returnedField .absent (readReport? Source.value?)
    error := ← r.optional? errorField .absent (readReport? Source.value?)
    traceback := ← r.optional? tracebackField .absent (readReport? Source.string?) }

end

def ofJson? (v : Json) : Option Step := ofSource? v

def ofText? (s : String) : Option Step := (Nested.ofText? s).bind ofSource?

/-! ## Writing -/

/-- A member for a text that is written only where it is known. -/
def textMember (name : String) : Option String → List (String × Json)
  | none => []
  | some s => [(name, .str s)]

/-- A member for a report, which is written unless it is absent. -/
def reportMember {β : Type} (name : String) (write : β → Json) :
    Reported β → List (String × Json)
  | .absent => []
  | .null => [(name, .null)]
  | .value b => [(name, write b)]

/-- The members of a step's object, in the order of the fields. -/
def members (s : Step) : List (String × Json) :=
  [("id", .nat s.id.toNat), ("event", .str s.kind.name),
   ("line_number", .ofOption (fun n => .nat n.toNat) s.line)] ++
  textMember "frame_id" s.frame ++ textMember "file" s.file ++
  textMember "function" s.function ++ textMember "target" s.target ++
  textMember "source_segment" s.sourceText ++
  [("global_diff", s.globals.toJson), ("local_diff", s.locals.toJson)] ++
  reportMember "return_value" (fun v => v) s.returned ++
  reportMember "error" (fun v => v) s.error ++
  reportMember "traceback" Json.str s.traceback

def toJson (s : Step) : Json := .obj s.members

def wire (s : Step) : String := s.toJson.compact

end TraceTimeline.Step
