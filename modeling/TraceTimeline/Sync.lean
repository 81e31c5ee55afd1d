import TraceTimeline.Step.Wire

/-!
# Sync payloads

A sync payload is the whole state of the traced program's run as the backend knows it: the nodes of
the source, one per line, and the recorded steps, with the selected step and the selected node.  It
replaces what the client knew.

An identifier of a node or of a stack frame may be sent as a text or as a number; it is kept as
text.  Gaps in the list of steps are dropped.
-/

namespace TraceTimeline

/-- A source line as a sync payload describes it. -/
structure NodeSnapshot where
  id : String
  /-- The text of the line. -/
  sourceText : String
  /-- The frame that is executing the line. -/
  frame : Option String
deriving DecidableEq

/-- The whole state of a run. -/
structure SyncPayload where
  nodes : List NodeSnapshot
  timeline : List Step
  /-- The selected step; a negative number selects none. -/
  timelineId : Option Int
  /-- The selected node. -/
  nodeId : Option String
deriving DecidableEq

namespace NodeSnapshot

/-! ## Reading a node -/

def idField : Field := ⟨["id"], 0⟩

def dataField : Field := ⟨["data"], 1⟩

def sourceTextField : Field := ⟨["source_segment"], 0⟩

def frameField : Field := ⟨["framePointer", "frame_id"], 1⟩

section

variable {α : Type} [Source α]

/-- The description of a node: the text of its line and its frame. -/
def readData? (a : α) : Option (String × Option String) := do
  let r ← Record.of? 2 a
  return (← r.optional? sourceTextField "" Source.string?,
    ← r.optional? frameField none Source.identifier?)

/-- The node that a record holds.  A node has to have an identifier. -/
def ofSource? (a : α) : Option NodeSnapshot := do
  let r ← Record.of? 2 a
  let id ← r.required? idField Source.identifier?
  let (sourceText, frame) ← r.optional? dataField ("", none) readData?
  return { id := ← id, sourceText, frame }

end

def ofJson? (v : Json) : Option NodeSnapshot := ofSource? v

def toJson (n : NodeSnapshot) : Json :=
  .obj [("id", .str n.id), ("data", .obj [("source_segment", .str n.sourceText),
    ("framePointer", .ofOption .str n.frame)])]

end NodeSnapshot

namespace SyncPayload

/-! ## Reading a payload -/

def nodesField : Field := ⟨["nodes"], 0⟩

def timelineField : Field := ⟨["timeline"], 1⟩

def timelineIdField : Field := ⟨["timeline_id"], 2⟩

def nodeIdField : Field := ⟨["node_id"], 3⟩

section

variable {α : Type} [Source α]

/-- A list of steps without its gaps; `null` is the empty list. -/
def readTimeline? (a : α) : Option (List Step) :=
  (Source.nullable? (Source.list? (Source.nullable? Step.ofSource?)) a).map fun
    | none => []
    | some steps => steps.filterMap fun s => s

/-- The payload that a record holds. -/
def ofSource? (a : α) : Option SyncPayload := do
  let r ← Record.of? 4 a
  return {
    nodes := ← r.optional? nodesField [] (Source.list? NodeSnapshot.ofSource?)
    timeline := ← r.optional? timelineField [] readTimeline?
    timelineId := ← r.optional? timelineIdField none (Source.nullable? Source.int64?)
    nodeId := ← r.optional? nodeIdField none Source.identifier? }

end

def ofJson? (v : Json) : Option SyncPayload := ofSource? v

def ofText? (s : String) : Option SyncPayload := (Nested.ofText? s).bind ofSource?

def toJson (p : SyncPayload) : Json :=
  .obj [("nodes", .arr (p.nodes.map NodeSnapshot.toJson)),
    ("timeline", .arr (p.timeline.map Step.toJson)),
    ("timeline_id", .ofOption .int p.timelineId), ("node_id", .ofOption .str p.nodeId)]

/-- The step that the payload selects. -/
def cursor (p : SyncPayload) : Option StepId :=
  match p.timelineId with
  | some n => if 0 ≤ n then some n.toNat.toUInt64 else none
  | none => none

end SyncPayload

end TraceTimeline
