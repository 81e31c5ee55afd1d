import TraceTimeline.Sync

/-!
# Nodes

A node is a line of the source with what the client marks on it: whether the line is highlighted,
and which stack frame executed it last.  Nodes come with a sync payload.  A node whose identifier
is a numeral stands for the line of that number; other nodes stand for no line.
-/

namespace TraceTimeline

/-- A line of the source with its marks. -/
structure Node where
  id : String
  /-- The line that the node stands for. -/
  line : Option SourceLine
  /-- The text of the line. -/
  sourceText : String
  highlighted : Bool
  /-- The frame that executed the line last. -/
  frame : Option String
deriving DecidableEq, Repr

namespace Node

/-- The line that an identifier names, with blanks around the numeral. -/
def lineOfId (id : String) : Option SourceLine := Text.readUInt32? (Text.trimChars id.toList)

/-- The node of a line, without marks. -/
def ofLine (line : SourceLine) (sourceText : String) : Node where
  id := String.ofList (Text.digits line.toNat)
  line := some line
  sourceText := sourceText
  highlighted := false
  frame := none

/-- The node that a snapshot describes. -/
def ofSnapshot (s : NodeSnapshot) : Node where
  id := s.id
  line := lineOfId s.id
  sourceText := s.sourceText
  highlighted := false
  frame := s.frame

/-- Whether a node stands for a line. -/
def isAt (line : SourceLine) (n : Node) : Bool := n.line = some line

/-- The nodes with those of a line highlighted and all others not. -/
def highlight (line : Option SourceLine) (nodes : List Node) : List Node :=
  nodes.map fun n => { n with highlighted := line.isSome && n.line = line }

/-- The nodes with the frames that are given for their lines, and without a frame elsewhere. -/
def setFrames (frames : OrderedMap SourceLine (Option String)) (nodes : List Node) : List Node :=
  nodes.map fun n => { n with frame := (n.line.bind frames.get?).join }

/-- The nodes after `f` changed the first one of a line. -/
def updateFirst (line : SourceLine) (f : Node → Node) : List Node → List Node
  | [] => []
  | n :: rest => if n.isAt line then f n :: rest else n :: updateFirst line f rest

/-- The nodes with the frame that executes a line set on the first node of the line. -/
def annotate (line : SourceLine) (frame : Option String) (nodes : List Node) : List Node :=
  updateFirst line (fun n => { n with frame := frame }) nodes

/-- The number of nodes that differ between two lists. -/
def changes (before after : List Node) : Nat := (before.zip after).countP fun p => p.1 ≠ p.2

end Node

end TraceTimeline
