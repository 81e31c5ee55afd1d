import TraceTimeline.Output.Channel
import TraceTimeline.Sync

/-!
# Frames

A frame is one message that the backend pushes: a step, a whole sync payload, a chunk of the traced
program's text, or word that a channel was flushed.  On the wire it is a record of a `type` and
`data`; what the data has to look like depends on the type.

A frame that cannot be decoded is dropped, so the reasons in `FrameError` are never fatal.
-/

namespace TraceTimeline

/-- A message that the backend pushes. -/
inductive Frame where
  | event (step : Step)
  | sync (payload : SyncPayload)
  | chunk (channel : OutputChannel) (text : String)
  | flush (channel : OutputChannel)
deriving DecidableEq

/-- The type of a frame whose data does not fit it. -/
inductive PayloadKind where
  | event
  | sync
  | chunk (channel : OutputChannel)
  | flush
deriving DecidableEq, Repr

/-- Why a frame was not decoded. -/
inductive FrameError where
  /-- Nothing but blanks. -/
  | empty
  /-- Not the text of a record with a type. -/
  | malformed
  /-- A type that no frame has. -/
  | unknownType (type : String)
  /-- Data that does not fit the type. -/
  | invalidPayload (kind : PayloadKind)
  /-- A flush of a channel that does not exist. -/
  | unknownChannel (name : String)
deriving DecidableEq, Repr

/-- The name of a type of frame. -/
def PayloadKind.name : PayloadKind → String
  | .event => "event"
  | .sync => "sync"
  | .chunk c => c.name
  | .flush => "flush"

/-- The wording of an error, up to the reason that a JSON reader would add. -/
def FrameError.message : FrameError → String
  | .empty => "empty frame"
  | .malformed => "malformed frame"
  | .unknownType t => "unknown message type: " ++ t
  | .invalidPayload kind => "invalid " ++ kind.name ++ " payload"
  | .unknownChannel name => "unknown stream: " ++ name

namespace Frame

/-- The type of a frame; a chunk goes by the name of its channel. -/
def typeName : Frame → String
  | .event _ => "event"
  | .sync _ => "sync"
  | .chunk c _ => c.name
  | .flush _ => "flush"

/-- A type and data, before the data is read. -/
structure Envelope where
  type : String
  data : Json

def typeField : Field := ⟨["type"], 0⟩

def dataField : Field := ⟨["data"], 1⟩

/-- The envelope that a text spells.  Missing data count as `null`. -/
def Envelope.ofText? (s : String) : Option Envelope := do
  let r ← Record.of? 2 (← Nested.ofText? s)
  return { type := ← r.required? typeField Source.string?
           data := ← r.optional? dataField .null Source.value? }

/-- A chunk of a channel; `null` is the empty text. -/
def chunkOf (c : OutputChannel) : Json → Except FrameError Frame
  | .null => .ok (.chunk c "")
  | .str s => .ok (.chunk c s)
  | _ => .error (.invalidPayload (.chunk c))

/-- The frame in an envelope. -/
def ofEnvelope (e : Envelope) : Except FrameError Frame :=
  match e.type with
  | "event" =>
    match Step.ofJson? e.data with
    | some s => .ok (.event s)
    | none => .error (.invalidPayload .event)
  | "sync" =>
    match SyncPayload.ofJson? e.data with
    | some p => .ok (.sync p)
    | none => .error (.invalidPayload .sync)
  | "stdout" => chunkOf .stdout e.data
  | "stderr" => chunkOf .stderr e.data
  | "stdin" => chunkOf .stdin e.data
  | "flush" =>
    match e.data with
    | .str name =>
      match OutputChannel.ofName? name with
      | some c => .ok (.flush c)
      | none => .error (.unknownChannel name)
    | _ => .error (.invalidPayload .flush)
  | type => .error (.unknownType type)

/-- The frame that a text spells, with blanks around it. -/
def decode (s : String) : Except FrameError Frame :=
  let text := Text.trim s
  if text = "" then .error .empty
  else match Envelope.ofText? text with
    | some e => ofEnvelope e
    | none => .error .malformed

end Frame

end TraceTimeline
