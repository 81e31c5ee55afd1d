import TraceTimeline.Engine.Gate
import TraceTimeline.Frame
import TraceTimeline.Node
import TraceTimeline.Output.Entries
import TraceTimeline.Request
import TraceTimeline.Timeline.Store

/-!
# The engine

The engine is the client's state and what happens to it: what the connection reports, what the
backend sends, and what the operator asks for.  It does no input or output.  Every operation gives
the next state and the effects that the host has to carry out.

Connections are numbered by generations.  Frames and answers that belong to another generation than
the current one are ignored, and so is word of a connection older than the current one.

`Engine.Operation` lists the operations; `Engine.perform` carries one out and `Engine.run` a list
of them, collecting the effects.
-/

namespace TraceTimeline

/-- The state of the connection to the backend. -/
inductive ConnectionState where
  | connecting
  | connected (generation : Nat)
  | disconnected
  /-- Torn down for good. -/
  | closed
deriving DecidableEq, Repr, Inhabited

/-- Something that the host has to do. -/
inductive Effect where
  /-- Send a request to the backend. -/
  | send (request : Request)
  /-- Fetch a sync payload, for the connection of a generation. -/
  | fetchSync (generation : Nat)
  /-- Start a run of the traced program. -/
  | startBackend
deriving DecidableEq, Repr

/-- What the connection to the backend reports. -/
inductive TransportEvent where
  | connected (generation : Nat)
  | disconnected (generation : Nat) (reason : String)
  | frame (generation : Nat) (text : String)
deriving DecidableEq, Repr

/-- The tunable properties of an engine. -/
structure EngineSettings where
  timelineCapacity : Nat
  policy : CarryPolicy
  outputCapacity : Nat
  continueTimeout : Millis
deriving DecidableEq, Repr

/-- The state of the client. -/
structure Engine where
  store : Store
  output : OutputLog
  nodes : List Node
  highlighted : Option SourceLine
  connection : ConnectionState
  /-- The generation of the current connection. -/
  generation : Option Nat
  gate : Gate
  /-- How often the time line was replaced or cleared. -/
  epoch : Nat
deriving DecidableEq

namespace Engine

/-- The engine before anything happened. -/
def new (settings : EngineSettings) : Engine where
  store := Store.new settings.timelineCapacity settings.policy
  output := OutputLog.new settings.outputCapacity
  nodes := []
  highlighted := none
  connection := .connecting
  generation := none
  gate := Gate.new settings.continueTimeout
  epoch := 0

/-! ## Marks on the nodes -/

/-- The engine with a line highlighted, or none. -/
def setHighlight (e : Engine) (line : Option SourceLine) : Engine :=
  { e with nodes := Node.highlight line e.nodes, highlighted := line }

/-- The engine with the frames of all nodes taken from the steps up to the cursor. -/
def refreshFrames (e : Engine) : Engine :=
  { e with nodes := Node.setFrames (e.store.frameAnnotations e.store.cursor) e.nodes }

/-- The engine with frames and highlight taken from the cursor. -/
def refreshAnnotations (e : Engine) : Engine :=
  e.refreshFrames.setHighlight (e.store.cursor.bind e.store.lineOf)

/-! ## What arrives -/

/-- The engine after a step of which the store has already taken note.  A step at or before the
cursor changes what the nodes show: a newly appended one only on its own line. -/
def annotateStep (e : Engine) (step : Step) (outcome : UpsertOutcome) : Engine :=
  if e.store.cursor.any (step.id ≤ ·) then
    match outcome, step.line with
    | .appended, some line => { e with nodes := Node.annotate line step.frame e.nodes }
    | .appended, none => e
    | .inserted, _ => e.refreshFrames
    | .replaced, _ => e.refreshFrames
    | .stale, _ => e
  else e

/-- The engine after a step arrived. -/
def applyStep (e : Engine) (step : Step) : Engine :=
  match e.store.upsert step with
  | (_, .stale) => e
  | (store, outcome) =>
    let (store, moved) := store.advanceLive step.id
    let e := { e with store := store }.annotateStep step outcome
    if moved then e.setHighlight step.line else e

/-- The engine after a sync payload arrived: nodes and time line are the payload's.  The selected
node is highlighted, or else the line of the selected step. -/
def applySync (e : Engine) (payload : SyncPayload) : Engine :=
  let store := e.store.replaceAll payload.timeline payload.cursor
  let e := { e with
    nodes := payload.nodes.map Node.ofSnapshot
    store := store
    epoch := e.epoch + 1 }
  e.setHighlight
    ((payload.nodeId.bind Node.lineOfId).or (payload.cursor.bind store.lineOf))

/-- The engine after a frame arrived. -/
def applyFrame (e : Engine) : Frame → Engine
  | .event step => e.applyStep step
  | .sync payload => e.applySync payload
  | .chunk channel text => { e with output := (e.output.push channel text).1 }
  | .flush channel => { e with output := (e.output.flush channel).1 }

/-- The engine after the text of a frame arrived.  Any text is a sign of life of the backend; one
that does not decode is dropped. -/
def handleFrame (e : Engine) (text : String) : Engine :=
  let e := { e with gate := e.gate.release }
  match Frame.decode text with
  | .ok frame => e.applyFrame frame
  | .error _ => e

/-- The engine after a report of the connection. -/
def handleTransport (e : Engine) : TransportEvent → Engine × List Effect
  | .connected g =>
    if e.generation.any (g < ·) then (e, [])
    else ({ e with generation := some g, connection := .connected g }, [.fetchSync g])
  | .disconnected g _ =>
    (if e.generation = some g then { e with connection := .disconnected } else e, [])
  | .frame g text => (if e.generation = some g then e.handleFrame text else e, [])

/-- The engine after the answer to a fetch that was made for the connection of a generation. -/
def applySyncResponse (e : Engine) (generation : Nat) (payload : SyncPayload) : Engine :=
  if e.generation = some generation then e.applySync payload else e

/-! ## What the operator asks for -/

/-- Asks the backend to move to the latest step at a line.  The cursor stays until it answers. -/
def selectNode (e : Engine) (line : SourceLine) : Engine × List Effect :=
  match e.store.latestOnLine line with
  | some id => (e, [.send (.selectStep id)])
  | none => (e, [])

/-- Pins the cursor to a retained step, and asks the backend to move there. -/
def selectStep (e : Engine) (id : StepId) : Engine × List Effect :=
  match e.store.pin id with
  | (store, true) => ({ e with store := store }.refreshAnnotations, [.send (.selectStep id)])
  | (_, false) => (e, [])

def followLive (e : Engine) : Engine := { e with store := e.store.followLive }.refreshAnnotations

/-- Asks the backend to resume the program, if the gate is open. -/
def requestContinue (e : Engine) (now : Millis) : Engine × List Effect :=
  let (gate, passed) := e.gate.pass now
  ({ e with gate := gate }, if passed then [.send .resume] else [])

/-- Replaces the text of a line, on its first node and at the backend. -/
def editNode (e : Engine) (line : SourceLine) (code : String) : Engine × List Effect :=
  ({ e with nodes := Node.updateFirst line (fun n => { n with sourceText := code }) e.nodes },
    [.send (.updateCode line code)])

def clearOutput (e : Engine) : Engine := { e with output := e.output.clear }

/-- The engine after a new run was started: the old history is dropped.  While connected, the new
one is fetched. -/
def backendRestarted (e : Engine) : Engine × List Effect :=
  let next := { e with
    store := e.store.clear
    epoch := e.epoch + 1
    highlighted := none
    nodes := (Node.highlight none e.nodes).map fun n => { n with frame := none } }
  (next,
    match e.generation, e.connection with
    | some g, .connected _ => [.fetchSync g]
    | _, _ => [])

/-- Whether a request to resume the program would be sent. -/
def continueEnabled (e : Engine) (now : Millis) : Bool := e.gate.isOpen now

def cursor (e : Engine) : Option StepId := e.store.cursor

def scope (e : Engine) : Option Scope := e.store.currentScope

/-! ## Histories -/

/-- An operation of the engine. -/
inductive Operation where
  | transport (event : TransportEvent)
  | frameText (text : String)
  | frame (frame : Frame)
  | syncResponse (generation : Nat) (payload : SyncPayload)
  | selectNode (line : SourceLine)
  | selectStep (id : StepId)
  | followLive
  | requestContinue (now : Millis)
  | editNode (line : SourceLine) (code : String)
  | clearOutput
  | restartBackend
  | backendRestarted
deriving DecidableEq

/-- The engine after an operation, and the effects of the operation. -/
def perform (e : Engine) : Operation → Engine × List Effect
  | .transport event => e.handleTransport event
  | .frameText text => (e.handleFrame text, [])
  | .frame frame => (e.applyFrame frame, [])
  | .syncResponse generation payload => (e.applySyncResponse generation payload, [])
  | .selectNode line => e.selectNode line
  | .selectStep id => e.selectStep id
  | .followLive => (e.followLive, [])
  | .requestContinue now => e.requestContinue now
  | .editNode line code => e.editNode line code
  | .clearOutput => (e.clearOutput, [])
  | .restartBackend => (e, [.startBackend])
  | .backendRestarted => e.backendRestarted

/-- The engine after a list of operations, and all their effects in order. -/
def run (e : Engine) : List Operation → Engine × List Effect
  | [] => (e, [])
  | op :: ops =>
    let (e, effects) := e.perform op
    let (e, later) := e.run ops
    (e, effects ++ later)

end Engine

end TraceTimeline
