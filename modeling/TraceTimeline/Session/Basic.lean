import TraceTimeline.Connection.Status
import TraceTimeline.Operator.Command
import TraceTimeline.Settings
import TraceTimeline.Terminal.View

/-!
# Sessions

A session puts an engine, a terminal view and the operator together.  It reacts to one event at a
time: the engine takes note of the event, and then the view writes what changed.  What the engine
asks for is left to the host, whose answers come back as events.

When the operator quits, or when there is no more input, the session is over and does not react any
more.
-/

namespace TraceTimeline

/-- Something that a session reacts to. -/
inductive SessionEvent where
  /-- The connection reports. -/
  | transport (event : TransportEvent)
  /-- The fetch that was made for the connection of a generation was answered. -/
  | syncLoaded (generation : Nat) (answer : Except TransportError SyncPayload)
  /-- The request to start a run was answered. -/
  | backendStarted (answer : Except TransportError Unit)
  /-- The operator gave a command, at a reading of the clock. -/
  | command (command : Command) (now : Millis)
  /-- There will be no more commands. -/
  | inputEnded

/-- The state of a session. -/
structure Session where
  engine : Engine
  view : View
  /-- Whether the session is over. -/
  finished : Bool
deriving DecidableEq

/-- What a session writes and asks for when it reacts. -/
structure Reaction where
  lines : List TerminalLine
  effects : List Effect
deriving DecidableEq

namespace Reaction

def none : Reaction := ⟨[], []⟩

def append (a b : Reaction) : Reaction := ⟨a.lines ++ b.lines, a.effects ++ b.effects⟩

instance : Append Reaction := ⟨append⟩

end Reaction

namespace Session

/-- Writes what changed. -/
def render (s : Session) : Session × List TerminalLine :=
  let (view, lines) := s.view.render s.engine
  ({ s with view := view }, lines)

/-- A session that begins, and what it writes at first. -/
def start (settings : EngineSettings) : Session × List TerminalLine :=
  render { engine := Engine.new settings, view := View.new, finished := false }

/-- The session with the engine after an operation, and the effects of the operation. -/
def operate (s : Session) (op : Engine.Operation) : Session × Reaction :=
  let (engine, effects) := s.engine.perform op
  ({ s with engine := engine }, ⟨[], effects⟩)

/-- The line for a run that could not be started. -/
def restartFailure (e : TransportError) : TerminalLine := .message ("restart failed: " ++ e.message)

/-- Carries out a command.  What the operator asked to see is written at once. -/
def obey (s : Session) (now : Millis) : Command → Session × Reaction
  | .resume => s.operate (.requestContinue now)
  | .seek id => s.operate (.selectStep id)
  | .line line => s.operate (.selectNode line)
  | .follow => s.operate .followLive
  | .scope => (s, ⟨View.scopeLines s.engine, []⟩)
  | .output => (s, ⟨View.outputLines s.engine, []⟩)
  | .clear => s.operate .clearOutput
  | .edit line code => s.operate (.editNode line code)
  | .restart => s.operate .restartBackend
  | .quit => ({ s with finished := true }, .none)

/-- Takes note of an event.  A fetch that failed changes nothing, and a run that could not be
started is reported. -/
def note (s : Session) : SessionEvent → Session × Reaction
  | .transport event => s.operate (.transport event)
  | .syncLoaded generation (.ok payload) => s.operate (.syncResponse generation payload)
  | .syncLoaded _ (.error _) => (s, .none)
  | .backendStarted (.ok ()) => s.operate .backendRestarted
  | .backendStarted (.error e) => (s, ⟨[restartFailure e], []⟩)
  | .command command now => s.obey now command
  | .inputEnded => ({ s with finished := true }, .none)

/-- Reacts to an event, unless the session is over. -/
def react (s : Session) (event : SessionEvent) : Session × Reaction :=
  if s.finished then (s, .none)
  else
    let (s, reaction) := s.note event
    let (s, lines) := s.render
    (s, reaction ++ ⟨lines, []⟩)

/-- Reacts to a list of events, one after another. -/
def reactAll (s : Session) : List SessionEvent → Session × Reaction
  | [] => (s, .none)
  | event :: events =>
    let (s, first) := s.react event
    let (s, later) := s.reactAll events
    (s, first ++ later)

end Session

end TraceTimeline
