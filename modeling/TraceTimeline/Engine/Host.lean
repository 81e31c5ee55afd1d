import TraceTimeline.Connection.PushChannel
import TraceTimeline.OrderedMap

/-!
# Hosts

A host carries out the fetches that an engine asks for.  Each of them is answered at some time, in
whatever order, and the answer goes to the engine with the generation of the connection for which
the fetch was made; a fetch that fails changes nothing.  What else happens to the engine happens in
between.

Fetches are numbered as they are made, so that it can be said which of them an answer is for and
which was made first.  The engine knows nothing of these numbers.
-/

namespace TraceTimeline

/-- An engine with the fetches that it asked for. -/
structure Host where
  engine : Engine
  /-- The fetches that were not answered yet: for each number, the generation of the connection for
  which the fetch was made. -/
  outstanding : OrderedMap Nat Nat
  /-- How many fetches were made. -/
  asked : Nat

/-- Whether an operation of the engine is the answer to a fetch. -/
def Engine.Operation.isResponse : Engine.Operation → Bool
  | .syncResponse .. => true
  | _ => false

namespace Host

def new (settings : EngineSettings) : Host := ⟨Engine.new settings, .empty, 0⟩

/-- Something that happens to a host. -/
inductive Event where
  /-- An operation of the engine other than the answer to a fetch. -/
  | happens (op : Engine.Operation) (h : op.isResponse = false)
  /-- The fetch of a number is answered. -/
  | answered (number : Nat) (answer : Except TransportError SyncPayload)

/-- A new run was started. -/
def Event.restart : Event := .happens .backendRestarted rfl

/-- The number of the fetch that an event answers. -/
def Event.number? : Event → Option Nat
  | .happens .. => none
  | .answered number _ => some number

/-- Whether an event reports a new connection. -/
def Event.isConnect : Event → Bool
  | .happens (.transport (.connected _)) _ => true
  | _ => false

/-- The host after a fetch was made for the connection of a generation. -/
def fetch (h : Host) (generation : Nat) : Host :=
  { h with
    outstanding := h.outstanding.insert h.asked generation
    asked := h.asked + 1 }

/-- The host after the fetches among some effects were made. -/
def ask (h : Host) : List Effect → Host
  | [] => h
  | .fetchSync generation :: effects => ask (h.fetch generation) effects
  | .send _ :: effects => ask h effects
  | .startBackend :: effects => ask h effects

/-- The host after an operation of its engine. -/
def operate (h : Host) (op : Engine.Operation) : Host :=
  let (engine, effects) := h.engine.perform op
  { h with engine := engine }.ask effects

/-- The host after an event.  Only a fetch that was made and not answered yet can be answered. -/
def react (h : Host) : Event → Host
  | .happens op _ => h.operate op
  | .answered number answer =>
    let settled := { h with outstanding := h.outstanding.erase number }
    match h.outstanding.get? number, answer with
    | none, _ => h
    | some generation, .ok payload => settled.operate (.syncResponse generation payload)
    | some _, .error _ => settled

def run (h : Host) (events : List Event) : Host := events.foldl react h

end Host

end TraceTimeline
