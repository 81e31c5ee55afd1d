import TraceTimeline.Engine.Host

/-!
# Feeds

What one connection brings from a backend that keeps a log of the steps it records.  Two channels
lead from the backend to the engine.  While the connection is up, each step that is recorded is
pushed as a frame, and frames arrive in the order in which they were pushed.  Apart from that, the
fetch that the engine made for the connection is answered with the log as it stood when the backend
served the fetch.  Nothing orders the two channels: a frame that was pushed after the fetch was
served may arrive before the answer.
-/

namespace TraceTimeline

/-- A step on its way as the text of a frame. -/
structure Push where
  step : Step
  text : String
  /-- The text brings the step. -/
  spells : Frame.decode text = .ok (.event step)
deriving DecidableEq

/-- How far the fetch of a connection has come. -/
inductive Fetch where
  /-- The backend has not served it. -/
  | asked
  /-- The backend has served it with a payload, which is on its way. -/
  | served (payload : SyncPayload)
  /-- The payload has arrived, after some pushed steps. -/
  | answered (payload : SyncPayload) (before : List Step)
deriving DecidableEq

/-- A host with one connection to a backend. -/
structure Feed where
  host : Host
  /-- The generation of the connection. -/
  generation : Nat
  /-- The number of the connection's fetch. -/
  number : Nat
  fetch : Fetch
  /-- The steps that the backend has recorded. -/
  log : List Step
  /-- What was pushed and has not arrived, the oldest first. -/
  inFlight : List Push
  /-- The pushed steps that have arrived. -/
  arrived : List Step

namespace Feed

/-- The feed of a new connection to a backend that has recorded some steps before. -/
def connect (h : Host) (generation : Nat) (log : List Step) : Feed where
  host := h.react (.happens (.transport (.connected generation)) rfl)
  generation := generation
  number := h.asked
  fetch := .asked
  log := log
  inFlight := []
  arrived := []

/-- Something that happens at either end of a connection. -/
inductive Event where
  /-- The backend records a step and pushes it. -/
  | recorded (push : Push)
  /-- The backend serves the fetch, with its log as the time line of a payload. -/
  | served (payload : SyncPayload)
  /-- The oldest frame in flight arrives. -/
  | arrived
  /-- The answer to the fetch arrives. -/
  | answered

/-- The feed after an event.  A step is only recorded if its number is greater than all in the log,
a fetch is served and answered once, and what is not on its way does not arrive. -/
def react (f : Feed) : Event → Feed
  | .recorded push =>
    if ∀ x ∈ f.log, x.id < push.step.id then
      { f with log := f.log ++ [push.step], inFlight := f.inFlight ++ [push] }
    else f
  | .served payload =>
    match f.fetch with
    | .asked => { f with fetch := .served { payload with timeline := f.log } }
    | _ => f
  | .arrived =>
    match f.inFlight with
    | [] => f
    | push :: rest =>
      { f with
        host := f.host.react (.happens (.transport (.frame f.generation push.text)) rfl)
        inFlight := rest
        arrived := f.arrived ++ [push.step] }
  | .answered =>
    match f.fetch with
    | .served payload =>
      { f with
        host := f.host.react (.answered f.number (.ok payload))
        fetch := .answered payload f.arrived }
    | _ => f

def run (f : Feed) (events : List Event) : Feed := events.foldl react f

end Feed

end TraceTimeline
