import TraceTimeline.Engine.Basic

/-!
# The push channel

The handle of the background task that connects to the backend and keeps reconnecting.  Here is the
channel as it is while no attempt succeeds: the task begins to run at some point, its attempts fail,
and it waits for the next one until it is told to stop.

A watcher of the channel sees the last state that the task announced.  Dropping the handle stops the
task where it is, without an announcement.
-/

namespace TraceTimeline

/-- Why a request could not be handed to the backend, or a fetch failed. -/
inductive TransportError where
  | notConnected
  | closed
  /-- The request did not get through. -/
  | http (reason : String)
  /-- The backend answered with a status that is no success. -/
  | status (code : Nat) (body : String)
  /-- The answer is not what it should be. -/
  | json (reason : String)
deriving DecidableEq, Repr

/-- What the task of a channel is doing. -/
inductive ChannelTask where
  /-- It has not begun to run. -/
  | idle
  /-- It waits for its next attempt. -/
  | waiting
  /-- It ended. -/
  | ended
deriving DecidableEq, Repr

/-- A push channel that cannot connect. -/
structure PushChannel where
  task : ChannelTask
  /-- The state that was announced last. -/
  state : ConnectionState
deriving DecidableEq

/-- What the receiver of a channel's events finds. -/
inductive Reception where
  /-- No event yet. -/
  | none
  /-- No event any more. -/
  | ended
deriving DecidableEq, Repr

namespace PushChannel

/-- The channel right after it was made. -/
def start : PushChannel := ⟨.idle, .connecting⟩

/-- The channel after its task had time to run: the first attempt fails. -/
def settle (c : PushChannel) : PushChannel :=
  match c.task with
  | .idle => ⟨.waiting, .disconnected⟩
  | _ => c

/-- The channel after an orderly end of its task. -/
def shutdown (c : PushChannel) : PushChannel :=
  match c.task with
  | .ended => c
  | _ => ⟨.ended, .closed⟩

/-- The channel after its handle was dropped: the task ends and announces nothing. -/
def drop (c : PushChannel) : PushChannel := { c with task := .ended }

/-- Whether the channel is connected. -/
def isConnected (c : PushChannel) : Bool :=
  match c.state with
  | .connected _ => true
  | _ => false

/-- The generation of the connection. -/
def generation (c : PushChannel) : Option Nat :=
  match c.state with
  | .connected g => some g
  | _ => none

/-- Hands a request to the backend.  While there is no connection nothing is kept for later. -/
def send (c : PushChannel) (_request : Request) : Except TransportError Unit :=
  if c.isConnected then .ok () else .error .notConnected

/-- What a receiver of the channel's events finds. -/
def receive (c : PushChannel) : Reception :=
  match c.task with
  | .ended => .ended
  | _ => .none

end PushChannel

end TraceTimeline
