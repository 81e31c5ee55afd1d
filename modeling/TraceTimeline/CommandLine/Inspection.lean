import TraceTimeline.FileSystem.Basic
import TraceTimeline.Frame
import TraceTimeline.Timeline.Store

/-!
# Inspections

An inspection reconstructs the scope at a position of a recorded time line, without a backend.  The
recording is the text of a sync payload, alone or in a frame.  The position is the one asked for, or
else the one that the payload selects.
-/

namespace TraceTimeline

/-- Why an inspection has no result. -/
inductive InspectionError where
  | unreadable (path : String) (cause : SystemError)
  /-- The text is no sync payload. -/
  | notPayload (path : String)
  /-- No position was asked for or selected. -/
  | noPosition
  /-- The position lies before the retained steps. -/
  | evicted (position horizon : StepId)
  /-- There are no steps at all. -/
  | noScope (position : StepId)
deriving DecidableEq, Repr

namespace InspectionError

/-- The wording of an error. -/
def message : InspectionError → String
  | .unreadable path _ => "failed to read " ++ path
  | .notPayload path => path ++ " is not a sync payload"
  | .noPosition => "no timeline position selected"
  | .evicted position horizon =>
    "step " ++ String.ofList (Text.digits position.toNat) ++
      " was evicted; retained history starts after step " ++
      String.ofList (Text.digits horizon.toNat)
  | .noScope position => "no scope at step " ++ String.ofList (Text.digits position.toNat)

/-- The wording of what lies behind an error. -/
def cause? : InspectionError → Option String
  | .unreadable _ cause => some cause.message
  | _ => none

end InspectionError

namespace Inspection

/-- The payload of a recording: that of a frame, or that which the text spells itself. -/
def payload? (text : String) : Option SyncPayload :=
  match Frame.decode text with
  | .ok (.sync p) => some p
  | _ => SyncPayload.ofText? text

/-- The store with the time line of a payload, as far as it is retained. -/
def storeOf (capacity : Nat) (policy : CarryPolicy) (payload : SyncPayload)
    (cursor : Option StepId) : Store :=
  (Store.new capacity policy).replaceAll payload.timeline cursor

/-- The scope at a position of a payload's time line. -/
def scope (capacity : Nat) (policy : CarryPolicy) (position : Option StepId)
    (payload : SyncPayload) : Except InspectionError Scope :=
  match position.or payload.cursor with
  | none => .error .noPosition
  | some id =>
    let store := storeOf capacity policy payload (some id)
    match store.scopeAt id with
    | some scope => .ok scope
    | none =>
      match store.horizon with
      | some horizon => .error (if id < horizon then .evicted id horizon else .noScope id)
      | none => .error (.noScope id)

/-- The scope at a position of the time line that a recording holds. -/
def ofText (capacity : Nat) (policy : CarryPolicy) (position : Option StepId) (path text : String) :
    Except InspectionError Scope :=
  match payload? text with
  | none => .error (.notPayload path)
  | some payload => scope capacity policy position payload

/-- The scope at a position of the time line in a file, if it could be read. -/
def ofFile (capacity : Nat) (policy : CarryPolicy) (position : Option StepId) (path : String)
    (content : Except SystemError ByteArray) : Except InspectionError Scope :=
  match content.bind fileText with
  | .error e => .error (.unreadable path e)
  | .ok text => ofText capacity policy position path text

end Inspection

end TraceTimeline
