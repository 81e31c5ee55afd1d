import TraceTimeline.Timeline.LineIndex
import TraceTimeline.Timeline.Scope

/-!
# The timeline store

The store holds the most recent steps of a run, in ascending order of their numbers whatever the
order in which they arrive.  When there are more than the capacity, the oldest are evicted: each is
folded into the baseline, the scope after everything that was evicted, and its number becomes the
horizon.  Steps at or below the horizon come too late and are discarded.

A cursor names the step that is being looked at.  While the store follows live, the cursor moves to
newer steps as they arrive; a cursor that was pinned stays.

`Store.Operation` and `Store.run` put all updates under one type, so that a history of a store is a
list of operations.
-/

namespace TraceTimeline

/-- What happened to a step that was put into the store. -/
inductive UpsertOutcome where
  /-- Its number is greater than every other. -/
  | appended
  /-- Its number is new, but not the greatest. -/
  | inserted
  /-- It took the place of the step with its number. -/
  | replaced
  /-- It is not above the horizon and was discarded. -/
  | stale
deriving DecidableEq, Repr

/-- Whether the cursor moves with arriving steps. -/
inductive FollowMode where
  | live
  | pinned
deriving DecidableEq, Repr, Inhabited

def FollowMode.name : FollowMode → String
  | .live => "live"
  | .pinned => "pinned"

/-- The recent steps of a run, and the cursor among them. -/
structure Store where
  /-- The retained steps, in ascending order of their numbers. -/
  steps : Array Step
  /-- The number of steps to retain. -/
  capacity : Nat
  policy : CarryPolicy
  /-- The scope after the evicted steps. -/
  baseline : Option Scope
  /-- The number of the last evicted step. -/
  horizon : Option StepId
  /-- The retained steps by line. -/
  lines : LineIndex
  cursor : Option StepId
  follow : FollowMode
deriving DecidableEq

/-- Where a number stands among ascending steps: at a position, or just before one. -/
inductive Position where
  | found (index : Nat)
  | gap (index : Nat)
deriving DecidableEq, Repr

namespace Store

/-! ## Looking things up -/

/-- The store without steps.  A capacity of zero counts as one. -/
def new (capacity : Nat) (policy : CarryPolicy) : Store where
  steps := #[]
  capacity := max capacity 1
  policy := policy
  baseline := none
  horizon := none
  lines := OrderedMap.empty
  cursor := none
  follow := .live

/-- The number of steps that a store retains unless told otherwise. -/
def defaultCapacity : Nat := 500

/-- The store without steps, with the usual capacity and policy. -/
def default : Store := new defaultCapacity .sticky

instance : Inhabited Store := ⟨default⟩

/-- Where a number stands among the steps from index `low` to index `high`, by bisection. -/
def searchBetween (steps : Array Step) (id : StepId) (low high : Nat) (h : high ≤ steps.size) :
    Position :=
  if hlt : low < high then
    let middle := (low + high) / 2
    let candidate := steps[middle].id
    if candidate = id then .found middle
    else if candidate < id then searchBetween steps id (middle + 1) high h
    else searchBetween steps id low middle (by omega)
  else .gap low
termination_by high - low

/-- Where a number stands among the retained steps. -/
def search (s : Store) (id : StepId) : Position :=
  searchBetween s.steps id 0 s.steps.size (Nat.le_refl _)

/-- The index of the step with a number. -/
def positionOf (s : Store) (id : StepId) : Option Nat :=
  match s.search id with
  | .found i => some i
  | .gap _ => none

def get? (s : Store) (id : StepId) : Option Step := (s.positionOf id).bind (s.steps[·]?)

def contains (s : Store) (id : StepId) : Bool := (s.positionOf id).isSome

def size (s : Store) : Nat := s.steps.size

def firstId (s : Store) : Option StepId := s.steps[0]?.map (·.id)

def lastId (s : Store) : Option StepId := s.steps.back?.map (·.id)

def latestOnLine (s : Store) (line : SourceLine) : Option StepId := s.lines.latest? line

/-- The greatest number, up to a bound, of a retained step at a line. -/
def latestOnLineUpTo (s : Store) (line : SourceLine) (bound : StepId) : Option StepId :=
  s.lines.latestUpTo? line bound

def lineOf (s : Store) (id : StepId) : Option SourceLine := (s.get? id).bind (·.line)

/-- Whether a number is not above the horizon. -/
def isPast (s : Store) (id : StepId) : Bool := s.horizon.any (id ≤ ·)

/-- The retained steps up to a number. -/
def stepsUpTo (s : Store) (id : StepId) : List Step := s.steps.toList.takeWhile (·.id ≤ id)

/-- The scope after the steps up to a number.  There is none before the horizon, where the steps
were folded together, and none in a store that never held a step. -/
def scopeAt (s : Store) (id : StepId) : Option Scope :=
  if s.steps.isEmpty ∧ s.baseline.isNone then none
  else if s.horizon.any (id < ·) then none
  else some ((s.baseline.getD Scope.initial).applyAll s.policy (s.stepsUpTo id))

def currentScope (s : Store) : Option Scope := s.cursor.bind s.scopeAt

/-- For every line, the frame of the latest step at it, among the steps up to a number. -/
def frameAnnotations (s : Store) : Option StepId → OrderedMap SourceLine (Option String)
  | none => OrderedMap.empty
  | some bound => (s.stepsUpTo bound).foldl (fun frames step =>
      match step.line with
      | some line => frames.insert line step.frame
      | none => frames) OrderedMap.empty

/-! ## Updates -/

/-- The store after its oldest step was evicted. -/
def evictOldest (s : Store) : Store :=
  match s.steps[0]? with
  | none => s
  | some oldest =>
    { s with
      steps := s.steps.extract 1 s.steps.size
      lines := s.lines.leave oldest.line oldest.id
      baseline := some ((s.baseline.getD Scope.initial).apply s.policy oldest)
      horizon := some oldest.id }

/-- The store after the steps beyond its capacity were evicted. -/
def evictOverflow (s : Store) : Store := Nat.repeat evictOldest (s.steps.size - s.capacity) s

/-- The store with a step in the place of the step at an index. -/
def replaceAt (s : Store) (i : Nat) (step : Step) : Store :=
  let previous := s.steps[i]?.bind (·.line)
  { s with
    steps := s.steps.setIfInBounds i step
    lines :=
      if previous = step.line then s.lines
      else (s.lines.leave previous step.id).enter step.line step.id }

/-- The store with a step before the step at an index. -/
def insertAt (s : Store) (i : Nat) (step : Step) : Store :=
  { s with
    steps := s.steps.insertIdxIfInBounds i step
    lines := s.lines.enter step.line step.id }

/-- The store with a step put into it. -/
def upsert (s : Store) (step : Step) : Store × UpsertOutcome :=
  if s.isPast step.id then (s, .stale)
  else match s.search step.id with
    | .found i => ((s.replaceAt i step).evictOverflow, .replaced)
    | .gap i =>
      ((s.insertAt i step).evictOverflow, if i = s.steps.size then .appended else .inserted)

/-- The store after a list of steps was put into it. -/
def upsertAll (s : Store) (steps : List Step) : Store :=
  steps.foldl (fun s step => (s.upsert step).1) s

/-- The store without steps, baseline and cursor. -/
def clear (s : Store) : Store :=
  { s with
    steps := #[]
    lines := OrderedMap.empty
    baseline := none
    horizon := none
    cursor := none
    follow := .live }

/-- The steps in ascending order of their numbers; steps of one number keep their order. -/
def inOrder (steps : List Step) : List Step := steps.mergeSort (fun a b => a.id ≤ b.id)

/-- The store with another history and cursor in place of its own. -/
def replaceAll (s : Store) (steps : List Step) (cursor : Option StepId) : Store :=
  { s.clear.upsertAll (inOrder steps) with cursor := cursor, follow := .live }

/-- The store after a step arrived: the cursor moves to it if the store follows live and the cursor
is not already at it or beyond.  Also says whether the cursor moved. -/
def advanceLive (s : Store) (id : StepId) : Store × Bool :=
  if s.follow ≠ .live ∨ s.cursor.any (id ≤ ·) then (s, false)
  else ({ s with cursor := some id }, true)

/-- The store with its cursor pinned to a retained step.  Also says whether the step is retained;
if it is not, nothing changes. -/
def pin (s : Store) (id : StepId) : Store × Bool :=
  if s.contains id then ({ s with cursor := some id, follow := .pinned }, true) else (s, false)

/-- The store following live again, from its newest step. -/
def followLive (s : Store) : Store :=
  { s with
    follow := .live
    cursor := s.lastId.or s.cursor }

/-! ## Histories -/

/-- An update of a store. -/
inductive Operation where
  | upsert (step : Step)
  | replaceAll (steps : List Step) (cursor : Option StepId)
  | clear
  | advanceLive (id : StepId)
  | pin (id : StepId)
  | followLive

/-- The store after an update. -/
def perform (s : Store) : Operation → Store
  | .upsert step => (s.upsert step).1
  | .replaceAll steps cursor => s.replaceAll steps cursor
  | .clear => s.clear
  | .advanceLive id => (s.advanceLive id).1
  | .pin id => (s.pin id).1
  | .followLive => s.followLive

def run (s : Store) (ops : List Operation) : Store := ops.foldl perform s

end Store

end TraceTimeline
