import TraceTimeline.Step.Basic

/-!
# Scopes

A scope is what is visible at one position of the time line: where the program is, the values of
its variables, and the return value, the error and the traceback that are in force.  A scope is
never recorded.  It is reconstructed by folding the steps up to the position onto the initial
scope, one after another.

Where the program is, the last step alone says.  Variables are kept until a later step changes
them.  How long a reported return value, error or traceback stays in force is a matter of policy.
-/

namespace TraceTimeline

/-- How a reported return value, error or traceback carries over to later steps. -/
inductive CarryPolicy where
  /-- It stays until another value is reported. -/
  | sticky
  /-- An explicit `null` ends it too. -/
  | explicitNullClears
  /-- It ends when the program moves to a different stack frame. -/
  | frameScoped
deriving DecidableEq, Repr, Inhabited

namespace CarryPolicy

def name : CarryPolicy → String
  | .sticky => "sticky"
  | .explicitNullClears => "explicit-null-clears"
  | .frameScoped => "frame-scoped"

/-- The policy of exactly this name. -/
def ofExactName? (s : String) : Option CarryPolicy :=
  match s with
  | "sticky" => some .sticky
  | "explicit-null-clears" => some .explicitNullClears
  | "frame-scoped" => some .frameScoped
  | _ => none

/-- A name that no policy has. -/
structure Unknown where
  name : String
deriving DecidableEq, Repr

def Unknown.message (u : Unknown) : String := "unknown return policy: " ++ u.name

/-- The policy of a name, with blanks around it. -/
def ofName (s : String) : Except Unknown CarryPolicy :=
  let word := Text.trim s
  match ofExactName? word with
  | some p => .ok p
  | none => .error ⟨word⟩

end CarryPolicy

/-- What is visible at one position of the time line. -/
structure Scope where
  event : Option EventKind
  file : Option String
  function : Option String
  frame : Option String
  line : Option SourceLine
  globals : Variables
  locals : Variables
  returned : Option Json
  error : Option Json
  traceback : Option String
deriving DecidableEq

namespace Scope

/-- The scope before the first step. -/
def initial : Scope where
  event := none
  file := none
  function := none
  frame := none
  line := none
  globals := OrderedMap.empty
  locals := OrderedMap.empty
  returned := none
  error := none
  traceback := none

instance : Inhabited Scope := ⟨initial⟩

/-- What is in force after a report. -/
def carry {α : Type} (policy : CarryPolicy) (current : Option α) : Reported α → Option α
  | .value a => some a
  | .null => if policy = .explicitNullClears then none else current
  | .absent => current

/-- Whether moving from this scope to a step ends what was reported before. -/
def leaves (policy : CarryPolicy) (scope : Scope) (step : Step) : Prop :=
  policy = .frameScoped ∧ scope.frame ≠ step.frame

instance (policy : CarryPolicy) (scope : Scope) (step : Step) :
    Decidable (scope.leaves policy step) := inferInstanceAs (Decidable (_ ∧ _))

/-- What was in force is still in force at the next step, unless the step leaves the scope. -/
def keep {α : Type} (policy : CarryPolicy) (scope : Scope) (step : Step) (current : Option α) :
    Option α :=
  if scope.leaves policy step then none else current

/-- The scope after one more step. -/
def apply (policy : CarryPolicy) (scope : Scope) (step : Step) : Scope where
  event := some step.kind
  file := step.file
  function := step.function
  frame := step.frame
  line := step.line
  globals := Diff.applyTo step.globals scope.globals
  locals := Diff.applyTo step.locals scope.locals
  returned := carry policy (scope.keep policy step scope.returned) step.returned
  error := carry policy (scope.keep policy step scope.error) step.error
  traceback := carry policy (scope.keep policy step scope.traceback) step.traceback

/-- The scope after a list of steps. -/
def applyAll (policy : CarryPolicy) (scope : Scope) (steps : List Step) : Scope :=
  steps.foldl (apply policy) scope

/-- The scope after the steps up to and including a position, from a scope that earlier steps were
folded into.  A position past the end stands for the last one; without a position there is no
scope. -/
def deriveFrom (policy : CarryPolicy) (baseline : Option Scope) (steps : List Step) :
    Option Nat → Option Scope
  | none => none
  | some position => some ((baseline.getD initial).applyAll policy (steps.take (position + 1)))

/-- The scope after the steps up to and including a position. -/
def derive (policy : CarryPolicy) (steps : List Step) (position : Option Nat) : Option Scope :=
  deriveFrom policy none steps position

/-- The value of a scope, for display. -/
def toJson (s : Scope) : Json :=
  .obj [("event", .ofOption (fun k => .str k.name) s.event), ("file", .ofOption .str s.file),
    ("function", .ofOption .str s.function), ("frame_id", .ofOption .str s.frame),
    ("line_number", .ofOption (fun n => .nat n.toNat) s.line),
    ("globals", .obj s.globals.entries), ("locals", .obj s.locals.entries),
    ("return_value", .ofOption (fun v => v) s.returned),
    ("error", .ofOption (fun v => v) s.error), ("traceback", .ofOption .str s.traceback)]

end Scope

end TraceTimeline
