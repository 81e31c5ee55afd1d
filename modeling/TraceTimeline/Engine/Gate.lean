/-!
# The continue gate

A request to resume the program may be sent once; then the gate is shut until the backend shows a
sign of life or a time has passed.  Times are readings of a clock in milliseconds.  A reading may
lie before an earlier one, and then no time has passed between the two.
-/

namespace TraceTimeline

/-- A reading of the clock, in milliseconds. -/
abbrev Millis := Nat

/-- A gate that opens by itself after a time. -/
structure Gate where
  /-- How long the gate stays shut. -/
  timeout : Millis
  /-- When the gate was shut. -/
  shutAt : Option Millis
deriving DecidableEq, Repr

namespace Gate

def new (timeout : Millis) : Gate := ⟨timeout, none⟩

/-- Whether the gate is open. -/
def isOpen (g : Gate) (now : Millis) : Bool :=
  match g.shutAt with
  | none => true
  | some t => g.timeout ≤ now - t

/-- The gate after an attempt to pass, and whether the attempt succeeds. -/
def pass (g : Gate) (now : Millis) : Gate × Bool :=
  if g.isOpen now then ({ g with shutAt := some now }, true) else (g, false)

/-- The gate opened by a sign of life. -/
def release (g : Gate) : Gate := { g with shutAt := none }

end Gate

end TraceTimeline
