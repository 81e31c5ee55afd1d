import TraceTimeline.Terminal.View

/-!
# Screens

A screen is an engine with one view on it, and all that the view wrote so far.  Operations of the
engine and renderings alternate in any way: several operations may go by before the next rendering,
and a rendering may find that nothing happened.
-/

namespace TraceTimeline

/-- An engine, a view on it, and the lines that the view wrote. -/
structure Screen where
  engine : Engine
  view : View
  log : List TerminalLine
deriving DecidableEq

namespace Screen

/-- The screen of a new engine, before the first rendering. -/
def new (settings : EngineSettings) : Screen := ⟨Engine.new settings, View.new, []⟩

/-- Something that happens to a screen. -/
inductive Operation where
  | engine (op : Engine.Operation)
  | render

/-- The screen after an operation of its engine. -/
def operate (s : Screen) (op : Engine.Operation) : Screen :=
  { s with engine := (s.engine.perform op).1 }

def render (s : Screen) : Screen :=
  let (view, lines) := s.view.render s.engine
  { s with view := view, log := s.log ++ lines }

def perform (s : Screen) : Operation → Screen
  | .engine op => s.operate op
  | .render => s.render

def run (s : Screen) (ops : List Operation) : Screen := ops.foldl perform s

end Screen

end TraceTimeline
