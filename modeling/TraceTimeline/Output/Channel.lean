import TraceTimeline.Text.Blank

/-!
# Standard channels

The three channels of the traced program's text: what it writes, what it complains about and what
it was given to read.
-/

namespace TraceTimeline

/-- A standard channel of the traced program. -/
inductive OutputChannel where
  | stdout
  | stderr
  | stdin
deriving DecidableEq, Repr, Inhabited

namespace OutputChannel

def name : OutputChannel → String
  | .stdout => "stdout"
  | .stderr => "stderr"
  | .stdin => "stdin"

/-- The channel of a name, with blanks around it. -/
def ofName? (s : String) : Option OutputChannel :=
  match Text.trim s with
  | "stdout" => some .stdout
  | "stderr" => some .stderr
  | "stdin" => some .stdin
  | _ => none

end OutputChannel

end TraceTimeline
