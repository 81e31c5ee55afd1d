import TraceTimeline.Connection.Backoff
import TraceTimeline.Engine.Basic
import TraceTimeline.Toml.Document

/-!
# Settings

The settings of the client, and how a settings file changes them.  The file is a TOML document of
five sections.  Every section and every key may be left out, and keys that are not known are
ignored.  A value of the wrong kind makes the whole file invalid.

A section is a table, or an array that gives all of its values in order.  A date in place of a
section counts as a table with none of the keys.
-/

namespace TraceTimeline

/-- The settings of the client. -/
structure Settings where
  httpUrl : String
  wsUrl : String
  requestTimeout : Millis
  reconnect : ReconnectPolicy
  timelineCapacity : Nat
  policy : CarryPolicy
  outputCapacity : Nat
  continueTimeout : Millis
deriving DecidableEq

namespace Settings

/-- The settings for when there is no file. -/
def default : Settings where
  httpUrl := "http://127.0.0.1:8000/api"
  wsUrl := "ws://127.0.0.1:8000/api/ws"
  requestTimeout := 10000
  reconnect := ReconnectPolicy.default
  timelineCapacity := Store.defaultCapacity
  policy := .sticky
  outputCapacity := OutputLog.defaultCapacity
  continueTimeout := 2000

instance : Inhabited Settings := ⟨default⟩

/-! ## Reading values -/

def string? : Toml → Option String
  | .string s => some s
  | _ => none

def natural? : Toml → Option Nat
  | .integer (.ofNat n) => some n
  | _ => none

/-- A whole number as a double. -/
def doubleOf (n : Int) : Float :=
  if n < 0 then -n.natAbs.toUInt64.toFloat else n.natAbs.toUInt64.toFloat

/-- A double, or a whole number in its place. -/
def double? : Toml → Option Float
  | .double x => some x
  | .integer n => some (doubleOf n)
  | _ => none

/-- A policy: its name, or a table whose only key is its name and whose only value is an empty table
or array. -/
def policy? : Toml → Option CarryPolicy
  | .string s => CarryPolicy.ofExactName? s
  | .table [(s, .table [])] => CarryPolicy.ofExactName? s
  | .table [(s, .array [])] => CarryPolicy.ofExactName? s
  | _ => none

/-- A section of a settings file. -/
inductive Section where
  | named (entries : List (String × Toml))
  | listed (items : List Toml)

namespace Section

/-- The section of so many values under a key; a missing one is empty. -/
def of? (key : String) (arity : Nat) (file : List (String × Toml)) : Option Section :=
  match Toml.find? key file with
  | none => some (.named [])
  | some (.table entries) => some (.named entries)
  | some .dateTime => some (.named [])
  | some (.array items) => if arity ≤ items.length then some (.listed items) else none
  | some _ => none

/-- A value of a section, by its key or its position. -/
def item? (s : Section) (key : String) (position : Nat) : Option Toml :=
  match s with
  | .named entries => Toml.find? key entries
  | .listed items => items[position]?

/-- A value of a section that `read` accepts, or the value for when it is missing. -/
def get? {α : Type} (s : Section) (key : String) (position : Nat) (missing : α)
    (read : Toml → Option α) : Option α :=
  match s.item? key position with
  | none => some missing
  | some v => read v

end Section

/-! ## Reading a file -/

/-- The reconnect policy of a section.  A section that is there is normalized. -/
def readReconnect? (file : List (String × Toml)) (p : ReconnectPolicy) :
    Option ReconnectPolicy := do
  let s ← Section.of? "reconnect" 3 file
  let next : ReconnectPolicy := {
    initialDelay := ← s.get? "initial_delay_ms" 0 p.initialDelay natural?
    maxDelay := ← s.get? "max_delay_ms" 1 p.maxDelay natural?
    multiplier := ← s.get? "multiplier" 2 p.multiplier double? }
  return if (Toml.find? "reconnect" file).isSome then next.normalized else next

/-- A capacity; zero counts as one. -/
def capacity? (v : Toml) : Option Nat := (natural? v).map (max · 1)

/-- The settings after those of a file were put in their place. -/
def merge? (s : Settings) (file : List (String × Toml)) : Option Settings := do
  let server ← Section.of? "server" 3 file
  let timeline ← Section.of? "timeline" 2 file
  let streams ← Section.of? "streams" 1 file
  let control ← Section.of? "control" 1 file
  return {
    httpUrl := ← server.get? "http_url" 0 s.httpUrl string?
    wsUrl := ← server.get? "ws_url" 1 s.wsUrl string?
    requestTimeout := ← server.get? "request_timeout_ms" 2 s.requestTimeout natural?
    reconnect := ← readReconnect? file s.reconnect
    timelineCapacity := ← timeline.get? "capacity" 0 s.timelineCapacity capacity?
    policy := ← timeline.get? "return_policy" 1 s.policy policy?
    outputCapacity := ← streams.get? "capacity" 0 s.outputCapacity capacity?
    continueTimeout := ← control.get? "continue_timeout_ms" 0 s.continueTimeout natural? }

def ofText? (s : String) : Option Settings := do default.merge? (← Toml.ofText? s)

/-- Why a settings file was not read. -/
inductive FileError where
  /-- The file is missing or is not text. -/
  | unreadable
  /-- The text is not that of settings. -/
  | invalid
deriving DecidableEq, Repr

/-- The settings that the bytes of a file give, if there is a file. -/
def ofFile : Option ByteArray → Except FileError Settings
  | none => .error .unreadable
  | some bytes =>
    match String.fromUTF8? bytes with
    | none => .error .unreadable
    | some text =>
      match ofText? text with
      | some s => .ok s
      | none => .error .invalid

/-- The settings with other addresses and another policy, as far as they are given. -/
def override (s : Settings) (httpUrl wsUrl : Option String) (policy : Option CarryPolicy) :
    Settings :=
  { s with
    httpUrl := httpUrl.getD s.httpUrl
    wsUrl := wsUrl.getD s.wsUrl
    policy := policy.getD s.policy }

/-- The settings of an engine. -/
def engine (s : Settings) : EngineSettings where
  timelineCapacity := s.timelineCapacity
  policy := s.policy
  outputCapacity := s.outputCapacity
  continueTimeout := s.continueTimeout

/-! ## The first file -/

/-- The text of the settings file that is written where there is none.  It gives every setting its
usual value. -/
def exampleText : String := String.intercalate "\n" [
  "# retrace configuration",
  "#",
  "# Every key is optional; anything left out uses the built-in default shown here.",
  "",
  "[server]",
  "# Request/response channel (full resync, backend restart)",
  "http_url = \"http://127.0.0.1:8000/api\"",
  "# Push channel (live events, stream output)",
  "ws_url = \"ws://127.0.0.1:8000/api/ws\"",
  "request_timeout_ms = 10000",
  "",
  "[reconnect]",
  "# Delay before the first reconnect attempt after the push channel drops.",
  "initial_delay_ms = 500",
  "# Upper bound for the delay between attempts.",
  "max_delay_ms = 5000",
  "# Growth factor per failed attempt. 1.0 keeps a fixed delay.",
  "multiplier = 2.0",
  "",
  "[timeline]",
  "# Maximum number of execution steps retained in memory.",
  "capacity = 500",
  "# How return values and errors carry across steps:",
  "#   \"sticky\"               only a later non-null value replaces them (default)",
  "#   \"explicit-null-clears\" an explicit null on a later step clears them",
  "#   \"frame-scoped\"         they are cleared when the active frame changes",
  "return_policy = \"sticky\"",
  "",
  "[streams]",
  "# Maximum number of stdout/stderr display entries retained.",
  "capacity = 1000",
  "",
  "[control]",
  "# How long the continue command stays disabled without a backend reply.",
  "continue_timeout_ms = 2000",
  ""]

end Settings

end TraceTimeline
