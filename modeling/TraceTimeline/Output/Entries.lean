import TraceTimeline.Output.Channel

/-!
# Output entries

The traced program's text arrives in chunks, and the chunks of its channels interleave.  For
display they are joined into entries: a chunk extends the last entry if that is of the same channel
and still open, and begins a new entry otherwise.  A flush seals the latest open entry of its
channel; a sealed entry never changes again.

Entries are numbered in the order in which they begin.  Only the most recent ones are kept, and a
number is never used twice, not even after all entries were cleared.
-/

namespace TraceTimeline

/-- A stretch of text from one channel. -/
structure OutputEntry where
  id : Nat
  channel : OutputChannel
  text : String
  /-- Whether the entry is sealed. -/
  flushed : Bool
deriving DecidableEq, Repr

/-- Whether an entry is an open entry of a channel. -/
def OutputEntry.isOpen (channel : OutputChannel) (e : OutputEntry) : Bool :=
  e.channel = channel && !e.flushed

/-- The recent entries in the order in which they began. -/
structure OutputLog where
  entries : List OutputEntry
  /-- The number of entries to keep. -/
  capacity : Nat
  /-- The number of the next entry. -/
  nextId : Nat
deriving DecidableEq, Repr

namespace OutputLog

/-- The log without entries.  A capacity of zero counts as one. -/
def new (capacity : Nat) : OutputLog := ⟨[], max capacity 1, 0⟩

/-- The number of entries that a log keeps unless told otherwise. -/
def defaultCapacity : Nat := 1000

/-- The log with a new entry; the oldest entries go when there are too many. -/
def start (l : OutputLog) (channel : OutputChannel) (text : String) : OutputLog :=
  let entries := l.entries ++ [⟨l.nextId, channel, text, false⟩]
  { l with entries := entries.drop (entries.length - l.capacity), nextId := l.nextId + 1 }

/-- The entries with a text added to the last one. -/
def extendLast (text : String) : List OutputEntry → List OutputEntry
  | [] => []
  | [e] => [{ e with text := e.text ++ text }]
  | e :: rest => e :: extendLast text rest

/-- The log with a chunk put into it, and the number of the entry that the chunk went to.  An empty
chunk goes nowhere. -/
def push (l : OutputLog) (channel : OutputChannel) (text : String) : OutputLog × Option Nat :=
  if text = "" then (l, none)
  else match l.entries.getLast? with
    | some last =>
      if last.isOpen channel then
        ({ l with entries := extendLast text l.entries }, some last.id)
      else (l.start channel text, some l.nextId)
    | none => (l.start channel text, some l.nextId)

/-- The latest open entry of a channel. -/
def lastOpen? (l : OutputLog) (channel : OutputChannel) : Option OutputEntry :=
  l.entries.reverse.find? (·.isOpen channel)

/-- The log with the latest open entry of a channel sealed, and the number of that entry. -/
def flush (l : OutputLog) (channel : OutputChannel) : OutputLog × Option Nat :=
  match l.lastOpen? channel with
  | none => (l, none)
  | some e =>
    let close (x : OutputEntry) := if x.id = e.id then { x with flushed := true } else x
    ({ l with entries := l.entries.map close }, some e.id)

/-- The log without entries.  The numbering goes on. -/
def clear (l : OutputLog) : OutputLog := { l with entries := [] }

def get? (l : OutputLog) (id : Nat) : Option OutputEntry := l.entries.find? (·.id = id)

/-! ## Histories -/

/-- An update of a log. -/
inductive Operation where
  | push (channel : OutputChannel) (text : String)
  | flush (channel : OutputChannel)
  | clear
deriving DecidableEq, Repr

/-- The log after an update. -/
def perform (l : OutputLog) : Operation → OutputLog
  | .push channel text => (l.push channel text).1
  | .flush channel => (l.flush channel).1
  | .clear => l.clear

def run (l : OutputLog) (ops : List Operation) : OutputLog := ops.foldl perform l

end OutputLog

end TraceTimeline
