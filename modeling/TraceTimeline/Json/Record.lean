import TraceTimeline.Json.Document
import TraceTimeline.Json.Printer

/-!
# Reading records

The messages of the backend are records: objects whose members have known names, or arrays that
list the fields in a fixed order.  They are read in two situations, from a value and directly from
a text.  What differs is only when a part is looked at: a text is read part by part, within the
limit to nesting, and a part that the record does not know is never looked at.

`Layer` is one level of a JSON tree, with parts that have not been read yet; `Source` says how to
look at one level and how to read a part as a value.  Everything above this module is written once
for every source, and `Json` and `Nested` are the two sources there are.

A field has one or more names and a position.  `Record.part?` gives the part of a record for a
field: it fails on a record that names the field twice.
-/

namespace TraceTimeline

/-- One level of a JSON tree whose parts are of type `α`. -/
inductive Layer (α : Type) where
  | null
  | bool (value : Bool)
  | num (value : Number)
  | str (text : String)
  | arr (items : List α)
  | obj (members : List (String × α))

/-- A representation of JSON trees that can be read level by level. -/
class Source (α : Type) where
  /-- The outermost level, if it is well formed. -/
  layer? : α → Option (Layer α)
  /-- The whole value, if it is well formed. -/
  value? : α → Option Json

/-- The outermost level of a value. -/
def Json.layer : Json → Layer Json
  | .null => .null
  | .bool b => .bool b
  | .num n => .num n
  | .str s => .str s
  | .arr items => .arr items
  | .obj members => .obj members

instance : Source Json where
  layer? v := some v.layer
  value? := some

/-- A part of a text that has not been read yet, and the number of nested arrays and objects that
it may still hold. -/
structure Nested where
  document : Document
  room : Nat

namespace Nested

/-- The members of an object, if all names are well formed. -/
def members? (room : Nat) : List (Option String × Document) → Option (List (String × Nested))
  | [] => some []
  | (k, d) :: rest => do return (← k, ⟨d, room⟩) :: (← members? room rest)

/-- The outermost level of a part of a text. -/
def layer? (n : Nested) : Option (Layer Nested) :=
  match n.document, n.room with
  | .null, _ => some .null
  | .bool b, _ => some (.bool b)
  | .num x, _ => x.map .num
  | .str s, _ => s.map .str
  | .arr items, room + 1 => some (.arr (items.map (⟨·, room⟩)))
  | .obj members, room + 1 => (members? room members).map .obj
  | .arr _, 0 => none
  | .obj _, 0 => none

instance : Source Nested where
  layer? := layer?
  value? n := n.document.value? n.room

def ofText? (s : String) : Option Nested :=
  (Document.ofText? s).map (⟨·, Document.nestingLimit⟩)

end Nested

/-! ## Simple parts -/

namespace Source

variable {α β : Type} [Source α]

def string? (a : α) : Option String :=
  match layer? a with
  | some (.str s) => some s
  | _ => none

def int? (a : α) : Option Int :=
  match layer? a with
  | some (.num (.int n)) => some n
  | _ => none

def uint64? (a : α) : Option UInt64 := do
  let n ← int? a
  if 0 ≤ n ∧ n < UInt64.size then some n.toNat.toUInt64 else none

def uint32? (a : α) : Option UInt32 := do
  let n ← int? a
  if 0 ≤ n ∧ n < UInt32.size then some n.toNat.toUInt32 else none

def int64? (a : α) : Option Int := do
  let n ← int? a
  if Text.isSigned64 n then some n else none

/-- A list of parts that `read` accepts. -/
def list? (read : α → Option β) (a : α) : Option (List β) :=
  match layer? a with
  | some (.arr items) => items.mapM read
  | _ => none

/-- `null`, or what `read` accepts. -/
def nullable? (read : α → Option β) (a : α) : Option (Option β) :=
  match layer? a with
  | none => none
  | some .null => some none
  | some _ => (read a).map some

/-- An identifier: `null` for none, a text as it stands, and any other value as its compact text. -/
def identifier? (a : α) : Option (Option String) :=
  (value? a).map fun
    | .null => none
    | .str s => some s
    | v => some v.compact

end Source

/-! ## Records -/

/-- A field of a record: its names and its position. -/
structure Field where
  names : List String
  position : Nat

/-- The unread parts of a record, by name or by position. -/
inductive Record (α : Type) where
  | named (members : List (String × α))
  | listed (items : List α)

namespace Record

variable {α β : Type}

/-- The record with at most `arity` fields that a tree holds. -/
def of? [Source α] (arity : Nat) (a : α) : Option (Record α) :=
  match Source.layer? a with
  | some (.obj members) => some (.named members)
  | some (.arr items) => if items.length ≤ arity then some (.listed items) else none
  | _ => none

/-- The part given for a field, which may be missing; nothing if the field is named twice. -/
def part? (r : Record α) (f : Field) : Option (Option α) :=
  match r with
  | .listed items => some items[f.position]?
  | .named members =>
    match members.filter fun m => f.names.contains m.1 with
    | [] => some none
    | [m] => some (some m.2)
    | _ => none

/-- A field that has to be given. -/
def required? (r : Record α) (f : Field) (read : α → Option β) : Option β := do
  read (← ← r.part? f)

/-- A field with a value for when it is missing. -/
def optional? (r : Record α) (f : Field) (missing : β) (read : α → Option β) : Option β := do
  match ← r.part? f with
  | none => some missing
  | some a => read a

end Record

end TraceTimeline
