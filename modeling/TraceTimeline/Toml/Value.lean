import TraceTimeline.Toml.Scalar

/-!
# TOML values

What stands to the right of an equals sign: a scalar, an array or an inline table.  Arrays and
inline tables nest up to a fixed depth.

The keys of an inline table may have several parts, which stand for tables inside the table.  Such
a table may be filled by several keys; a table that was given as a whole may not be added to.
-/

namespace TraceTimeline

/-- A TOML value.  Dates and times are recognised, but nothing here needs to know which. -/
inductive Toml where
  | string (text : String)
  | integer (value : Int)
  | double (value : Float)
  | boolean (value : Bool)
  | dateTime
  | array (items : List Toml)
  | table (entries : List (String × Toml))
deriving Inhabited

namespace Toml

/-- The number of arrays and inline tables that may be nested, and of parts that a key may have. -/
def nestingLimit : Nat := 79

/-! ## Inline tables under construction -/

/-- An inline table while its keys are read: an entry is a value, or a table that keys of several
parts made. -/
inductive Inline where
  | value (v : Toml)
  | made (entries : List (String × Inline))
deriving Inhabited

mutual

/-- The value of an entry. -/
def Inline.toToml : Inline → Toml
  | .value v => v
  | .made entries => .table (Inline.entriesToToml entries)

def Inline.entriesToToml : List (String × Inline) → List (String × Toml)
  | [] => []
  | (k, i) :: rest => (k, i.toToml) :: Inline.entriesToToml rest

end

/-- The entry of a key. -/
def find? {α : Type} (k : String) : List (String × α) → Option α
  | [] => none
  | (k', a) :: rest => if k = k' then some a else find? k rest

/-- The entries with another value for a key that is there. -/
def replace {α : Type} (k : String) (a : α) : List (String × α) → List (String × α)
  | [] => []
  | (k', a') :: rest => if k = k' then (k, a) :: rest else (k', a') :: replace k a rest

/-- The entries with a value under a key of one or more parts, unless something is in the way. -/
def Inline.put? (v : Toml) : List String → List (String × Inline) → Option (List (String × Inline))
  | [], _ => none
  | [k], entries =>
    match find? k entries with
    | none => some (entries ++ [(k, .value v)])
    | some _ => none
  | k :: path, entries =>
    match find? k entries with
    | none => (Inline.put? v path []).map fun made => entries ++ [(k, .made made)]
    | some (.made inner) =>
      (Inline.put? v path inner).map fun made => replace k (.made made) entries
    | some (.value _) => none

/-- The inline table of keys and values in the order in which they were given. -/
def Inline.tableOf? (pairs : List (List String × Toml)) : Option Toml :=
  (pairs.foldlM (fun entries p => Inline.put? p.2 p.1 entries) []).map fun entries =>
    .table (Inline.entriesToToml entries)

/-! ## Reading -/

section

variable (value? : List Char → Option (Toml × List Char))

/-- The items of an array up to its closing bracket; at most `fuel` of them.  A comma may follow the
last one. -/
def arrayItems? : Nat → List Char → Option (List Toml × List Char)
  | 0, _ => none
  | fuel + 1, cs =>
    match skipLines cs.length cs with
    | ']' :: rest => some ([], rest)
    | cs => do
      let (v, cs) ← value? cs
      match skipLines cs.length cs with
      | ',' :: rest => (arrayItems? fuel rest).map fun (vs, rest) => (v :: vs, rest)
      | ']' :: rest => some ([v], rest)
      | _ => none

/-- A key, an equals sign and a value. -/
def keyValue? (cs : List Char) : Option ((List String × Toml) × List Char) := do
  let (path, cs) ← key? cs.length cs
  if nestingLimit < path.length then none
  let cs ← expect? '=' (skipSpace cs)
  let (v, cs) ← value? (skipSpace cs)
  return ((path, v), cs)

/-- One or more keys with values up to the closing brace; at most `fuel` of them. -/
def somePairs? : Nat → List Char → Option (List (List String × Toml) × List Char)
  | 0, _ => none
  | fuel + 1, cs => do
    let (p, cs) ← keyValue? value? cs
    match skipSpace cs with
    | ',' :: rest => (somePairs? fuel rest).map fun (ps, rest) => (p :: ps, rest)
    | '\x7d' :: rest => some ([p], rest)
    | _ => none

/-- The keys and values of an inline table up to its closing brace. -/
def inlinePairs? (cs : List Char) : Option (List (List String × Toml) × List Char) :=
  match skipSpace cs with
  | '\x7d' :: rest => some ([], rest)
  | _ => somePairs? value? cs.length cs

end

/-- A value, with at most `depth` nested arrays and inline tables. -/
def value? (depth : Nat) (cs : List Char) : Option (Toml × List Char) :=
  match cs with
  | '[' :: rest =>
    match depth with
    | 0 => none
    | depth + 1 =>
      (arrayItems? (value? depth) cs.length rest).map fun (items, rest) => (.array items, rest)
  | '\x7b' :: rest =>
    match depth with
    | 0 => none
    | depth + 1 => do
      let (pairs, rest) ← inlinePairs? (value? depth) rest
      return (← Inline.tableOf? pairs, rest)
  | 't' :: 'r' :: 'u' :: 'e' :: rest => some (.boolean true, rest)
  | 'f' :: 'a' :: 'l' :: 's' :: 'e' :: rest => some (.boolean false, rest)
  | _ =>
    match string? cs with
    | some (s, rest) => some (.string (String.ofList s), rest)
    | none =>
      match dateTime? cs with
      | some rest => some (.dateTime, rest)
      | none =>
        match double? cs with
        | some (x, rest) => some (.double x, rest)
        | none => (integer? cs).map fun (n, rest) => (.integer n, rest)

end Toml

end TraceTimeline
