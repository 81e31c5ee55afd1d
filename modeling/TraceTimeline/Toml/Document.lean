import TraceTimeline.Toml.Value

/-!
# TOML documents

A document is a list of lines: headers that open a table or add a table to an array of tables, and
keys with values that belong to the table opened last.

What makes the assembly delicate is which tables may still be added to.  `Origin` records how a
table came about.  A table that only the headers of its inner tables implied may be opened later,
once.  A table that keys of several parts made may be filled by more such keys, but not opened.  A
table that was opened may not be opened again.
-/

namespace TraceTimeline.Toml

/-- How a table came about. -/
inductive Origin where
  /-- By its own header. -/
  | opened
  /-- By the header of a table inside it. -/
  | implied
  /-- By a key of several parts. -/
  | dotted
deriving DecidableEq

/-- A part of a document: a value, a table, or an array of tables, the last table first. -/
inductive Item where
  | value (v : Toml)
  | table (origin : Origin) (entries : List (String × Item))
  | tables (last : List (String × Item)) (earlier : List (List (String × Item)))
deriving Inhabited

/-- The entries of a table. -/
abbrev Entries := List (String × Item)

namespace Item

mutual

/-- The value of an item. -/
def toToml : Item → Toml
  | .value v => v
  | .table _ entries => .table (entriesToToml entries)
  | .tables last earlier => .array (.table (entriesToToml last) :: tablesToToml earlier)

def entriesToToml : List (String × Item) → List (String × Toml)
  | [] => []
  | (k, i) :: rest => (k, i.toToml) :: entriesToToml rest

def tablesToToml : List (List (String × Item)) → List Toml
  | [] => []
  | t :: rest => .table (entriesToToml t) :: tablesToToml rest

end

/-- A table to work on: how it came about, and its entries. -/
structure Target where
  origin : Origin
  entries : Entries

/-- The entries after `change` was made to the table at a path, which is made on the way where it
is missing.  In an array of tables the path goes on in the last table.  Along the parts of a
dotted key it does not pass through tables that were opened by a header. -/
def within? (dotted : Bool) (change : Target → Option Entries) :
    List String → Target → Option Entries
  | [], target => change target
  | k :: path, target =>
    match find? k target.entries with
    | none =>
      let origin := if dotted then Origin.dotted else Origin.implied
      (within? dotted change path ⟨origin, []⟩).map fun inner =>
        target.entries ++ [(k, .table origin inner)]
    | some (.value _) => none
    | some (.tables last earlier) =>
      (within? dotted change path ⟨.opened, last⟩).map fun inner =>
        replace k (.tables inner earlier) target.entries
    | some (.table origin entries) =>
      if dotted ∧ origin = .opened then none
      else (within? dotted change path ⟨origin, entries⟩).map fun inner =>
        replace k (.table origin inner) target.entries

/-- The entries with a value under a key.  A key of several parts may end only in a table that such
keys made. -/
def putValue? (path : List String) (v : Toml) (entries : Entries) : Option Entries :=
  match path.getLast? with
  | none => none
  | some k =>
    within? true (fun target =>
      if path.length > 1 ∧ target.origin ≠ .dotted then none
      else match find? k target.entries with
        | some _ => none
        | none => some (target.entries ++ [(k, .value v)]))
      path.dropLast ⟨.opened, entries⟩

end Item

/-! ## Headers and the table that is open -/

/-- The document so far: all closed tables, and the one that is open. -/
structure Assembly where
  root : Entries
  /-- The path of the open table; the empty path is the document itself. -/
  path : List String
  /-- Whether the open table belongs to an array of tables. -/
  inArray : Bool
  /-- The entries of the open table. -/
  current : Entries

namespace Assembly

/-- The document before its first line. -/
def start : Assembly := ⟨[], [], false, []⟩

/-- All tables of the document after the open one was closed. -/
def closed? (a : Assembly) : Option Entries :=
  match a.path.getLast? with
  | none => some a.current
  | some k =>
    Item.within? false (fun target =>
      match find? k target.entries with
      | none =>
        some (target.entries ++
          [(k, if a.inArray then .tables a.current [] else .table .opened a.current)])
      | some (.tables last earlier) =>
        if a.inArray then some (replace k (.tables a.current (last :: earlier)) target.entries)
        else none
      | some _ => none)
      a.path.dropLast ⟨.opened, a.root⟩

/-- The entries of a table that a header may open again, because it was only implied. -/
def implied? (k : String) (entries : Entries) : Option Entries :=
  match find? k entries with
  | none => some []
  | some (.table .implied inner) => some inner
  | some _ => none

/-- The entries at the end of a path. -/
def entriesAt? : List String → Entries → Option Entries
  | [], entries => some entries
  | k :: path, entries =>
    match find? k entries with
    | none => some []
    | some (.value _) => none
    | some (.tables last _) => entriesAt? path last
    | some (.table _ inner) => entriesAt? path inner

/-- The document after a header that opens a table. -/
def openTable? (a : Assembly) (path : List String) : Option Assembly := do
  let root ← a.closed?
  let k ← path.getLast?
  let parent ← entriesAt? path.dropLast root
  let current ← implied? k parent
  let root ← Item.within? false
    (fun target => some (target.entries.filter (·.1 ≠ k))) path.dropLast ⟨.opened, root⟩
  return ⟨root, path, false, current⟩

/-- The document after a header that adds a table to an array of tables. -/
def addTable? (a : Assembly) (path : List String) : Option Assembly := do
  let root ← a.closed?
  let k ← path.getLast?
  let parent ← entriesAt? path.dropLast root
  match find? k parent with
  | none => return ⟨root, path, true, []⟩
  | some (.tables _ _) => return ⟨root, path, true, []⟩
  | some _ => none

/-- The document after a key with a value. -/
def put? (a : Assembly) (path : List String) (v : Toml) : Option Assembly :=
  (Item.putValue? path v a.current).map fun current => { a with current }

end Assembly

/-! ## Lines -/

/-- A header between brackets. -/
def header? (closing : List Char) (cs : List Char) : Option (List String × List Char) := do
  let (path, cs) ← key? cs.length cs
  if nestingLimit < path.length then none
  let cs ← closing.foldlM (fun cs c => expect? c cs) cs
  return (path, cs)

/-- The document after one more line, and the text after that line. -/
def line? (a : Assembly) (cs : List Char) : Option (Assembly × List Char) :=
  match cs with
  | '#' :: _ => (restOfLine? cs).map fun rest => (a, rest)
  | '[' :: '[' :: rest => do
    let (path, rest) ← header? [']', ']'] rest
    let rest ← restOfLine? rest
    return (← a.addTable? path, rest)
  | '[' :: rest => do
    let (path, rest) ← header? [']'] rest
    let rest ← restOfLine? rest
    return (← a.openTable? path, rest)
  | _ =>
    match newLine? cs with
    | some rest => some (a, rest)
    | none => do
      let ((path, v), rest) ← keyValue? (value? nestingLimit) cs
      let rest ← restOfLine? rest
      return (← a.put? path v, rest)

/-- The document of all lines of a text; at most `fuel` of them. -/
def lines? : Nat → Assembly → List Char → Option Assembly
  | 0, a, cs => if skipSpace cs = [] then some a else none
  | fuel + 1, a, cs =>
    match skipSpace cs with
    | [] => some a
    | cs => do
      let (a, rest) ← line? a cs
      lines? fuel a rest

/-- The text without a byte order mark at its front. -/
def skipByteOrderMark (cs : List Char) : List Char :=
  match cs with
  | '\ufeff' :: rest => rest
  | cs => cs

def ofText? (s : String) : Option (List (String × Toml)) := do
  let cs := skipByteOrderMark s.toList
  let a ← lines? cs.length .start cs
  return Item.entriesToToml (← a.closed?)

end TraceTimeline.Toml
