import TraceTimeline.FileSystem.Basic
import TraceTimeline.OrderedMap

/-!
# Trees of files

A file system in memory: which places there are below a root, and what is at them.  A place is the
list of names that lead to it from the root.  A path is followed part by part: `.` and an empty part
stay where they are, `..` goes up, and any other part goes down, always from a directory.  Neither a
path nor a part of it may be longer than a fixed number of bytes.
-/

namespace TraceTimeline

/-- What may be at a place. -/
inductive FileNode where
  | directory
  | file (content : ByteArray)

/-- The names that lead to a place from the root. -/
abbrev Place := List String

/-- Files and directories below a root, and the place from which a relative path starts. -/
structure FileTree where
  nodes : OrderedMap String FileNode
  current : Place

namespace FileTree

/-- The absolute path of a place. -/
def pathOf (p : Place) : String := String.join (p.map ("/" ++ ·))

/-- What is at a place.  The root is a directory. -/
def node? (t : FileTree) (p : Place) : Option FileNode :=
  if p = [] then some .directory else t.nodes.get? (pathOf p)

/-- The tree with something put at a place. -/
def put (t : FileTree) (p : Place) (n : FileNode) : FileTree :=
  { t with nodes := t.nodes.insert (pathOf p) n }

/-- The place that one part of a path leads to. -/
def move (p : Place) (part : String) : Place :=
  if part = "" ∨ part = "." then p else if part = ".." then p.dropLast else p ++ [part]

/-- The number of bytes that a path has to stay below. -/
def pathLimit : Nat := 4096

/-- The greatest number of bytes in one part of a path. -/
def partLimit : Nat := 255

/-- The place where a path starts, and its parts. -/
def begin (t : FileTree) (path : String) : Except SystemError (Place × List String) :=
  if pathLimit ≤ path.utf8ByteSize then .error .nameTooLong
  else .ok (if path.toList.head? = some '/' then [] else t.current, path.splitOn "/")

/-- The place that the parts of a path lead to.  Only the last part may lead to a place where
nothing is. -/
def walk (t : FileTree) (p : Place) : List String → Except SystemError Place
  | [] => .ok p
  | part :: parts =>
    match t.node? p with
    | none => .error .notFound
    | some (.file _) => .error .notDirectory
    | some .directory =>
      if partLimit < part.utf8ByteSize then .error .nameTooLong else t.walk (move p part) parts

/-- The place that a path leads to. -/
def locate (t : FileTree) (path : String) : Except SystemError Place :=
  if path = "" then .error .notFound
  else do
    let (start, parts) ← t.begin path
    t.walk start parts

/-- The tree with directories along the parts of a path. -/
def makeDirectoriesFrom (t : FileTree) (p : Place) : List String → Except SystemError FileTree
  | [] => .ok t
  | part :: parts =>
    let next := move p part
    if partLimit < part.utf8ByteSize then .error .nameTooLong else
    match t.node? next with
    | none => (t.put next .directory).makeDirectoriesFrom next parts
    | some .directory => t.makeDirectoriesFrom next parts
    | some (.file _) => .error (if parts = [] then .alreadyThere else .notDirectory)

/-- The tree with a directory at the end of a path. -/
def makeDirectories (t : FileTree) (path : String) : Except SystemError FileTree := do
  let (start, parts) ← t.begin path
  t.makeDirectoriesFrom start parts

/-- The tree with an empty file at the end of a path, unless there is a file. -/
def touch (t : FileTree) (path : String) : Except SystemError FileTree := do
  let p ← t.locate path
  match t.node? p with
  | none => .ok (t.put p (.file .empty))
  | some (.file _) => .ok t
  | some .directory => .error .isDirectory

/-- What is at the end of a path. -/
def lookup? (t : FileTree) (path : String) : Except SystemError FileNode := do
  match t.node? (← t.locate path) with
  | none => .error .notFound
  | some n => .ok n

def read (t : FileTree) (path : String) : Except SystemError ByteArray := do
  match ← t.lookup? path with
  | .file content => .ok content
  | .directory => .error .isDirectory

/-- The tree with a file of some content at the end of a path. -/
def write (t : FileTree) (path : String) (content : ByteArray) : Except SystemError FileTree := do
  let p ← t.locate path
  match t.node? p with
  | some .directory => .error .isDirectory
  | _ => .ok (t.put p (.file content))

def present (t : FileTree) (path : String) : Bool := (t.lookup? path).isOk

def isFile (t : FileTree) (path : String) : Bool := (t.read path).isOk

/-- The tree with a file, and with the directories that lead to it. -/
def addFile (t : FileTree) (path : String) (content : ByteArray) : Except SystemError FileTree := do
  let parts := path.splitOn "/"
  let t ← t.makeDirectoriesFrom t.current parts.dropLast
  t.write path content

/-- The tree of a directory without files. -/
def ofDirectory (p : Place) : FileTree :=
  let tree : FileTree := ⟨OrderedMap.empty, p⟩
  (tree.makeDirectoriesFrom [] p).toOption.getD tree

/-- Carries out a change of the tree; one that fails leaves the tree as it is. -/
def change (f : FileTree → Except SystemError FileTree) :
    StateM FileTree (Except SystemError Unit) :=
  fun t =>
    match f t with
    | .ok t => (.ok (), t)
    | .error e => (.error e, t)

instance : FileSystem (StateM FileTree) where
  makeDirectories path := change (·.makeDirectories path)
  touch path := change (·.touch path)
  present path := fun t => (t.present path, t)
  read path := fun t => (t.read path, t)
  write path content := change (·.write path content)

end FileTree

end TraceTimeline
