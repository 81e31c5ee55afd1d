import TraceTimeline.Json.Document
import TraceTimeline.Text.Blank

/-!
# Diffs

A diff says how a step changes a set of variables: for each name it mentions, the new value or that
the variable is gone.  On the wire a diff is an object in which the text `<deleted>` stands for a
removal; `null` is a value like any other.  The same object may also come as a text that spells
it.  Anything else is the empty diff, so that a bad diff never spoils the step around it.
-/

namespace TraceTimeline

/-- Variables and their values. -/
abbrev Variables := OrderedMap String Json

/-- What a diff does to one variable. -/
inductive Change where
  | set (value : Json)
  | delete
deriving DecidableEq

namespace Change

/-- The value that stands for a removal on the wire. -/
def deletedMark : String := "<deleted>"

/-- The change that a value on the wire stands for. -/
def ofJson : Json → Change
  | .str s => if s = deletedMark then .delete else .set (.str s)
  | v => .set v

/-- The value on the wire of a change. -/
def toJson : Change → Json
  | .set v => v
  | .delete => .str deletedMark

/-- A change made to one variable. -/
def applyTo (name : String) (vars : Variables) : Change → Variables
  | .set v => vars.insert name v
  | .delete => vars.erase name

end Change

/-- The changes that one step makes, by variable. -/
abbrev Diff := OrderedMap String Change

namespace Diff

def none : Diff := OrderedMap.empty

def set (d : Diff) (name : String) (value : Json) : Diff := d.insert name (.set value)

def delete (d : Diff) (name : String) : Diff := d.insert name .delete

/-- The changes of a diff made to variables, in the order of their names. -/
def applyTo (d : Diff) (vars : Variables) : Variables :=
  d.entries.foldl (fun vars e => e.2.applyTo e.1 vars) vars

/-- The diff that an object's members stand for. -/
def ofMembers (members : List (String × Json)) : Diff :=
  OrderedMap.ofList (members.map fun m => (m.1, Change.ofJson m.2))

/-- The diff that a value on the wire stands for. -/
def ofJson : Json → Diff
  | .obj members => ofMembers members
  | .str s =>
    match Json.ofText? (Text.trim s) with
    | some (.obj members) => ofMembers members
    | _ => none
  | _ => none

def toJson (d : Diff) : Json := .obj (d.mapValues Change.toJson).entries

end Diff

end TraceTimeline
