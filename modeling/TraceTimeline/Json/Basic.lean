import TraceTimeline.OrderedMap

/-!
# JSON values

The values that travel between the client and the traced program's backend.  A number is a whole
number or a double: the text decides which, and the two never mix.  An object is the list of its
members; a value that was read lists them in ascending order of their names, each name once, which
`Json.object` brings about for any list of members.

Equality of values is decidable: `Json.same` compares two values part by part, and
`Json.same_iff` says that it decides equality.
-/

namespace TraceTimeline

/-- A JSON number: a whole number, written without point and exponent, or a double. -/
inductive Number where
  | int (value : Int)
  | float (value : Float)
deriving DecidableEq

/-- A JSON value. -/
inductive Json where
  | null
  | bool (value : Bool)
  | num (value : Number)
  | str (text : String)
  | arr (items : List Json)
  | obj (members : List (String × Json))
deriving Inhabited

namespace Json

/-! ## Equality -/

mutual

/-- Whether two values are the same. -/
def same : Json → Json → Bool
  | .null, .null => true
  | .bool a, .bool b => a == b
  | .num a, .num b => decide (a = b)
  | .str a, .str b => a == b
  | .arr a, .arr b => sameItems a b
  | .obj a, .obj b => sameMembers a b
  | _, _ => false

def sameItems : List Json → List Json → Bool
  | [], [] => true
  | a :: as, b :: bs => same a b && sameItems as bs
  | _, _ => false

def sameMembers : List (String × Json) → List (String × Json) → Bool
  | [], [] => true
  | (k, a) :: as, (l, b) :: bs => k == l && same a b && sameMembers as bs
  | _, _ => false

end

mutual

theorem same_refl : (a : Json) → same a a = true
  | .null => rfl
  | .bool _ => by simp [same]
  | .num _ => by simp [same]
  | .str _ => by simp [same]
  | .arr as => by rw [same]; exact sameItems_refl as
  | .obj as => by rw [same]; exact sameMembers_refl as

theorem sameItems_refl : (as : List Json) → sameItems as as = true
  | [] => rfl
  | a :: as => by rw [sameItems, same_refl a, sameItems_refl as]; rfl

theorem sameMembers_refl : (as : List (String × Json)) → sameMembers as as = true
  | [] => rfl
  | (k, a) :: as => by rw [sameMembers, same_refl a, sameMembers_refl as]; simp

end

mutual

theorem eq_of_same : (a b : Json) → same a b = true → a = b
  | .null, b, h => by cases b <;> simp_all [same]
  | .bool _, b, h => by cases b <;> simp_all [same]
  | .num _, b, h => by cases b <;> simp_all [same]
  | .str _, b, h => by cases b <;> simp_all [same]
  | .arr as, .arr bs, h => by rw [eq_of_sameItems as bs (by simpa [same] using h)]
  | .arr _, .null, h => by simp [same] at h
  | .arr _, .bool _, h => by simp [same] at h
  | .arr _, .num _, h => by simp [same] at h
  | .arr _, .str _, h => by simp [same] at h
  | .arr _, .obj _, h => by simp [same] at h
  | .obj as, .obj bs, h => by rw [eq_of_sameMembers as bs (by simpa [same] using h)]
  | .obj _, .null, h => by simp [same] at h
  | .obj _, .bool _, h => by simp [same] at h
  | .obj _, .num _, h => by simp [same] at h
  | .obj _, .str _, h => by simp [same] at h
  | .obj _, .arr _, h => by simp [same] at h

theorem eq_of_sameItems : (as bs : List Json) → sameItems as bs = true → as = bs
  | [], bs, h => by cases bs <;> simp_all [sameItems]
  | a :: as, [], h => by simp [sameItems] at h
  | a :: as, b :: bs, h => by
    rw [sameItems, Bool.and_eq_true] at h
    rw [eq_of_same a b h.1, eq_of_sameItems as bs h.2]

theorem eq_of_sameMembers :
    (as bs : List (String × Json)) → sameMembers as bs = true → as = bs
  | [], bs, h => by cases bs <;> simp_all [sameMembers]
  | a :: as, [], h => by simp [sameMembers] at h
  | (k, a) :: as, (l, b) :: bs, h => by
    rw [sameMembers, Bool.and_eq_true, Bool.and_eq_true, beq_iff_eq] at h
    rw [h.1.1, eq_of_same a b h.1.2, eq_of_sameMembers as bs h.2]

end

theorem same_iff {a b : Json} : same a b = true ↔ a = b :=
  ⟨eq_of_same a b, fun h => h ▸ same_refl a⟩

instance : DecidableEq Json := fun _ _ => decidable_of_iff _ same_iff

/-! ## Building values -/

/-- The object with the given members in ascending order; of two members of one name the later one
counts. -/
def object (members : List (String × Json)) : Json := .obj (OrderedMap.ofList members).entries

def int (n : Int) : Json := .num (.int n)

def nat (n : Nat) : Json := int n

/-- The value, or `null` where there is none. -/
def ofOption {α : Type} (f : α → Json) : Option α → Json
  | none => .null
  | some a => f a

end Json

end TraceTimeline
