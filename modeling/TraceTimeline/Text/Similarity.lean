/-!
# Similarity

How much two words are alike, as a number from zero to one, and the names that are so much alike a
word that the word may have been meant for one of them.

Two equal characters of the words belong together if they are not too far apart.  What counts is how
large a part of either word belongs together, and how much of that is in the same order.
-/

namespace TraceTimeline.Text

/-- Takes the first free character that equals `c` and is at most `range` places away from place
`i`, in a word from place `j` on. -/
def partner? (range i : Nat) (c : Char) (j : Nat) :
    List (Char × Bool) → Option (List (Char × Bool))
  | [] => none
  | (d, taken) :: rest =>
    if c = d ∧ ¬ taken ∧ i ≤ j + range ∧ j ≤ i + range then some ((d, true) :: rest)
    else (partner? range i c (j + 1) rest).map ((d, taken) :: ·)

/-- The characters of a word from place `i` on that have partners in another word, and the other
word with the partners taken. -/
def partnered (range i : Nat) : List Char → List (Char × Bool) → List Char × List (Char × Bool)
  | [], other => ([], other)
  | c :: cs, other =>
    match partner? range i c 0 other with
    | none => partnered range (i + 1) cs other
    | some other =>
      let (matched, other) := partnered range (i + 1) cs other
      (c :: matched, other)

/-- The characters of either word that have partners in the other one, in the order of that word. -/
def commonCharacters (a b : List Char) : List Char × List Char :=
  let range := max a.length b.length / 2 - 1
  let (left, other) := partnered range 0 a (b.map fun c => (c, false))
  (left, (other.filter (·.2)).map (·.1))

/-- The part that one number is of another. -/
def ratio (m n : Nat) : Float := m.toFloat / n.toFloat

/-- How much two words are alike. -/
def similarity (a b : String) : Float :=
  let (left, right) := commonCharacters a.toList b.toList
  let common := left.length
  let displaced := ((left.zip right).filter fun p => p.1 ≠ p.2).length / 2
  if a.isEmpty && b.isEmpty then 1
  else if common = 0 then 0
  else (ratio common a.length + ratio common b.length + ratio (common - displaced) common) / 3

/-- Puts a name behind all that are not more alike. -/
def rank (likeness : Float) (name : String) : List (Float × String) → List (Float × String)
  | [] => [(likeness, name)]
  | x :: xs => if likeness < x.1 then (likeness, name) :: x :: xs else x :: rank likeness name xs

/-- The names that are much alike a word, the most similar one last. -/
def similarNames (word : String) (names : List String) : List String :=
  (names.foldl (fun found name =>
      let likeness := similarity word name
      if 0.7 < likeness then rank likeness name found else found) []).map (·.2)

/-- The name that is most alike a word, if one is much alike it. -/
def nearestName? (word : String) (names : List String) : Option String :=
  (similarNames word names).getLast?

end TraceTimeline.Text
