import Mathlib
import TraceTimeline.Timeline.LineIndex

/-!
# What the line index holds

`LineIndex.Lists` says that an index holds the number of every step of a list at the line of the
step, and nothing else: no other number, and no line without numbers.  Entering a step and leaving
it keep this up, and there is only one such index for a list of steps (`LineIndex.Lists.unique`), so
that stores which retain the same steps answer every look-up by line alike.
-/

namespace TraceTimeline

namespace LineIndex

variable {index : LineIndex} {at? : Option SourceLine} {line : SourceLine} {id : StepId}

/-! ## One entry more or less -/

lemma get?_enter (index : LineIndex) (l line : SourceLine) (id : StepId) :
    (index.enter (some l) id).get? line =
      if line = l then some (((index.get? l).getD OrderedMap.empty).insert id ())
      else index.get? line :=
  OrderedMap.get?_insert ..

/-- The index after a step left a line: a set of numbers that becomes empty is dropped. -/
lemma get?_leave (index : LineIndex) (l line : SourceLine) (id : StepId) :
    (index.leave (some l) id).get? line =
      if line = l then ((index.get? l).map (·.erase id)).filter (! ·.isEmpty)
      else index.get? line := by
  cases hl : index.get? l with
  | none =>
    by_cases h : line = l
    · simp [leave, h, hl]
    · simp [leave, h, hl]
  | some ids =>
    by_cases hempty : (ids.erase id).isEmpty
    · simp [leave, hl, hempty, OrderedMap.get?_erase, Option.filter]
    · simp [leave, hl, hempty, OrderedMap.get?_insert, Option.filter]

lemma mem_stepsAt :
    id ∈ index.stepsAt line ↔ ∃ ids, index.get? line = some ids ∧ (ids.get? id).isSome := by
  unfold stepsAt
  cases index.get? line with
  | none => simp
  | some ids => simp [OrderedMap.mem_keys]

lemma pairwise_stepsAt (index : LineIndex) (line : SourceLine) :
    (index.stepsAt line).Pairwise (· < ·) := by
  unfold stepsAt
  split
  · next ids _ => exact List.pairwise_map.2 ids.ascending
  · exact .nil

/-- After a step was entered, its number is at its line. -/
lemma mem_stepsAt_enter {new : StepId} :
    id ∈ (index.enter at? new).stepsAt line ↔
      (at? = some line ∧ id = new) ∨ id ∈ index.stepsAt line := by
  cases at? with
  | none => simp [enter]
  | some l =>
    simp only [mem_stepsAt, get?_enter, Option.some.injEq]
    by_cases hl : line = l
    · subst hl
      by_cases hid : id = new
      · simp [hid, OrderedMap.get?_insert]
      · cases index.get? line <;> simp [hid, OrderedMap.get?_insert]
    · simp [hl, Ne.symm hl]

/-- After a step left, its number is no longer at its line. -/
lemma mem_stepsAt_leave {old : StepId} :
    id ∈ (index.leave at? old).stepsAt line ↔
      ¬ (at? = some line ∧ id = old) ∧ id ∈ index.stepsAt line := by
  cases at? with
  | none => simp [leave]
  | some l =>
    simp only [mem_stepsAt, get?_leave, Option.some.injEq]
    by_cases hl : line = l
    · subst hl
      cases index.get? line with
      | none => simp
      | some ids =>
        by_cases hid : id = old
        · simp [hid, OrderedMap.get?_erase, Option.filter]
        · by_cases hempty : (ids.erase old).isEmpty
          · have hnone : ¬ ((ids.erase old).get? id).isSome := fun hsome => by
              simp [OrderedMap.isEmpty_eq_false_iff.2 ⟨id, hsome⟩] at hempty
            rw [OrderedMap.get?_erase, if_neg hid] at hnone
            simp [hempty, hnone, Option.filter]
          · simp [hid, hempty, OrderedMap.get?_erase, Option.filter]
    · simp [hl, Ne.symm hl]

/-- No line of the index is without numbers. -/
def Tidy (index : LineIndex) : Prop :=
  ∀ line ids, index.get? line = some ids → ids.isEmpty = false

/-- Entering a step leaves no line without numbers. -/
lemma Tidy.enter (h : index.Tidy) (at? : Option SourceLine) (new : StepId) :
    (index.enter at? new).Tidy := by
  intro line ids hids
  cases at? with
  | none => exact h line ids hids
  | some l =>
    rw [get?_enter] at hids
    split at hids
    · obtain rfl := Option.some.inj hids
      exact OrderedMap.isEmpty_eq_false_iff.2 ⟨new, by simp [OrderedMap.get?_insert]⟩
    · exact h line ids hids

/-- Leaving a step leaves no line without numbers. -/
lemma Tidy.leave (h : index.Tidy) (at? : Option SourceLine) (old : StepId) :
    (index.leave at? old).Tidy := by
  intro line ids hids
  cases at? with
  | none => exact h line ids hids
  | some l =>
    rw [get?_leave] at hids
    split at hids
    · simpa using (Option.filter_eq_some_iff.1 hids).2
    · exact h line ids hids

/-- What a tidy index has at a line, every index with the same numbers at every line has there. -/
lemma Tidy.get?_of_same {other : LineIndex} {ids : StepIds} (h : index.Tidy)
    (hsame : ∀ line id, id ∈ index.stepsAt line ↔ id ∈ other.stepsAt line)
    (hids : index.get? line = some ids) : other.get? line = some ids := by
  have hmem (id : StepId) (ids' : StepIds) (hids' : other.get? line = some ids') :
      (ids.get? id).isSome ↔ (ids'.get? id).isSome := by
    have := hsame line id
    simpa [mem_stepsAt, hids, hids'] using this
  obtain ⟨id, hid⟩ := OrderedMap.isEmpty_eq_false_iff.1 (h line ids hids)
  obtain ⟨ids', hids', -⟩ := mem_stepsAt.1 ((hsame line id).1 (mem_stepsAt.2 ⟨ids, hids, hid⟩))
  have heq : ids = ids' := OrderedMap.ext_get? fun id => by
    -- the only value is `()`, so a look-up says no more than whether there is one
    have := hmem id ids' hids'
    cases hi : ids.get? id <;> cases hi' : ids'.get? id <;> simp [hi, hi'] at this ⊢
  rw [hids', heq]

lemma Tidy.ext_stepsAt {other : LineIndex} (h : index.Tidy) (h' : other.Tidy)
    (hsame : ∀ line id, id ∈ index.stepsAt line ↔ id ∈ other.stepsAt line) : index = other := by
  refine OrderedMap.ext_get? fun line => Option.ext fun ids => ⟨?_, ?_⟩
  · exact h.get?_of_same hsame
  · exact h'.get?_of_same fun line id => (hsame line id).symm

/-! ## The index of a list of steps -/

/-- The index holds the numbers of the steps at their lines, and nothing else. -/
structure Lists (index : LineIndex) (steps : List Step) : Prop where
  /-- A number is at a line if a step of that number is at it. -/
  mem_iff : ∀ line id, id ∈ index.stepsAt line ↔ ∃ x ∈ steps, x.line = some line ∧ x.id = id
  tidy : index.Tidy

namespace Lists

variable {steps rest : List Step} {x : Step}

lemma empty : Lists OrderedMap.empty [] where
  mem_iff line id := by simp [mem_stepsAt]
  tidy line ids h := by simp at h

/-- The index after one more step was entered. -/
lemma enter (h : index.Lists rest) (hx : ∀ y, y ∈ steps ↔ y = x ∨ y ∈ rest) :
    (index.enter x.line x.id).Lists steps where
  mem_iff line id := by
    rw [mem_stepsAt_enter, h.mem_iff]
    constructor
    · rintro (⟨hline, rfl⟩ | ⟨y, hy, hyl, rfl⟩)
      · exact ⟨x, (hx x).2 (.inl rfl), hline, rfl⟩
      · exact ⟨y, (hx y).2 (.inr hy), hyl, rfl⟩
    · rintro ⟨y, hy, hyl, rfl⟩
      rcases (hx y).1 hy with rfl | hy
      · exact .inl ⟨hyl, rfl⟩
      · exact .inr ⟨y, hy, hyl, rfl⟩
  tidy := h.tidy.enter x.line x.id

/-- The index after a step left whose number no other step has. -/
lemma leave (h : index.Lists steps) (hx : ∀ y, y ∈ steps ↔ y = x ∨ y ∈ rest)
    (hne : ∀ y ∈ rest, y.id ≠ x.id) : (index.leave x.line x.id).Lists rest where
  mem_iff line id := by
    rw [mem_stepsAt_leave, h.mem_iff]
    constructor
    · rintro ⟨hgone, y, hy, hyl, rfl⟩
      rcases (hx y).1 hy with rfl | hy
      · exact absurd ⟨hyl, rfl⟩ hgone
      · exact ⟨y, hy, hyl, rfl⟩
    · rintro ⟨y, hy, hyl, rfl⟩
      exact ⟨fun hgone => hne y hy hgone.2, y, (hx y).2 (.inr hy), hyl, rfl⟩
  tidy := h.tidy.leave x.line x.id

/-- Steps with the same numbers at the same lines have the same index. -/
lemma congr {others : List Step} (h : index.Lists steps)
    (hsame : ∀ p,
      p ∈ steps.map (fun y => (y.line, y.id)) ↔ p ∈ others.map fun y => (y.line, y.id)) :
    index.Lists others where
  mem_iff line id := by
    rw [h.mem_iff]
    simpa using hsame (some line, id)
  tidy := h.tidy

/-- At every line the index has what a scan of ascending steps for the line finds. -/
lemma stepsAt_eq (h : index.Lists steps) (hasc : steps.Pairwise (fun a b => a.id < b.id))
    (line : SourceLine) :
    index.stepsAt line = (steps.filter (·.line = some line)).map (·.id) := by
  have hscan : ((steps.filter (·.line = some line)).map (·.id)).Pairwise (· < ·) :=
    List.pairwise_map.2 (hasc.filter _)
  have hindex : (index.stepsAt line).Pairwise (· < ·) := pairwise_stepsAt index line
  have hperm : (index.stepsAt line).Perm ((steps.filter (·.line = some line)).map (·.id)) := by
    refine (List.perm_ext_iff_of_nodup (hindex.imp UInt64.ne_of_lt)
      (hscan.imp UInt64.ne_of_lt)).2 fun id => ?_
    rw [h.mem_iff]
    simp [and_assoc]
  exact hperm.eq_of_pairwise
    (fun a b _ _ hab hba => absurd (Std.lt_trans hab hba) Std.lt_irrefl) hindex hscan

lemma unique {other : LineIndex} (h : index.Lists steps) (h' : other.Lists steps) :
    index = other := by
  refine h.tidy.ext_stepsAt h'.tidy fun line id => ?_
  rw [h.mem_iff, h'.mem_iff]

end Lists

end LineIndex

end TraceTimeline
