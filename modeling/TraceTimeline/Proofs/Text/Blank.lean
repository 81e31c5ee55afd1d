import Mathlib.Data.List.DropRight
import Mathlib.Data.List.TakeWhile
import TraceTimeline.Text.Blank

/-!
# Blanks and words

Blanks that are put before and after a text are cut off again, and nothing else is cut off
(`Text.trim_surrounded`, `Text.Trimmed.trimChars_eq`).

A text that is not blank begins with a word, after blanks (`Text.exists_word`).  Words are found
where they were put, whatever blanks stand before them, as long as what follows is set apart
(`Text.IsWord.trimChars_append`, `Text.IsWord.wordAndRest_append`).
-/

namespace TraceTimeline.Text

/-- A text consists of blanks. -/
def AllBlank (s : String) : Prop := ∀ c ∈ s.toList, isBlank c = true

instance (s : String) : Decidable (AllBlank s) := List.decidableBAll _ s.toList

lemma trimRight_append {cs after : List Char} (h : ∀ c ∈ after, isBlank c = true) :
    trimRight (cs ++ after) = trimRight cs := by
  have hreverse : ∀ c ∈ after.reverse, isBlank c = true := fun c hc => h c (List.mem_reverse.1 hc)
  rw [trimRight, List.reverse_append, List.dropWhile_append_of_pos hreverse]
  rfl

/-- Blanks at both ends are cut off. -/
lemma trimChars_append {before cs after : List Char} (hbefore : ∀ c ∈ before, isBlank c = true)
    (hafter : ∀ c ∈ after, isBlank c = true) :
    trimChars (before ++ (cs ++ after)) = trimChars cs := by
  rw [trimChars, trimLeft, List.dropWhile_append_of_pos hbefore, List.dropWhile_append]
  split
  · next hempty =>
    have hcs : trimLeft cs = [] := List.isEmpty_iff.1 hempty
    have hnone : after.dropWhile isBlank = [] := List.dropWhile_eq_nil_iff.2 hafter
    rw [hnone, trimChars, hcs]
  · exact trimRight_append hafter

/-- A text with blanks around it is trimmed like the text. -/
theorem trim_surrounded {before after : String} (hbefore : AllBlank before)
    (hafter : AllBlank after) (s : String) : trim (before ++ s ++ after) = trim s := by
  rw [trim, String.toList_append, String.toList_append, List.append_assoc,
    trimChars_append hbefore hafter, trim]

lemma trimChars_of_ends {first last : Char} (hfirst : isBlank first = false)
    (hlast : isBlank last = false) (cs : List Char) :
    trimChars (first :: (cs ++ [last])) = first :: (cs ++ [last]) := by
  have hright : trimRight (first :: (cs ++ [last])) = first :: (cs ++ [last]) := by
    simp [trimRight, hlast]
  rw [trimChars, trimLeft, List.dropWhile_cons_of_neg (by simp [hfirst]), hright]

/-! ## The ends of a text -/

section

variable {cs l l' : List Char} {c : Char}

/-- A text neither begins nor ends with a blank. -/
def Trimmed (cs : List Char) : Prop :=
  (∀ c ∈ cs.head?, isBlank c = false) ∧ ∀ c ∈ cs.getLast?, isBlank c = false

instance (cs : List Char) : Decidable (Trimmed cs) :=
  @instDecidableAnd _ _ (Option.decidableForallMem cs.head?) (Option.decidableForallMem cs.getLast?)

lemma exists_trimRight (cs : List Char) :
    ∃ after : List Char, (∀ c ∈ after, isBlank c = true) ∧ cs = trimRight cs ++ after :=
  ⟨cs.rtakeWhile isBlank, fun _ hc => List.mem_rtakeWhile_imp hc,
    List.rdropWhile_append_rtakeWhile.symm⟩

lemma mem_head?_of_trimRight (hc : c ∈ (trimRight cs).head?) : c ∈ cs.head? := by
  obtain ⟨after, -, hcs⟩ := exists_trimRight cs
  rw [hcs, List.head?_append, Option.mem_def.1 hc]
  rfl

lemma mem_getLast?_of_suffix (h : l <:+ l') (hc : c ∈ l.getLast?) : c ∈ l'.getLast? := by
  obtain ⟨front, rfl⟩ := h
  rw [List.getLast?_append, Option.mem_def.1 hc]
  rfl

lemma head_trimLeft (cs : List Char) : ∀ c ∈ (trimLeft cs).head?, isBlank c = false := by
  intro c hc
  have hhead := List.head?_dropWhile_not isBlank cs
  rw [trimLeft, Option.mem_def] at hc
  rwa [hc] at hhead

lemma trimChars_of_blank (h : ∀ c ∈ cs, isBlank c = true) : trimChars cs = [] := by
  rw [trimChars, trimLeft, List.dropWhile_eq_nil_iff.2 h]
  rfl

lemma last_trimRight (cs : List Char) : ∀ c ∈ (trimRight cs).getLast?, isBlank c = false := by
  rw [trimRight, List.getLast?_reverse]
  exact head_trimLeft cs.reverse

lemma trimmed_trimChars (cs : List Char) : Trimmed (trimChars cs) :=
  ⟨fun c hc => head_trimLeft cs c (mem_head?_of_trimRight hc),
    last_trimRight _⟩

lemma trimLeft_eq_self (h : ∀ c ∈ cs.head?, isBlank c = false) : trimLeft cs = cs := by
  cases cs with
  | nil => rfl
  | cons c cs => exact List.dropWhile_cons_of_neg (by simp [h c rfl])

lemma trimRight_eq_self (h : ∀ c ∈ cs.getLast?, isBlank c = false) : trimRight cs = cs := by
  refine List.rdropWhile_eq_self_iff.2 fun hne => ?_
  rw [h _ (List.getLast?_eq_some_getLast hne)]
  exact Bool.false_ne_true

lemma Trimmed.trimChars_eq (h : Trimmed cs) : trimChars cs = cs := by
  rw [trimChars, trimLeft_eq_self h.1, trimRight_eq_self h.2]

lemma exists_trimChars (cs : List Char) :
    ∃ before after : List Char, (∀ c ∈ before, isBlank c = true) ∧
      (∀ c ∈ after, isBlank c = true) ∧ cs = before ++ (trimChars cs ++ after) := by
  obtain ⟨after, hafter, hcs⟩ := exists_trimRight (trimLeft cs)
  refine ⟨cs.takeWhile isBlank, after, fun _ hc => List.mem_takeWhile_imp hc, hafter, ?_⟩
  rw [trimChars, ← hcs, trimLeft, List.takeWhile_append_dropWhile]

/-- The trailing blanks may be cut off first. -/
lemma trimLeft_trimRight (cs : List Char) : trimLeft (trimRight cs) = trimChars cs := by
  obtain ⟨after, hafter, hcs⟩ := exists_trimRight cs
  have hlast : ∀ c ∈ (trimLeft (trimRight cs)).getLast?, isBlank c = false := fun c hc =>
    last_trimRight cs c (mem_getLast?_of_suffix (List.dropWhile_suffix isBlank) hc)
  calc trimLeft (trimRight cs)
      = trimChars (trimRight cs) := (trimRight_eq_self hlast).symm
    _ = trimChars (trimRight cs ++ after) := (trimChars_append (List.forall_mem_nil _) hafter).symm
    _ = trimChars cs := by rw [← hcs]

end

/-! ## Words -/

section

variable {w gap cs rest : List Char}

/-- A text is a word: it is not empty, and there are no blanks in it. -/
def IsWord (cs : List Char) : Prop := cs ≠ [] ∧ ∀ c ∈ cs, isBlank c = false

instance (cs : List Char) : Decidable (IsWord cs) :=
  @instDecidableAnd _ _ inferInstance (List.decidableBAll _ cs)

/-- A text is set apart from a word before it: it begins with a blank, or it is empty. -/
def SetApart (cs : List Char) : Prop := ∀ c ∈ cs.head?, isBlank c = true

lemma SetApart.of_blank (h : ∀ c ∈ cs, isBlank c = true) : SetApart cs :=
  fun c hc => h c (List.mem_of_mem_head? hc)

lemma SetApart.of_gap (hne : gap ≠ []) (h : ∀ c ∈ gap, isBlank c = true) :
    SetApart (gap ++ cs) := by
  intro c hc
  rw [List.head?_append_of_ne_nil _ hne] at hc
  exact h c (List.mem_of_mem_head? hc)

lemma SetApart.append (h : SetApart cs) (hrest : ∀ c ∈ rest, isBlank c = true) :
    SetApart (cs ++ rest) := by
  cases cs with
  | nil => exact of_blank hrest
  | cons c cs => exact h

lemma SetApart.trimRight (h : SetApart rest) : SetApart (trimRight rest) :=
  fun c hc => h c (mem_head?_of_trimRight hc)

lemma SetApart.gap_ne_nil (h : SetApart (gap ++ (w ++ rest))) (hw : IsWord w) : gap ≠ [] := by
  rintro rfl
  obtain ⟨c, w, rfl⟩ := List.exists_cons_of_ne_nil hw.1
  exact absurd (h c rfl) (by simp [hw.2 c (List.mem_cons_self ..)])

lemma SetApart.trimLeft_drop (h : SetApart cs) : trimLeft (cs.drop 1) = trimLeft cs := by
  cases cs with
  | nil => rfl
  | cons c cs => exact (List.dropWhile_cons_of_pos (h c rfl)).symm

lemma SetApart.trimLeft_rest (h : SetApart rest) :
    trimLeft ((Text.trimRight rest).drop 1) = trimChars rest := by
  rw [h.trimRight.trimLeft_drop, trimLeft_trimRight]

lemma SetApart.trimChars_rest (h : SetApart rest) :
    trimChars ((Text.trimRight rest).drop 1) = trimChars rest := by
  rw [trimChars, h.trimLeft_rest, trimRight_eq_self (trimmed_trimChars rest).2]

lemma setApart_dropWhile (cs : List Char) : SetApart (cs.dropWhile (!isBlank ·)) := by
  intro c hc
  have hhead := List.head?_dropWhile_not (!isBlank ·) cs
  rw [Option.mem_def.1 hc] at hhead
  simpa using hhead

/-- A text that is not blank begins with a word, after blanks. -/
lemma exists_word (h : ¬∀ c ∈ cs, isBlank c = true) :
    ∃ before w rest : List Char, cs = before ++ (w ++ rest) ∧ (∀ c ∈ before, isBlank c = true) ∧
      IsWord w ∧ SetApart rest := by
  obtain ⟨c, tail, hcs⟩ := List.exists_cons_of_ne_nil (mt List.dropWhile_eq_nil_iff.1 h)
  have hc : isBlank c = false := head_trimLeft cs c (by rw [trimLeft, hcs]; rfl)
  refine ⟨cs.takeWhile isBlank, (trimLeft cs).takeWhile (!isBlank ·),
    (trimLeft cs).dropWhile (!isBlank ·), ?_, fun _ hd => List.mem_takeWhile_imp hd,
    ⟨?_, fun d hd => by simpa using List.mem_takeWhile_imp hd⟩, setApart_dropWhile _⟩
  · rw [List.takeWhile_append_dropWhile, trimLeft, List.takeWhile_append_dropWhile]
  · rw [trimLeft, hcs, List.takeWhile_cons_of_pos (by simp [hc])]
    exact List.cons_ne_nil _ _

/-- What follows the first word of a trimmed text has no blanks at its ends, once its leading blanks
are cut off. -/
lemma trimmed_trimLeft_rest (cs : List Char) :
    Trimmed (trimLeft (wordAndRest (trimChars cs)).2) := by
  have hsuffix : trimLeft (wordAndRest (trimChars cs)).2 <:+ trimChars cs :=
    (List.dropWhile_suffix isBlank).trans
      ((List.drop_suffix 1 _).trans (List.dropWhile_suffix (!isBlank ·)))
  exact ⟨head_trimLeft _, fun c hc =>
    (trimmed_trimChars cs).2 c (mem_getLast?_of_suffix hsuffix hc)⟩

namespace IsWord

lemma trimmed (h : IsWord w) : Trimmed w :=
  ⟨fun c hc => h.2 c (List.mem_of_mem_head? hc), fun c hc => h.2 c (List.mem_of_mem_getLast? hc)⟩

/-- Trailing blanks are cut off what follows a word. -/
lemma trimRight_append (h : IsWord w) (rest : List Char) :
    trimRight (w ++ rest) = w ++ trimRight rest := by
  obtain ⟨after, hafter, hrest⟩ := exists_trimRight rest
  have hlast : ∀ c ∈ (w ++ trimRight rest).getLast?, isBlank c = false := by
    intro c hc
    rw [List.getLast?_append, Option.mem_def, Option.or_eq_some_iff] at hc
    rcases hc with hc | ⟨-, hc⟩
    · exact last_trimRight rest c hc
    · exact h.trimmed.2 c hc
  calc trimRight (w ++ rest)
      = trimRight (w ++ trimRight rest ++ after) := by rw [List.append_assoc, ← hrest]
    _ = trimRight (w ++ trimRight rest) := Text.trimRight_append hafter
    _ = w ++ trimRight rest := trimRight_eq_self hlast

/-- Trimming cuts off the blanks before a word, and trailing blanks of what follows it. -/
lemma trimChars_append (h : IsWord w) (hgap : ∀ c ∈ gap, isBlank c = true) (rest : List Char) :
    trimChars (gap ++ (w ++ rest)) = w ++ trimRight rest := by
  have hhead : ∀ c ∈ (w ++ rest).head?, isBlank c = false := by
    intro c hc
    rw [List.head?_append_of_ne_nil _ h.1] at hc
    exact h.trimmed.1 c hc
  rw [trimChars, trimLeft, List.dropWhile_append_of_pos hgap, ← trimLeft, trimLeft_eq_self hhead,
    h.trimRight_append]

lemma trimChars_surrounded (h : IsWord w) (hgap : ∀ c ∈ gap, isBlank c = true)
    (hrest : ∀ c ∈ rest, isBlank c = true) : trimChars (gap ++ (w ++ rest)) = w := by
  rw [Text.trimChars_append hgap hrest, h.trimmed.trimChars_eq]

/-- A text is split after the word that it begins with. -/
lemma wordAndRest_append (h : IsWord w) (hrest : SetApart rest) :
    wordAndRest (w ++ rest) = (w, rest.drop 1) := by
  have hw : ∀ c ∈ w, (!isBlank c) = true := fun c hc => by rw [h.2 c hc]; rfl
  rw [wordAndRest, List.takeWhile_append_of_pos hw, List.dropWhile_append_of_pos hw]
  cases rest with
  | nil => simp
  | cons c rest =>
    have hc : isBlank c = true := hrest c rfl
    rw [List.takeWhile_cons_of_neg (by simp [hc]), List.dropWhile_cons_of_neg (by simp [hc]),
      List.append_nil]

end IsWord

end

end TraceTimeline.Text
