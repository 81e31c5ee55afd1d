import Mathlib
import TraceTimeline.Proofs.Text.Blank
import TraceTimeline.Text.Numeral

/-!
# Which numbers are read

A text stands for a whole number if it is made of decimal digits after at most one sign
(`Text.readInt?`).  A number in a range is read from a text only if it is the number that the text
stands for (`Text.ReadsBelow`).  So a text that stands for a number out of the range is not read as
another one (`Text.ReadsBelow.eq_none`).
-/

namespace TraceTimeline.Text

variable {cs : List Char} {n : Nat} {z : Int} {c : Char}

/-- The whole number that a text stands for: decimal digits after at most one sign. -/
def readInt? : List Char → Option Int
  | '-' :: cs => (ofDigits? cs).map fun n : Nat => -(n : Int)
  | cs => (readNat? cs).map fun n : Nat => (n : Int)

/-! ## Digits -/

lemma digits_of_ofDigits? (h : ofDigits? cs = some n) :
    cs ≠ [] ∧ ∀ c ∈ cs, c.isDigit = true := by
  unfold ofDigits? at h
  split at h
  · next hdigits => exact ⟨hdigits.1, List.all_eq_true.1 hdigits.2⟩
  · cases h

/-- A digit is not blank. -/
lemma isBlank_of_isDigit (h : c.isDigit = true) : isBlank c = false := by
  simp only [Char.isDigit, Bool.and_eq_true, decide_eq_true_eq, ge_iff_le,
    UInt32.le_iff_toNat_le] at h
  have hlow : 48 ≤ c.toNat := h.1
  have hhigh : c.toNat ≤ 57 := h.2
  simp [isBlank]
  omega

lemma isWord_of_ofDigits? (h : ofDigits? cs = some n) : IsWord cs :=
  (digits_of_ofDigits? h).imp_right fun hdigits c hc => isBlank_of_isDigit (hdigits c hc)

lemma isWord_cons (hc : isBlank c = false) (h : ofDigits? cs = some n) : IsWord (c :: cs) :=
  ⟨List.cons_ne_nil _ _, List.forall_mem_cons.2 ⟨hc, (isWord_of_ofDigits? h).2⟩⟩

lemma isWord_of_readNat? (h : readNat? cs = some n) : IsWord cs := by
  unfold readNat? at h
  split at h
  · exact isWord_cons (by decide) h
  · exact isWord_of_ofDigits? h

/-- What stands for a number, with any sign, is a word. -/
lemma isWord_of_readInt? (h : readInt? cs = some z) : IsWord cs := by
  unfold readInt? at h
  split at h
  · obtain ⟨n, hn, -⟩ := Option.map_eq_some_iff.1 h
    exact isWord_cons (by decide) hn
  · obtain ⟨n, hn, -⟩ := Option.map_eq_some_iff.1 h
    exact isWord_of_readNat? hn

/-- A numeral without a minus sign stands for the number that it is read as. -/
lemma readInt?_of_readNat? (h : readNat? cs = some n) : readInt? cs = some (n : Int) := by
  unfold readInt?
  split
  · next cs =>
    -- a minus sign is no digit
    have hsign := (digits_of_ofDigits? h).2 '-' (List.mem_cons_self ..)
    exact absurd hsign (by decide)
  · rw [h]
    rfl

/-! ## Numbers in a range -/

/-- A reader of numbers reads numerals for numbers below a bound, as those numbers, and nothing
else. -/
structure ReadsBelow {α : Type} (read : List Char → Option α) (value : α → Nat) (bound : Nat) :
    Prop where
  eq_some_iff {cs : List Char} {x : α} : read cs = some x ↔ readNat? cs = some (value x)
  lt (x : α) : value x < bound

namespace ReadsBelow

variable {α : Type} {read : List Char → Option α} {value : α → Nat} {bound : Nat}

/-- A reader that refuses numbers from the bound on reads the others as they are, if they have a
place in its type. -/
theorem of_bound {make : Nat → α} (hvalue : ∀ n < bound, value (make n) = n)
    (hmake : ∀ x, make (value x) = x) (hlt : ∀ x, value x < bound) :
    ReadsBelow (fun cs => (readNat? cs).bind fun n => if n < bound then some (make n) else none)
      value bound where
  eq_some_iff {cs x} := by
    rw [Option.bind_eq_some_iff]
    constructor
    · rintro ⟨n, hn, hx⟩
      split at hx
      · next hrange =>
        obtain rfl : make n = x := Option.some.inj hx
        rw [hn, hvalue n hrange]
      · cases hx
    · intro h
      exact ⟨value x, h, by rw [if_pos (hlt x), hmake]⟩
  lt := hlt

/-- A text that stands for a number out of the range is not read as a number in it. -/
theorem eq_none (h : ReadsBelow read value bound) (hcs : readInt? cs = some z)
    (hz : ¬(0 ≤ z ∧ z < bound)) : read cs = none := by
  refine Option.eq_none_iff_forall_ne_some.2 fun x hx => hz ?_
  have hread := readInt?_of_readNat? (h.eq_some_iff.1 hx)
  obtain rfl : z = value x := Option.some.inj (hcs.symm.trans hread)
  exact ⟨Int.natCast_nonneg _, Int.ofNat_lt.2 (h.lt x)⟩

end ReadsBelow

/-- The reader of 64-bit numbers reads those below 2^64. -/
theorem readsBelow_uint64 : ReadsBelow readUInt64? UInt64.toNat UInt64.size :=
  .of_bound (fun _ hn => UInt64.toNat_ofNat_of_lt' hn) (fun _ => UInt64.ofNat_toNat)
    UInt64.toNat_lt_size

/-- The reader of 32-bit numbers reads those below 2^32. -/
theorem readsBelow_uint32 : ReadsBelow readUInt32? UInt32.toNat UInt32.size :=
  .of_bound (fun _ hn => UInt32.toNat_ofNat_of_lt' hn) (fun _ => UInt32.ofNat_toNat)
    UInt32.toNat_lt_size

end TraceTimeline.Text
