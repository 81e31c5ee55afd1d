import Mathlib.Data.List.Forall2
import Mathlib.Tactic.SplitIfs
import TraceTimeline.Json.Printer
import TraceTimeline.Proofs.Json.Reading

/-!
# Text that was written

The compact text of a value is read as the document of the value, so long as its numbers are whole
numbers of the 64-bit ranges (`Document.ofText?_compact`).  Doubles are left out: a double is
written with the fewest digits that stand for it, but its literal is read with two roundings.

Strings go through escapes, and every escape is read as one piece that stands for the character
whatever comes after it (`Piece.StandsFor`).  A number ends only where the next character does not
continue it (`Literal.Stops`), which is why what is said of a text is said of the text in front of
such a character (`Document.Written`).
-/

namespace TraceTimeline

/-! ## Strings -/

namespace Piece

/-- A piece stands for a character, whatever pieces come after it. -/
def StandsFor (piece : Piece) (c : Char) : Prop :=
  ∀ rest, text? (piece :: rest) = (text? rest).map (c :: ·)

lemma standsFor_char (c : Char) : (char c).StandsFor c := fun _ => by rw [text?]

/-- A unit below the surrogates stands for the character of that number. -/
lemma standsFor_unit {c : Char} (h : c.toNat < 0x20) : (unit c.toNat).StandsFor c := by
  have hhigh : isHigh c.toNat = false := by
    simp only [isHigh, Bool.and_eq_false_iff, decide_eq_false_iff_not]
    omega
  have hlow : isLow c.toNat = false := by
    simp only [isLow, Bool.and_eq_false_iff, decide_eq_false_iff_not]
    omega
  intro rest
  match rest with
  | [] => simp [text?, hhigh, hlow]
  | .char d :: rest => simp [text?, hhigh, hlow]
  | .unit v :: rest => simp [text?, hhigh, hlow]

lemma ofDigitsIn?_hex {n : Nat} (h : n < 0x20) :
    Text.ofDigitsIn? 16 ['0', '0', Nat.digitChar (n / 16), Nat.digitChar (n % 16)] = some n := by
  have hall : ∀ n < 0x20,
      Text.ofDigitsIn? 16 ['0', '0', Nat.digitChar (n / 16), Nat.digitChar (n % 16)] = some n := by
    decide
  exact hall n h

/-- A one-letter escape is read as the character that it names. -/
lemma read?_letter {e c : Char} (h : ofEscape? e = some c) (rest : List Char) :
    read? ('\\' :: e :: rest) = (read? rest).map fun p => (char c :: p.1, p.2) := by
  have hu : e ≠ 'u' := by
    rintro rfl
    have hnone : ofEscape? 'u' = none := by decide
    exact absurd h (by simp [hnone])
  rw [read?.eq_3 _ _ fun _ _ _ _ _ he _ => hu he, h]
  cases read? rest <;> rfl

/-- A character is escaped by a letter that names it, by its number if it is below the space, or not
at all. -/
lemma escaped_cases (c : Char) :
    (∃ e, Json.escaped c = ['\\', e] ∧ ofEscape? e = some c) ∨
      (c.toNat < 0x20 ∧ Json.escaped c =
        ['\\', 'u', '0', '0', Nat.digitChar (c.toNat / 16), Nat.digitChar (c.toNat % 16)]) ∨
      (c ≠ '\x22' ∧ c ≠ '\\' ∧ ¬ c.toNat < 0x20 ∧ Json.escaped c = [c]) := by
  unfold Json.escaped
  split_ifs with hquote hslash hline hreturn htab hback hfeed hlow
  · exact .inl ⟨_, rfl, by rw [hquote]; decide⟩
  · exact .inl ⟨_, rfl, by rw [hslash]; decide⟩
  · exact .inl ⟨_, rfl, by rw [hline]; decide⟩
  · exact .inl ⟨_, rfl, by rw [hreturn]; decide⟩
  · exact .inl ⟨_, rfl, by rw [htab]; decide⟩
  · exact .inl ⟨_, rfl, by rw [hback]; decide⟩
  · exact .inl ⟨_, rfl, by rw [hfeed]; decide⟩
  · exact .inr (.inl ⟨hlow, rfl⟩)
  · exact .inr (.inr ⟨hquote, hslash, hlow, rfl⟩)

/-- An escaped character is read as one piece, which stands for the character. -/
lemma read?_escaped (c : Char) (rest : List Char) :
    ∃ piece : Piece, piece.StandsFor c ∧
      read? (Json.escaped c ++ rest) = (read? rest).map fun p => (piece :: p.1, p.2) := by
  rcases escaped_cases c with ⟨e, hescaped, he⟩ | ⟨hlow, hescaped⟩ |
    ⟨hquote, hslash, hhigh, hescaped⟩
  · refine ⟨char c, standsFor_char c, ?_⟩
    rw [hescaped]
    exact read?_letter he rest
  · refine ⟨unit c.toNat, standsFor_unit hlow, ?_⟩
    rw [hescaped]
    simp only [List.cons_append, List.nil_append]
    rw [read?, ofDigitsIn?_hex hlow]
    cases read? rest <;> rfl
  · refine ⟨char c, standsFor_char c, ?_⟩
    rw [hescaped, List.singleton_append, read?_cons hslash, if_neg hquote,
      if_neg (not_or.2 ⟨hslash, hhigh⟩)]

/-- The escaped characters of a text are read up to the quotation mark after them, as pieces that
denote the text. -/
lemma read?_flatMap_escaped (cs rest : List Char) :
    ∃ pieces, read? (cs.flatMap Json.escaped ++ '\x22' :: rest) = some (pieces, rest) ∧
      text? pieces = some cs := by
  induction cs with
  | nil =>
    refine ⟨[], ?_, rfl⟩
    rw [List.flatMap_nil, List.nil_append, read?_cons (by decide), if_pos rfl]
  | cons c cs ih =>
    obtain ⟨pieces, hread, htext⟩ := ih
    obtain ⟨piece, hpiece, hescaped⟩ := read?_escaped c (cs.flatMap Json.escaped ++ '\x22' :: rest)
    refine ⟨piece :: pieces, ?_, ?_⟩
    · rw [List.flatMap_cons, List.append_assoc, hescaped, hread, Option.map_some]
    · rw [hpiece, htext, Option.map_some]

end Piece

lemma Document.quoted?_escaped (s : String) (rest : List Char) :
    quoted? (s.toList.flatMap Json.escaped ++ '\x22' :: rest) = some (some s, rest) := by
  obtain ⟨pieces, hread, htext⟩ := Piece.read?_flatMap_escaped s.toList rest
  rw [quoted?, hread, Option.map_some]
  dsimp only
  rw [htext, Option.map_some, String.ofList_toList]

/-! ## Numbers -/

/-- A whole number of the unsigned 64-bit range or, below zero, of the signed one. -/
def Number.Whole : Number → Prop
  | .int n => -9223372036854775808 ≤ n ∧ n < 18446744073709551616
  | .float _ => False

namespace Literal

/-- What comes next does not continue a number. -/
def Stops (rest : List Char) : Prop :=
  ∀ c ∈ rest.head?, c.isDigit = false ∧ c ≠ '.' ∧ c ≠ 'e' ∧ c ≠ 'E'

lemma stops_nil : Stops [] := nofun

/-- A run of digits goes up to what does not continue it. -/
lemma digitRun?_append {ds rest : List Char} (hne : ds ≠ []) (hds : ∀ c ∈ ds, c.isDigit = true)
    (hrest : Stops rest) : digitRun? (ds ++ rest) = some (ds, rest) := by
  have hstop : rest.takeWhile Char.isDigit = [] ∧ rest.dropWhile Char.isDigit = rest := by
    cases rest with
    | nil => exact ⟨rfl, rfl⟩
    | cons c rest =>
      have hc : ¬ c.isDigit = true := by simp [(hrest c rfl).1]
      exact ⟨List.takeWhile_cons_of_neg hc, List.dropWhile_cons_of_neg hc⟩
  unfold digitRun?
  rw [List.takeWhile_append_of_pos hds, List.dropWhile_append_of_pos hds, hstop.1, hstop.2,
    List.append_nil]
  cases ds with
  | nil => exact absurd rfl hne
  | cons d ds => rfl

/-- The digits of a number do not begin with a zero, unless the number is zero. -/
lemma head?_toDigits {n : Nat} (h : 0 < n) : (Nat.toDigits 10 n).head? ≠ some '0' := by
  induction n using Nat.strongRecOn with
  | ind n ih =>
    by_cases hn : 10 ≤ n
    · have hne : Nat.toDigits 10 (n / 10) ≠ [] := Nat.toDigits_ne_nil
      rw [Nat.toDigits_of_base_le (by decide) hn, List.head?_append_of_ne_nil _ hne]
      exact ih (n / 10) (by omega) (by omega)
    · rw [Nat.toDigits_of_lt_base (by omega), List.head?_cons, Ne, Option.some.injEq,
        Nat.digitChar_eq_zero]
      omega

/-- The digits of a number are read as its whole part. -/
lemma wholePart?_toDigits (n : Nat) {rest : List Char} (hrest : Stops rest) :
    wholePart? (Nat.toDigits 10 n ++ rest) = some (Nat.toDigits 10 n, rest) := by
  rcases Nat.eq_zero_or_pos n with rfl | hpos
  · rw [Nat.toDigits_zero]
    rfl
  · have hdigits : ∀ c ∈ Nat.toDigits 10 n, c.isDigit = true :=
      fun c hc => Nat.isDigit_of_mem_toDigits (by decide) (by decide) hc
    have hne : Nat.toDigits 10 n ≠ [] := Nat.toDigits_ne_nil
    have hrun := digitRun?_append hne hdigits hrest
    unfold wholePart?
    split
    · next cs heq =>
      have hhead : (Nat.toDigits 10 n ++ rest).head? = some '0' := by rw [heq, List.head?_cons]
      rw [List.head?_append_of_ne_nil _ hne] at hhead
      exact absurd hhead (head?_toDigits hpos)
    · exact hrun

lemma fractionPart?_of_stops {rest : List Char} (hrest : Stops rest) :
    fractionPart? rest = some (none, rest) := by
  unfold fractionPart?
  split
  · exact absurd rfl (hrest '.' rfl).2.1
  · rfl

/-- There is no exponent where the number stops. -/
lemma exponentPart?_of_stops {rest : List Char} (hrest : Stops rest) :
    exponentPart? rest = some (none, rest) := by
  cases rest with
  | nil => rfl
  | cons c rest =>
    obtain ⟨-, -, he, hE⟩ := hrest c rfl
    rw [exponentPart?, if_neg (not_or.2 ⟨he, hE⟩)]

/-- All digits of a number that fits are gathered. -/
lemma gather_of_lt {ds : List Char} {head : Nat} (h : Nat.ofDigitChars 10 ds head < UInt64.size) :
    gather head ds = (Nat.ofDigitChars 10 ds head, []) := by
  induction ds generalizing head with
  | nil => rfl
  | cons c ds ih =>
    have hnext : Nat.ofDigitChars 10 (c :: ds) head =
        Nat.ofDigitChars 10 ds (head * 10 + digitValue c) := by
      rw [Nat.ofDigitChars_eq_foldl, List.foldl_cons, ← Nat.ofDigitChars_eq_foldl, Nat.mul_comm 10]
      rfl
    rw [hnext] at h ⊢
    have hle : head * 10 + digitValue c ≤ Nat.ofDigitChars 10 ds (head * 10 + digitValue c) := by
      rw [Nat.ofDigitChars_eq_ofDigitChars_zero]
      exact Nat.le_add_right_of_le (Nat.le_mul_of_pos_left _ (Nat.pow_pos (by decide)))
    rw [gather, if_pos (Nat.lt_of_le_of_lt hle h), ih h]

lemma gather_toDigits {n : Nat} (h : n < UInt64.size) : gather 0 (Nat.toDigits 10 n) = (n, []) := by
  have hdigits : Nat.ofDigitChars 10 (Nat.toDigits 10 n) 0 = n := Nat.ofDigitChars_ten_toDigits
  rw [gather_of_lt (by rwa [hdigits]), hdigits]

/-- The digits of a number, with a sign or without, are read as a literal up to where it stops. -/
lemma read?_of_sign {cs rest : List Char} {negative : Bool} {n : Nat}
    (hsign : sign cs = (negative, Nat.toDigits 10 n ++ rest)) (hrest : Stops rest) :
    read? cs = some (⟨negative, Nat.toDigits 10 n, none, none⟩, rest) := by
  rw [read?_eq, hsign, Option.bind_some, wholePart?_toDigits n hrest, Option.bind_some,
    fractionPart?_of_stops hrest, Option.bind_some, exponentPart?_of_stops hrest, Option.map_some]

/-- A whole number is read as a literal that denotes it. -/
lemma read?_text {n : Number} (h : n.Whole) {rest : List Char} (hrest : Stops rest) :
    ∃ l : Literal, read? (n.text ++ rest) = some (l, rest) ∧ l.value? = some n := by
  match n, h with
  | .int (.ofNat n), h =>
    have hsize : n < UInt64.size := by
      have hlt : (n : Int) < 18446744073709551616 := h.2
      exact Int.ofNat_lt.1 hlt
    -- digits do not begin with a sign
    have hsign : sign (Nat.toDigits 10 n ++ rest) = (false, Nat.toDigits 10 n ++ rest) := by
      unfold sign
      split
      · next cs heq =>
        have hminus : '-' ∈ Nat.toDigits 10 n := by
          have hne : Nat.toDigits 10 n ≠ [] := Nat.toDigits_ne_nil
          have hhead : (Nat.toDigits 10 n ++ rest).head? = some '-' := by rw [heq, List.head?_cons]
          rw [List.head?_append_of_ne_nil _ hne] at hhead
          exact List.mem_of_head? hhead
        have hdigit := Nat.isDigit_of_mem_toDigits (by decide) (by decide) hminus
        exact absurd hdigit (by decide)
      · rfl
    refine ⟨⟨false, Nat.toDigits 10 n, none, none⟩, read?_of_sign hsign hrest, ?_⟩
    simp only [value?, gather_toDigits hsize]
    rfl
  | .int (.negSucc n), h =>
    have hsigned : n + 1 ≤ 9223372036854775808 := by
      have hle : -9223372036854775808 ≤ Int.negSucc n := h.1
      omega
    have hsize : n + 1 < UInt64.size := Nat.lt_of_le_of_lt hsigned (by decide)
    have hsign : sign ('-' :: (Nat.toDigits 10 (n + 1) ++ rest)) =
        (true, Nat.toDigits 10 (n + 1) ++ rest) := rfl
    have hrange : Text.isSigned64 (-((n + 1 : Nat) : Int)) = true := by
      simp only [Text.isSigned64, Bool.and_eq_true, decide_eq_true_eq]
      omega
    refine ⟨⟨true, Nat.toDigits 10 (n + 1), none, none⟩, read?_of_sign hsign hrest, ?_⟩
    simp only [value?, gather_toDigits hsize]
    rw [if_neg (by simp), if_neg (by simp), if_pos ⟨Nat.succ_pos n, hrange⟩]
    rfl

end Literal

/-! ## Items and members -/

namespace Document

open Literal (Stops)

section

variable {α : Type} {item : List Char → Option (α × List Char)}

/-- A text is read as something wherever it stands in front of what does not continue a number, and
it begins with a character that can be told from space and from a closing bracket. -/
structure Written (item : List Char → Option (α × List Char)) (text : List Char) (a : α) :
    Prop where
  begins : ∃ c rest, text = c :: rest ∧ isSpace c = false ∧ c ≠ ']' ∧ c ≠ '\x7d'
  read : ∀ rest, Stops rest → item (text ++ rest) = some (a, rest)

/-- A closing bracket. -/
def Closes (closing : Char) : Prop := closing = ']' ∨ closing = '\x7d'

/-- A bracket ends items and numbers, and it is no comma. -/
lemma Closes.spec {closing : Char} (h : Closes closing) (rest : List Char) :
    closing ≠ ',' ∧ isSpace closing = false ∧ Stops (closing :: rest) := by
  have hstops {c : Char} (hc : c.isDigit = false ∧ c ≠ '.' ∧ c ≠ 'e' ∧ c ≠ 'E') :
      Stops (c :: rest) := by
    intro d hd
    obtain rfl : c = d := Option.some.inj hd
    exact hc
  rcases h with rfl | rfl
  · exact ⟨by decide, by decide, hstops (by decide)⟩
  · exact ⟨by decide, by decide, hstops (by decide)⟩

lemma skipSpace_cons {c : Char} (h : isSpace c = false) (rest : List Char) :
    skipSpace (c :: rest) = c :: rest :=
  skipSpace_append_cons (List.forall_mem_nil _) h rest

/-- Texts with commas between them are read one after another up to the closing bracket. -/
lemma someItems_intercalate {closing : Char} (hclosing : Closes closing) {texts : List (List Char)}
    {xs : List α} (h : List.Forall₂ (Written item) texts xs) (hne : texts ≠ []) {n : Nat}
    (hn : texts.length ≤ n) (rest : List Char) :
    someItems closing item n (List.intercalate [','] texts ++ closing :: rest) =
      some (xs, rest) := by
  induction h generalizing n with
  | nil => exact absurd rfl hne
  | @cons text x texts xs hfirst hrest ih =>
    obtain ⟨n, rfl⟩ : ∃ n', n = n' + 1 := ⟨n - 1, by simp only [List.length_cons] at hn; omega⟩
    obtain ⟨hcomma, hspace, hstops⟩ := hclosing.spec rest
    cases hrest with
    | nil =>
      have hread := hfirst.read (closing :: rest) hstops
      have htext : List.intercalate [','] [text] ++ closing :: rest = text ++ closing :: rest := by
        simp
      rw [htext, someItems_last hcomma hread (skipSpace_cons hspace rest) n]
    | @cons text' x' texts' xs' hfirst' hrest' =>
      have htext : List.intercalate [','] (text :: text' :: texts') ++ closing :: rest =
          text ++ ',' :: (List.intercalate [','] (text' :: texts') ++ closing :: rest) := by
        simp [List.intercalate_cons_cons]
      have hread := hfirst.read
        (',' :: (List.intercalate [','] (text' :: texts') ++ closing :: rest)) (by
          intro c hc
          obtain rfl : ',' = c := Option.some.inj hc
          decide)
      rw [htext, someItems_more hread (skipSpace_cons (by decide) _) n,
        ih (by simp) (by simpa using hn)]
      rfl

lemma intercalate_cons (text : List Char) (texts : List (List Char)) :
    ∃ more, List.intercalate [','] (text :: texts) = text ++ more := by
  cases texts with
  | nil => exact ⟨[], by simp⟩
  | cons text' texts' =>
    exact ⟨',' :: List.intercalate [','] (text' :: texts'), by simp [List.intercalate_cons_cons]⟩

/-- Texts with commas between them take room for every text and for every comma. -/
lemma length_le_intercalate (texts : List (List Char)) :
    texts.length ≤ (List.intercalate [','] texts).length + 1 ∧
      ∀ text ∈ texts, text.length ≤ (List.intercalate [','] texts).length := by
  induction texts with
  | nil => simp
  | cons text texts ih =>
    cases texts with
    | nil => simp
    | cons text' texts' =>
      obtain ⟨hcount, hlength⟩ := ih
      rw [List.intercalate_cons_cons]
      simp only [List.length_append, List.length_cons, List.length_nil] at hcount ⊢
      refine ⟨by omega, fun t ht => ?_⟩
      rcases List.mem_cons.1 ht with rfl | ht
      · omega
      · have := hlength t ht
        omega

/-- So they are between brackets, where there may be none. -/
lemma items_intercalate {closing : Char} (hclosing : Closes closing) {texts : List (List Char)}
    {xs : List α} (h : List.Forall₂ (Written item) texts xs) {n : Nat} (hn : texts.length ≤ n)
    (rest : List Char) :
    items closing item n (List.intercalate [','] texts ++ closing :: rest) = some (xs, rest) := by
  cases h with
  | nil =>
    have htext : List.intercalate [','] [] ++ closing :: rest = closing :: rest := rfl
    rw [htext, items, skipSpace_cons (hclosing.spec rest).2.1]
    exact if_pos rfl
  | @cons text x texts xs hfirst hrest =>
    obtain ⟨c, cs, htext, hspace, hbracket, hbrace⟩ := hfirst.begins
    obtain ⟨more, hmore⟩ := intercalate_cons text texts
    have hcs : List.intercalate [','] (text :: texts) ++ closing :: rest =
        c :: (cs ++ more ++ closing :: rest) := by
      rw [hmore, htext]
      simp
    have hsome := someItems_intercalate hclosing (.cons hfirst hrest) (by simp) hn rest
    -- no item begins with a bracket that closes
    have hne : c ≠ closing := by
      rcases hclosing with rfl | rfl
      · exact hbracket
      · exact hbrace
    rw [hcs] at hsome ⊢
    rw [items, skipSpace_cons hspace]
    dsimp only
    rw [if_neg hne, hsome]

end

end Document

/-! ## Values -/

namespace Json

mutual

/-- All numbers in a value are whole. -/
def Whole : Json → Prop
  | .null => True
  | .bool _ => True
  | .num n => n.Whole
  | .str _ => True
  | .arr items => WholeItems items
  | .obj members => WholeMembers members

/-- All numbers in the values of a list are whole. -/
def WholeItems : List Json → Prop
  | [] => True
  | v :: rest => Whole v ∧ WholeItems rest

def WholeMembers : List (String × Json) → Prop
  | [] => True
  | (_, v) :: rest => Whole v ∧ WholeMembers rest

end

lemma whole_nat {n : Nat} (h : n < UInt64.size) : (nat n).Whole := by
  have hlt : (n : Int) < 18446744073709551616 := Int.ofNat_lt.2 h
  exact ⟨by omega, hlt⟩

mutual

/-- The document of a value. -/
def document : Json → Document
  | .null => .null
  | .bool b => .bool b
  | .num n => .num (some n)
  | .str s => .str (some s)
  | .arr items => .arr (documents items)
  | .obj members => .obj (memberDocuments members)

/-- The documents of the values of a list. -/
def documents : List Json → List Document
  | [] => []
  | v :: rest => document v :: documents rest

def memberDocuments : List (String × Json) → List (Option String × Document)
  | [] => []
  | (k, v) :: rest => (some k, document v) :: memberDocuments rest

end

end Json

namespace Document

open Literal (Stops)

/-- A quoted text is read as a string. -/
lemma written_quoted (s : String) (n : Nat) :
    Written (read? (n + 1)) (Json.quoted s) (.str (some s)) where
  begins := ⟨'\x22', _, rfl, by decide, by decide, by decide⟩
  read rest _ := by
    have htext : Json.quoted s ++ rest =
        '\x22' :: (s.toList.flatMap Json.escaped ++ '\x22' :: rest) := by
      simp [Json.quoted]
    rw [htext, read?_quote (skipSpace_cons (by decide) _) n, quoted?_escaped]
    rfl

/-- A whole number is read as that number. -/
lemma written_number {x : Number} (h : x.Whole) (n : Nat) :
    Written (read? (n + 1)) x.text (.num (some x)) := by
  have hfirst {c : Char} (hc : c = '-' ∨ c.isDigit = true) :
      isSpace c = false ∧ c ≠ ']' ∧ c ≠ '\x7d' := by
    rcases hc with rfl | hc
    · decide
    · refine ⟨Bool.eq_false_iff.2 fun hspace => ?_, ?_, ?_⟩
      · simp only [isSpace, decide_eq_true_eq] at hspace
        rcases hspace with rfl | rfl | rfl | rfl <;> exact absurd hc (by decide)
      · rintro rfl
        exact absurd hc (by decide)
      · rintro rfl
        exact absurd hc (by decide)
  constructor
  · obtain ⟨l, hread, -⟩ := Literal.read?_text h Literal.stops_nil
    obtain ⟨c, rest, htext, hc⟩ := Literal.head_of_read? hread
    exact ⟨c, rest, by rw [← htext, List.append_nil], hfirst hc⟩
  · intro rest hrest
    obtain ⟨l, hread, hvalue⟩ := Literal.read?_text h hrest
    obtain ⟨c, cs, htext, hc⟩ := Literal.head_of_read? hread
    have hskip : skipSpace (x.text ++ rest) = c :: cs := by
      rw [htext]
      exact skipSpace_cons (hfirst hc).1 cs
    rw [read?_num hskip hc, ← htext, hread, Option.map_some, hvalue]

/-- A name, a colon and a written value are read as a member. -/
lemma written_member {part : List Char → Option (Document × List Char)} {text : List Char}
    {d : Document} (h : Written part text d) (name : String) :
    Written (member? part) (Json.quoted name ++ ':' :: text) (some name, d) where
  begins := ⟨'\x22', _, rfl, by decide, by decide, by decide⟩
  read rest hrest := by
    have htext : Json.quoted name ++ ':' :: text ++ rest =
        '\x22' :: (name.toList.flatMap Json.escaped ++ '\x22' :: ':' :: (text ++ rest)) := by
      simp [Json.quoted]
    have hname : quoted? (name.toList.flatMap Json.escaped ++ '\x22' :: ':' :: (text ++ rest)) =
        some (some name, ':' :: (text ++ rest)) := quoted?_escaped name _
    rw [htext, member?_eq (skipSpace_cons (by decide) _) hname (skipSpace_cons (by decide) _),
      h.read rest hrest]
    rfl

/-- Written items between brackets are read as an array. -/
lemma written_arr {n : Nat} {texts : List (List Char)} {ds : List Document}
    (h : List.Forall₂ (Written (read? n)) texts ds) (hn : texts.length ≤ n) :
    Written (read? (n + 1)) (Json.enclosed '[' ']' texts) (.arr ds) where
  begins := ⟨'[', _, rfl, by decide, by decide, by decide⟩
  read rest _ := by
    have htext : Json.enclosed '[' ']' texts ++ rest =
        '[' :: (List.intercalate [','] texts ++ ']' :: rest) := by
      simp [Json.enclosed]
    rw [htext, read?_arr (skipSpace_cons (by decide) _) n, items_intercalate (.inl rfl) h hn]
    rfl

/-- Written members between braces are read as an object. -/
lemma written_obj {n : Nat} {texts : List (List Char)} {ms : List (Option String × Document)}
    (h : List.Forall₂ (Written (member? (read? n))) texts ms) (hn : texts.length ≤ n) :
    Written (read? (n + 1)) (Json.enclosed '\x7b' '\x7d' texts) (.obj ms) where
  begins := ⟨'\x7b', _, rfl, by decide, by decide, by decide⟩
  read rest _ := by
    have htext : Json.enclosed '\x7b' '\x7d' texts ++ rest =
        '\x7b' :: (List.intercalate [','] texts ++ '\x7d' :: rest) := by
      simp [Json.enclosed]
    rw [htext, read?_obj (skipSpace_cons (by decide) _) n, items_intercalate (.inr rfl) h hn]
    rfl

/-- There is room between brackets for every text and its items. -/
lemma exists_of_length_enclosed {opening closing : Char} {texts : List (List Char)} {n : Nat}
    (h : (Json.enclosed opening closing texts).length ≤ n) :
    ∃ n', n = n' + 1 ∧ texts.length ≤ n' ∧ ∀ text ∈ texts, text.length ≤ n' := by
  obtain ⟨hcount, hlength⟩ := length_le_intercalate texts
  simp only [Json.enclosed, List.length_cons, List.length_append, List.length_nil] at h
  refine ⟨n - 1, by omega, by omega, fun text htext => ?_⟩
  have := hlength text htext
  omega

mutual

/-- The text of a value is read as its document, given as much fuel as there are characters. -/
theorem written_text : (v : Json) → v.Whole → ∀ n, v.text.length ≤ n →
    Written (read? n) v.text v.document
  | .null, _, n, hn => by
    obtain ⟨n, rfl⟩ := exists_succ hn (by simp [Json.text])
    exact ⟨⟨'n', _, rfl, by decide, by decide, by decide⟩,
      fun rest _ => read?_null (skipSpace_cons (by decide) _) n⟩
  | .bool true, _, n, hn => by
    obtain ⟨n, rfl⟩ := exists_succ hn (by simp [Json.text])
    exact ⟨⟨'t', _, rfl, by decide, by decide, by decide⟩,
      fun rest _ => read?_true (skipSpace_cons (by decide) _) n⟩
  | .bool false, _, n, hn => by
    obtain ⟨n, rfl⟩ := exists_succ hn (by simp [Json.text])
    exact ⟨⟨'f', _, rfl, by decide, by decide, by decide⟩,
      fun rest _ => read?_false (skipSpace_cons (by decide) _) n⟩
  | .num x, h, n, hn => by
    have hx : x.Whole := h
    obtain ⟨l, hread, -⟩ := Literal.read?_text hx Literal.stops_nil
    obtain ⟨c, rest, htext, -⟩ := Literal.head_of_read? hread
    obtain ⟨n, rfl⟩ := exists_succ hn (by
      rw [Json.text, ← List.append_nil x.text, htext]
      exact List.cons_ne_nil c rest)
    rw [Json.text, Json.document]
    exact written_number hx n
  | .str s, _, n, hn => by
    obtain ⟨n, rfl⟩ := exists_succ hn (by simp [Json.text, Json.quoted])
    rw [Json.text, Json.document]
    exact written_quoted s n
  | .arr items, h, n, hn => by
    rw [Json.text] at hn ⊢
    obtain ⟨n, rfl, hcount, hlength⟩ := exists_of_length_enclosed hn
    exact written_arr (written_itemTexts items h n hlength) hcount
  | .obj members, h, n, hn => by
    rw [Json.text] at hn ⊢
    obtain ⟨n, rfl, hcount, hlength⟩ := exists_of_length_enclosed hn
    exact written_obj (written_memberTexts members h n hlength) hcount

/-- The texts of an array's items are read as their documents. -/
theorem written_itemTexts : (vs : List Json) → Json.WholeItems vs → ∀ n,
    (∀ text ∈ Json.itemTexts vs, text.length ≤ n) →
    List.Forall₂ (Written (read? n)) (Json.itemTexts vs) (Json.documents vs)
  | [], _, _, _ => .nil
  | v :: vs, h, n, hn =>
    have hfirst := written_text v h.1 n (hn _ (List.mem_cons_self ..))
    .cons hfirst (written_itemTexts vs h.2 n fun text htext =>
      hn text (List.mem_cons_of_mem _ htext))

/-- The texts of an object's members are read as their names and documents. -/
theorem written_memberTexts : (ms : List (String × Json)) → Json.WholeMembers ms → ∀ n,
    (∀ text ∈ Json.memberTexts ms, text.length ≤ n) →
    List.Forall₂ (Written (member? (read? n))) (Json.memberTexts ms) (Json.memberDocuments ms)
  | [], _, _, _ => .nil
  | (k, v) :: ms, h, n, hn =>
    have hlength : v.text.length ≤ n := by
      have hmember := hn _ (List.mem_cons_self ..)
      simp only [List.length_append, List.length_cons] at hmember
      omega
    .cons (written_member (written_text v h.1 n hlength) k)
      (written_memberTexts ms h.2 n fun text htext => hn text (List.mem_cons_of_mem _ htext))

end

/-- The compact text of a value spells the document of the value, if all its numbers are whole. -/
theorem ofText?_compact {v : Json} (h : v.Whole) : ofText? v.compact = some v.document := by
  have hread := (written_text v h (v.text.length + 1) (Nat.le_succ _)).read [] Literal.stops_nil
  rw [List.append_nil] at hread
  unfold ofText? Json.compact
  rw [String.toList_ofList, hread]
  rfl

end Document

end TraceTimeline
