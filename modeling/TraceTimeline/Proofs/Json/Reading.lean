import Mathlib.Data.List.TakeWhile
import TraceTimeline.Json.Document
import TraceTimeline.Text.Blank

/-!
# What a document is read from

A document that stands at the front of a text is read from a part of the text, and what follows that
part has no say in it: the same part is read as the same document where something else follows.  A
number is the exception, since it goes on as long as there are digits; for a number the next
character has to be the same.

The fuel has no say in it either, as long as there is as much of it as there are characters to read.
Both are one statement, `Document.again_read?`, by induction on the fuel of the first reading.  From
it follows that an object is read from a text as from the text without the blanks around it
(`Document.ofText?_trim`), and from a text in which it stands between other members
(`Document.ofText?_framed`).
-/

namespace TraceTimeline

variable {α β : Type}

/-- What a reader reads is read from a part of the text, and from that part wherever it stands, so
long as the same character comes next. -/
def Local (read : List Char → Option (α × List Char)) : Prop :=
  ∀ cs a r, read cs = some (a, r) →
    ∃ c, cs = c ++ r ∧ ∀ s, s.head? = r.head? → read (c ++ s) = some (a, s)

lemma head?_append_congr {r s : List Char} (h : s.head? = r.head?) (c : List Char) :
    (c ++ s).head? = (c ++ r).head? := by
  rw [List.head?_append, List.head?_append, h]

/-- The characters at the front of a text that meet a condition are found again where the same
character comes next. -/
lemma span_congr (p : Char → Bool) {cs s : List Char}
    (h : s.head? = (cs.dropWhile p).head?) :
    (cs.takeWhile p ++ s).takeWhile p = cs.takeWhile p ∧
      (cs.takeWhile p ++ s).dropWhile p = s := by
  have hfront : ∀ x ∈ cs.takeWhile p, p x = true := List.all_eq_true.1 List.all_takeWhile
  rw [List.takeWhile_append_of_pos hfront, List.dropWhile_append_of_pos hfront]
  cases s with
  | nil => simp
  | cons x rest =>
    have hx : p x = false := by
      have hhead := List.head?_dropWhile_not p cs
      rw [← h] at hhead
      simpa using hhead
    rw [List.takeWhile_cons_of_neg (by simp [hx]), List.dropWhile_cons_of_neg (by simp [hx]),
      List.append_nil]
    exact ⟨rfl, rfl⟩

/-- Two local readers, one after the other. -/
lemma Local.bind {read : List Char → Option (α × List Char)}
    {next : α → List Char → Option (β × List Char)} (h : Local read) (hnext : ∀ a, Local (next a)) :
    Local fun cs => (read cs).bind fun p => next p.1 p.2 := by
  intro cs b r hread
  obtain ⟨⟨a, cs'⟩, hfirst, hsecond⟩ := Option.bind_eq_some_iff.1 hread
  obtain ⟨c, rfl, hc⟩ := h cs a cs' hfirst
  obtain ⟨c', rfl, hc'⟩ := hnext a cs' b r hsecond
  refine ⟨c ++ c', by simp, fun s hs => ?_⟩
  have hfirst' : read (c ++ (c' ++ s)) = some (a, c' ++ s) := hc _ (head?_append_congr hs c')
  dsimp only
  rw [List.append_assoc, hfirst', Option.bind_some]
  exact hc' s hs

/-- What was read may be put in another form. -/
lemma Local.map {read : List Char → Option (α × List Char)} (h : Local read) (f : α → β) :
    Local fun cs => (read cs).map fun p => (f p.1, p.2) := by
  intro cs b r hread
  obtain ⟨⟨a, cs'⟩, hfirst, heq⟩ := Option.map_eq_some_iff.1 hread
  obtain ⟨rfl, rfl⟩ := Prod.mk.inj heq
  obtain ⟨c, hsplit, hc⟩ := h cs a _ hfirst
  refine ⟨c, hsplit, fun s hs => ?_⟩
  dsimp only
  rw [hc s hs]
  rfl

lemma ne_cons_of_head? {r s : List Char} (h : s.head? = r.head?) {x : Char}
    (hr : ∀ rest, r = x :: rest → False) (rest : List Char) : s ≠ x :: rest := by
  intro hs
  rw [hs, List.head?_cons] at h
  obtain ⟨rest', hrest'⟩ := List.head?_eq_some_iff.1 h.symm
  exact hr rest' hrest'

/-! ## Numbers -/

namespace Literal

/-- A run of digits goes up to a character that is not a digit. -/
lemma local_digitRun? : Local digitRun? := by
  intro cs ds r h
  unfold digitRun? at h
  split at h
  · cases h
  · next d ds' htake =>
    obtain ⟨rfl, rfl⟩ := Prod.mk.inj (Option.some.inj h)
    refine ⟨cs.takeWhile Char.isDigit, List.takeWhile_append_dropWhile.symm, fun s hs => ?_⟩
    obtain ⟨htake', hdrop'⟩ := span_congr Char.isDigit hs
    unfold digitRun?
    rw [htake', hdrop', htake]

/-- A run of digits begins with a digit. -/
lemma isDigit_of_digitRun? {cs ds r : List Char} (h : digitRun? cs = some (ds, r)) :
    ∃ d rest, cs = d :: rest ∧ d.isDigit = true := by
  unfold digitRun? at h
  split at h
  · cases h
  · next d ds' htake =>
    cases cs with
    | nil => cases htake
    | cons x rest =>
      refine ⟨x, rest, rfl, ?_⟩
      by_contra hx
      rw [List.takeWhile_cons_of_neg hx] at htake
      cases htake

/-- The digits before the point are a part of the text. -/
lemma local_wholePart? : Local wholePart? := by
  intro cs ds r h
  unfold wholePart? at h
  split at h
  · obtain ⟨rfl, rfl⟩ := Prod.mk.inj (Option.some.inj h)
    exact ⟨['0'], rfl, fun s _ => rfl⟩
  · next hzero =>
    obtain ⟨c, rfl, hc⟩ := local_digitRun? cs ds r h
    refine ⟨c, rfl, fun s hs => ?_⟩
    unfold wholePart?
    split
    · next rest heq =>
      exact absurd heq (ne_cons_of_head? (head?_append_congr hs c) hzero rest)
    · exact hc s hs

/-- So are the point and the digits after it. -/
lemma local_fractionPart? : Local fractionPart? := by
  intro cs ds r h
  unfold fractionPart? at h
  split at h
  · next cs =>
    obtain ⟨c, rfl, hc⟩ := local_digitRun?.map some cs ds r h
    exact ⟨'.' :: c, rfl, fun s hs => hc s hs⟩
  · next hpoint =>
    obtain ⟨rfl, rfl⟩ := Prod.mk.inj (Option.some.inj h)
    refine ⟨[], rfl, fun s hs => ?_⟩
    rw [List.nil_append]
    unfold fractionPart?
    split
    · next rest => exact absurd rfl (ne_cons_of_head? hs hpoint rest)
    · rfl

/-- So is the sign of an exponent. -/
lemma local_exponentSign : Local fun cs => some (exponentSign cs) := by
  intro cs negative r h
  dsimp only at h
  unfold exponentSign at h
  split at h
  · obtain ⟨rfl, rfl⟩ := Prod.mk.inj (Option.some.inj h)
    exact ⟨['+'], rfl, fun s _ => rfl⟩
  · obtain ⟨rfl, rfl⟩ := Prod.mk.inj (Option.some.inj h)
    exact ⟨['-'], rfl, fun s _ => rfl⟩
  · next hplus hminus =>
    obtain ⟨rfl, rfl⟩ := Prod.mk.inj (Option.some.inj h)
    refine ⟨[], rfl, fun s hs => ?_⟩
    dsimp only
    rw [List.nil_append]
    unfold exponentSign
    split
    · next rest => exact absurd rfl (ne_cons_of_head? hs hplus rest)
    · next rest => exact absurd rfl (ne_cons_of_head? hs hminus rest)
    · rfl

lemma local_exponentDigits : Local fun cs =>
    (some (exponentSign cs)).bind fun p =>
      (digitRun? p.2).map fun q => (some (p.1, q.1), q.2) :=
  local_exponentSign.bind fun negative => local_digitRun?.map fun ds => some (negative, ds)

/-- The exponent is a part of the text. -/
lemma local_exponentPart? : Local exponentPart? := by
  have hcons (x : Char) (cs : List Char) : exponentPart? (x :: cs) =
      if x = 'e' ∨ x = 'E' then
        (some (exponentSign cs)).bind fun p => (digitRun? p.2).map fun q => (some (p.1, q.1), q.2)
      else some (none, x :: cs) := rfl
  intro cs exponent r h
  cases cs with
  | nil =>
    obtain ⟨rfl, rfl⟩ := Prod.mk.inj (Option.some.inj h)
    refine ⟨[], rfl, fun s hs => ?_⟩
    rw [List.head?_eq_none_iff.1 hs]
    rfl
  | cons x cs =>
    rw [hcons] at h
    by_cases hmark : x = 'e' ∨ x = 'E'
    · rw [if_pos hmark] at h
      obtain ⟨c, rfl, hc⟩ := local_exponentDigits cs exponent r h
      refine ⟨x :: c, rfl, fun s hs => ?_⟩
      rw [List.cons_append, hcons, if_pos hmark]
      exact hc s hs
    · rw [if_neg hmark] at h
      obtain ⟨rfl, rfl⟩ := Prod.mk.inj (Option.some.inj h)
      refine ⟨[], rfl, fun s hs => ?_⟩
      obtain ⟨rest, rfl⟩ := List.head?_eq_some_iff.1 hs
      rw [List.nil_append, hcons, if_neg hmark]

/-- So is the sign of a number. -/
lemma local_sign : Local fun cs => some (sign cs) := by
  intro cs negative r h
  dsimp only at h
  unfold sign at h
  split at h
  · obtain ⟨rfl, rfl⟩ := Prod.mk.inj (Option.some.inj h)
    exact ⟨['-'], rfl, fun s _ => rfl⟩
  · next hminus =>
    obtain ⟨rfl, rfl⟩ := Prod.mk.inj (Option.some.inj h)
    refine ⟨[], rfl, fun s hs => ?_⟩
    dsimp only
    rw [List.nil_append]
    unfold sign
    split
    · next rest => exact absurd rfl (ne_cons_of_head? hs hminus rest)
    · rfl

/-- A number is read part by part. -/
lemma read?_eq (cs : List Char) :
    read? cs = (some (sign cs)).bind fun p => (wholePart? p.2).bind fun q =>
      (fractionPart? q.2).bind fun t =>
        (exponentPart? t.2).map fun u => (Literal.mk p.1 q.1 t.1 u.1, u.2) := by
  unfold read?
  simp only [Option.bind_eq_bind, Option.pure_def, Option.bind_some, Option.map_eq_bind,
    Function.comp_def]

/-- And so is the whole number. -/
lemma local_read? : Local read? := by
  have h : Local fun cs => (some (sign cs)).bind fun p => (wholePart? p.2).bind fun q =>
      (fractionPart? q.2).bind fun t =>
        (exponentPart? t.2).map fun u => (Literal.mk p.1 q.1 t.1 u.1, u.2) :=
    local_sign.bind fun negative => local_wholePart?.bind fun whole =>
      local_fractionPart?.bind fun fraction =>
        local_exponentPart?.map fun exponent => Literal.mk negative whole fraction exponent
  intro cs l r hread
  have hread' := (read?_eq cs).symm.trans hread
  obtain ⟨c, hsplit, hc⟩ := h cs l r hread'
  exact ⟨c, hsplit, fun s hs => (read?_eq _).trans (hc s hs)⟩

/-- A number begins with a minus sign or a digit. -/
lemma head_of_read? {cs r : List Char} {l : Literal} (h : read? cs = some (l, r)) :
    ∃ x rest, cs = x :: rest ∧ (x = '-' ∨ x.isDigit = true) := by
  rw [read?_eq, Option.bind_some] at h
  obtain ⟨⟨whole, cs'⟩, hwhole, -⟩ := Option.bind_eq_some_iff.1 h
  unfold sign at hwhole
  split at hwhole
  · next rest => exact ⟨'-', rest, rfl, .inl rfl⟩
  · dsimp only at hwhole
    unfold wholePart? at hwhole
    split at hwhole
    · exact ⟨'0', _, rfl, .inr (by decide)⟩
    · obtain ⟨d, rest, rfl, hd⟩ := isDigit_of_digitRun? hwhole
      exact ⟨d, rest, rfl, .inr hd⟩

/-- The digits before the point are at least one. -/
lemma length_lt_of_wholePart? {cs ds r : List Char} (h : wholePart? cs = some (ds, r)) :
    r.length < cs.length := by
  unfold wholePart? at h
  split at h
  · obtain ⟨-, rfl⟩ := Prod.mk.inj (Option.some.inj h)
    exact Nat.lt_succ_self _
  · obtain ⟨d, rest, rfl, hd⟩ := isDigit_of_digitRun? h
    unfold digitRun? at h
    rw [List.takeWhile_cons_of_pos hd, List.dropWhile_cons_of_pos hd] at h
    obtain ⟨-, rfl⟩ := Prod.mk.inj (Option.some.inj h)
    exact Nat.lt_succ_of_le (List.dropWhile_suffix _).length_le

/-- So a number takes some of the text. -/
lemma length_lt_of_read? {cs r : List Char} {l : Literal} (h : read? cs = some (l, r)) :
    r.length < cs.length := by
  rw [read?_eq] at h
  obtain ⟨⟨negative, cs₁⟩, hsign, h₁⟩ := Option.bind_eq_some_iff.1 h
  obtain ⟨⟨whole, cs₂⟩, hwhole, h₂⟩ := Option.bind_eq_some_iff.1 h₁
  obtain ⟨⟨fraction, cs₃⟩, hfraction, h₃⟩ := Option.bind_eq_some_iff.1 h₂
  obtain ⟨⟨exponent, cs₄⟩, hexponent, heq⟩ := Option.map_eq_some_iff.1 h₃
  obtain ⟨-, rfl⟩ := Prod.mk.inj heq
  obtain ⟨c₁, rfl, -⟩ := local_sign cs negative cs₁ hsign
  obtain ⟨c₃, rfl, -⟩ := local_fractionPart? cs₂ fraction cs₃ hfraction
  obtain ⟨c₄, rfl, -⟩ := local_exponentPart? cs₃ exponent cs₄ hexponent
  have hlt := length_lt_of_wholePart? hwhole
  simp only [List.length_append] at hlt ⊢
  omega

end Literal

/-! ## Strings -/

/-- What a reader reads ends with a mark of its own, so that nothing depends on what follows. -/
def Closed (read : List Char → Option (α × List Char)) : Prop :=
  ∀ cs a r, read cs = some (a, r) → ∃ c, cs = c ++ r ∧ ∀ s, read (c ++ s) = some (a, s)

/-- What was read may be put in another form. -/
lemma Closed.map {read : List Char → Option (α × List Char)} (h : Closed read) (f : α → β) :
    Closed fun cs => (read cs).map fun p => (f p.1, p.2) := by
  intro cs b r hread
  obtain ⟨⟨a, cs'⟩, hfirst, heq⟩ := Option.map_eq_some_iff.1 hread
  obtain ⟨rfl, rfl⟩ := Prod.mk.inj heq
  obtain ⟨c, hsplit, hc⟩ := h cs a _ hfirst
  refine ⟨c, hsplit, fun s => ?_⟩
  dsimp only
  rw [hc s]
  rfl

namespace Piece

lemma read?_cons {x : Char} (hx : x ≠ '\\') (rest : List Char) :
    read? (x :: rest) =
      if x = '\x22' then some ([], rest)
      else if x = '\\' ∨ x.toNat < 0x20 then none
      else (read? rest).map fun p => (.char x :: p.1, p.2) :=
  read?.eq_4 x rest (fun _ _ _ _ _ heq _ => hx heq) fun _ _ heq _ => hx heq

/-- A string ends with its quotation mark. -/
lemma closed_read? : Closed read? := by
  intro cs
  induction cs using read?.induct with
  | case1 =>
    intro pieces r h
    cases h
  | case2 a b c d rest ih =>
    intro pieces r h
    rw [read?] at h
    obtain ⟨u, hu, h⟩ := Option.bind_eq_some_iff.1 h
    obtain ⟨⟨pieces', r'⟩, hrest, h⟩ := Option.bind_eq_some_iff.1 h
    obtain ⟨rfl, rfl⟩ := Prod.mk.inj (Option.some.inj h)
    obtain ⟨c', rfl, hc'⟩ := ih pieces' _ hrest
    refine ⟨'\\' :: 'u' :: a :: b :: c :: d :: c', rfl, fun s => ?_⟩
    simp only [List.cons_append]
    rw [read?, hu, hc' s]
    rfl
  | case3 e rest hnot ih =>
    intro pieces r h
    rw [read?.eq_3 _ _ hnot] at h
    obtain ⟨x, hx, h⟩ := Option.bind_eq_some_iff.1 h
    obtain ⟨⟨pieces', r'⟩, hrest, h⟩ := Option.bind_eq_some_iff.1 h
    obtain ⟨rfl, rfl⟩ := Prod.mk.inj (Option.some.inj h)
    obtain ⟨c', rfl, hc'⟩ := ih pieces' _ hrest
    -- in the other text, too, this must not be taken for an escaped number
    have hu : e ≠ 'u' := by
      rintro rfl
      have hnone : ofEscape? 'u' = none := by decide
      exact absurd hx (by simp [hnone])
    refine ⟨'\\' :: e :: c', rfl, fun s => ?_⟩
    simp only [List.cons_append]
    rw [read?.eq_3 _ _ fun _ _ _ _ _ he _ => hu he, hx, hc' s]
    rfl
  | case4 rest hnot hnot' =>
    intro pieces r h
    rw [read?_cons (by decide), if_pos rfl] at h
    obtain ⟨rfl, rfl⟩ := Prod.mk.inj (Option.some.inj h)
    exact ⟨['\x22'], rfl, fun s => read?_cons (by decide) s⟩
  | case5 x rest hnot hnot' hquote hbad =>
    intro pieces r h
    rw [read?.eq_4 _ _ hnot hnot', if_neg hquote, if_pos hbad] at h
    cases h
  | case6 x rest hnot hnot' hquote hgood ih =>
    intro pieces r h
    have hx : x ≠ '\\' := fun heq => hgood (.inl heq)
    rw [read?_cons hx, if_neg hquote, if_neg hgood] at h
    obtain ⟨⟨pieces', r'⟩, hrest, h⟩ := Option.map_eq_some_iff.1 h
    obtain ⟨rfl, rfl⟩ := Prod.mk.inj h
    obtain ⟨c', rfl, hc'⟩ := ih pieces' _ hrest
    refine ⟨x :: c', rfl, fun s => ?_⟩
    rw [List.cons_append, read?_cons hx, if_neg hquote, if_neg hgood, hc' s]
    rfl

end Piece

namespace Document

lemma closed_quoted? : Closed quoted? :=
  Piece.closed_read?.map fun pieces => (Piece.text? pieces).map String.ofList

/-! ## Arrays and objects -/

/-- What `read` reads, `again` reads from the same part of any text with the same next character,
given as much fuel as the part has characters, of which there are some. -/
def Again (read : List Char → Option (α × List Char))
    (again : Nat → List Char → Option (α × List Char)) : Prop :=
  ∀ cs a r, read cs = some (a, r) → ∃ c, c ≠ [] ∧ cs = c ++ r ∧
    ∀ k s, c.length ≤ k → s.head? = r.head? → again k (c ++ s) = some (a, s)

/-- Whether a character is space to a document. -/
def isSpace (c : Char) : Bool := c = ' ' ∨ c = '\n' ∨ c = '\t' ∨ c = '\r'

lemma skipSpace_eq (cs : List Char) : skipSpace cs = cs.dropWhile isSpace := rfl

/-- The space at the front of a text ends with the same character elsewhere. -/
lemma skipSpace_eq_cons {cs rest : List Char} {x : Char} (h : skipSpace cs = x :: rest) :
    ∃ space, cs = space ++ x :: rest ∧ ∀ s, skipSpace (space ++ x :: s) = x :: s := by
  rw [skipSpace_eq] at h
  refine ⟨cs.takeWhile isSpace, ?_, fun s => ?_⟩
  · rw [← h]
    exact List.takeWhile_append_dropWhile.symm
  · refine (span_congr isSpace ?_).2
    rw [h, List.head?_cons, List.head?_cons]

lemma skipSpace_append_cons {space : List Char} (hspace : ∀ y ∈ space, isSpace y = true) {x : Char}
    (hx : isSpace x = false) (s : List Char) : skipSpace (space ++ x :: s) = x :: s := by
  rw [skipSpace_eq, List.dropWhile_append_of_pos hspace,
    List.dropWhile_cons_of_neg (by simp [hx])]

/-- What the first character after space is does not depend on what follows a character that is no
space. -/
lemma head?_skipSpace_congr {x : Char} (hx : isSpace x = false) (c r s : List Char) :
    (skipSpace (c ++ x :: s)).head? = (skipSpace (c ++ x :: r)).head? := by
  rw [skipSpace_eq, skipSpace_eq, ← List.find?_not_eq_head?_dropWhile,
    ← List.find?_not_eq_head?_dropWhile, List.find?_append, List.find?_append]
  simp [hx]

/-- The last item is followed by the closing character. -/
lemma someItems_last {item : List Char → Option (α × List Char)} {closing : Char}
    (hclosing : closing ≠ ',') {cs cs' rest : List Char} {x : α} (hx : item cs = some (x, cs'))
    (hspace : skipSpace cs' = closing :: rest) (n : Nat) :
    someItems closing item (n + 1) cs = some ([x], rest) := by
  rw [someItems, hx, Option.bind_eq_bind, Option.bind_some]
  dsimp only
  rw [hspace]
  dsimp only
  rw [if_neg hclosing, if_pos rfl]

/-- Every other item is followed by a comma. -/
lemma someItems_more {item : List Char → Option (α × List Char)} {closing : Char}
    {cs cs' rest : List Char} {x : α} (hx : item cs = some (x, cs'))
    (hspace : skipSpace cs' = ',' :: rest) (n : Nat) :
    someItems closing item (n + 1) cs =
      (someItems closing item n rest).map fun p => (x :: p.1, p.2) := by
  rw [someItems, hx, Option.bind_eq_bind, Option.bind_some]
  dsimp only
  rw [hspace]
  rfl

/-- There is no other way to read items. -/
lemma someItems_cases {item : List Char → Option (α × List Char)} {closing : Char} {n : Nat}
    {cs : List Char} {xs : List α} {r : List Char}
    (h : someItems closing item (n + 1) cs = some (xs, r)) :
    ∃ x cs', item cs = some (x, cs') ∧
      ((∃ rest xs', skipSpace cs' = ',' :: rest ∧ someItems closing item n rest = some (xs', r) ∧
          xs = x :: xs') ∨
        closing ≠ ',' ∧ skipSpace cs' = closing :: r ∧ xs = [x]) := by
  rw [someItems] at h
  obtain ⟨⟨x, cs'⟩, hx, hafter⟩ := Option.bind_eq_some_iff.1 h
  refine ⟨x, cs', hx, ?_⟩
  dsimp only at hafter
  cases hspace : skipSpace cs' with
  | nil =>
    rw [hspace] at hafter
    cases hafter
  | cons y rest =>
    rw [hspace] at hafter
    dsimp only at hafter
    by_cases hcomma : y = ','
    · rw [if_pos hcomma] at hafter
      obtain ⟨⟨xs', r'⟩, hrest, heq⟩ := Option.map_eq_some_iff.1 hafter
      obtain ⟨rfl, rfl⟩ := Prod.mk.inj heq
      exact .inl ⟨rest, xs', by rw [hcomma], hrest, rfl⟩
    · rw [if_neg hcomma] at hafter
      by_cases hclosing : y = closing
      · subst hclosing
        rw [if_pos rfl] at hafter
        obtain ⟨rfl, rfl⟩ := Prod.mk.inj (Option.some.inj hafter)
        exact .inr ⟨hcomma, rfl, rfl⟩
      · rw [if_neg hclosing] at hafter
        cases hafter

/-- One or more items are read again, with the closing character after them. -/
lemma again_someItems {item : List Char → Option (α × List Char)}
    {again : Nat → List Char → Option (α × List Char)} (hitem : Again item again) {closing : Char}
    {n : Nat} {cs : List Char} {xs : List α} {r : List Char}
    (h : someItems closing item n cs = some (xs, r)) :
    ∃ c, c ≠ [] ∧ cs = c ++ closing :: r ∧ ∀ m k s, c.length ≤ m → c.length ≤ k →
      someItems closing (again k) m (c ++ closing :: s) = some (xs, s) := by
  induction n generalizing cs xs with
  | zero => cases h
  | succ n ih =>
    obtain ⟨x, cs', hx, hafter⟩ := someItems_cases h
    obtain ⟨c₁, hne, rfl, hc₁⟩ := hitem cs x cs' hx
    have hpos : 0 < c₁.length := List.length_pos_iff.2 hne
    rcases hafter with ⟨rest, xs', hspace, hrest, rfl⟩ | ⟨hclosing, hspace, rfl⟩
    · obtain ⟨space, rfl, hskip⟩ := skipSpace_eq_cons hspace
      obtain ⟨c₂, -, rfl, hc₂⟩ := ih hrest
      refine ⟨c₁ ++ (space ++ ',' :: c₂), by simp [hne], by simp, fun m k s hm hk => ?_⟩
      rw [List.length_append, List.length_append, List.length_cons] at hm hk
      obtain ⟨m, rfl⟩ : ∃ m', m = m' + 1 := ⟨m - 1, by omega⟩
      have hfirst : again k (c₁ ++ (space ++ ',' :: (c₂ ++ closing :: s))) =
          some (x, space ++ ',' :: (c₂ ++ closing :: s)) :=
        hc₁ k _ (by omega) (by simp [List.head?_append])
      have htext : c₁ ++ (space ++ ',' :: c₂) ++ closing :: s =
          c₁ ++ (space ++ ',' :: (c₂ ++ closing :: s)) := by simp
      rw [htext, someItems_more hfirst (hskip _) m, hc₂ m k s (by omega) (by omega)]
      rfl
    · obtain ⟨space, rfl, hskip⟩ := skipSpace_eq_cons hspace
      refine ⟨c₁ ++ space, by simp [hne], by simp, fun m k s hm hk => ?_⟩
      rw [List.length_append] at hm hk
      obtain ⟨m, rfl⟩ : ∃ m', m = m' + 1 := ⟨m - 1, by omega⟩
      have hfirst : again k (c₁ ++ (space ++ closing :: s)) = some (x, space ++ closing :: s) :=
        hc₁ k _ (by omega) (by simp [List.head?_append])
      rw [List.append_assoc, someItems_last hclosing hfirst (hskip s) m]

/-- So are no items at all. -/
lemma again_items {item : List Char → Option (α × List Char)}
    {again : Nat → List Char → Option (α × List Char)} (hitem : Again item again) {closing : Char}
    (hclosing : isSpace closing = false) {n : Nat} {cs : List Char} {xs : List α} {r : List Char}
    (h : items closing item n cs = some (xs, r)) :
    ∃ c, cs = c ++ closing :: r ∧ ∀ m k s, c.length ≤ m → c.length ≤ k →
      items closing (again k) m (c ++ closing :: s) = some (xs, s) := by
  unfold items at h
  split at h
  · cases h
  · next y rest hspace =>
    split at h
    · next hempty =>
      subst hempty
      obtain ⟨rfl, rfl⟩ := Prod.mk.inj (Option.some.inj h)
      obtain ⟨space, rfl, hskip⟩ := skipSpace_eq_cons hspace
      refine ⟨space, rfl, fun m k s _ _ => ?_⟩
      unfold items
      rw [hskip s]
      exact if_pos rfl
    · next hsome =>
      obtain ⟨c, -, rfl, hc⟩ := again_someItems hitem h
      refine ⟨c, rfl, fun m k s hm hk => ?_⟩
      -- what follows the space is the same in the other text, so the list is not empty there either
      have hhead := head?_skipSpace_congr hclosing c r s
      rw [hspace, List.head?_cons] at hhead
      obtain ⟨rest', hrest'⟩ := List.head?_eq_some_iff.1 hhead
      unfold items
      rw [hrest']
      dsimp only
      rw [if_neg hsome]
      exact hc m k s hm hk

/-- A member is a quoted name, a colon and a part. -/
lemma member?_eq {part : List Char → Option (Document × List Char)} {cs cs₁ cs₂ cs₃ : List Char}
    {name : Option String} (hquote : skipSpace cs = '\x22' :: cs₁)
    (hname : quoted? cs₁ = some (name, cs₂)) (hcolon : skipSpace cs₂ = ':' :: cs₃) :
    member? part cs = (part cs₃).map fun p => ((name, p.1), p.2) := by
  unfold member?
  simp only [hquote, hname, Option.bind_eq_bind, Option.bind_some, hcolon]
  cases part cs₃ <;> rfl

/-- There is no other way to read a member. -/
lemma member?_cases {part : List Char → Option (Document × List Char)} {cs r : List Char}
    {member : Option String × Document} (h : member? part cs = some (member, r)) :
    ∃ cs₁ cs₂ cs₃, skipSpace cs = '\x22' :: cs₁ ∧ quoted? cs₁ = some (member.1, cs₂) ∧
      skipSpace cs₂ = ':' :: cs₃ ∧ part cs₃ = some (member.2, r) := by
  unfold member? at h
  split at h
  · next cs₁ hquote =>
    obtain ⟨⟨name, cs₂⟩, hname, hafter⟩ := Option.bind_eq_some_iff.1 h
    dsimp only at hafter
    split at hafter
    · next cs₃ hcolon =>
      obtain ⟨⟨d, cs₄⟩, hd, heq⟩ := Option.bind_eq_some_iff.1 hafter
      obtain ⟨rfl, rfl⟩ := Prod.mk.inj (Option.some.inj heq)
      exact ⟨cs₁, cs₂, cs₃, hquote, hname, hcolon, hd⟩
    · cases hafter
  · cases h

/-- A member is read again if its part is. -/
lemma again_member? {part : List Char → Option (Document × List Char)}
    {again : Nat → List Char → Option (Document × List Char)} (hpart : Again part again) :
    Again (member? part) fun k => member? (again k) := by
  intro cs member r h
  obtain ⟨cs₁, cs₂, cs₃, hquote, hname, hcolon, hd⟩ := member?_cases h
  obtain ⟨space, rfl, hskip⟩ := skipSpace_eq_cons hquote
  obtain ⟨c₁, rfl, hc₁⟩ := closed_quoted? cs₁ _ cs₂ hname
  obtain ⟨space', rfl, hskip'⟩ := skipSpace_eq_cons hcolon
  obtain ⟨c₂, -, rfl, hc₂⟩ := hpart cs₃ _ r hd
  refine ⟨space ++ '\x22' :: (c₁ ++ (space' ++ ':' :: c₂)), by simp, by simp,
    fun k s hk hs => ?_⟩
  have hlen : c₂.length ≤ k := by
    simp only [List.length_append, List.length_cons] at hk
    omega
  have htext : space ++ '\x22' :: (c₁ ++ (space' ++ ':' :: c₂)) ++ s =
      space ++ '\x22' :: (c₁ ++ (space' ++ ':' :: (c₂ ++ s))) := by simp
  dsimp only
  rw [htext, member?_eq (hskip _) (hc₁ _) (hskip' _), hc₂ k s hlen hs]
  rfl

/-! ## Documents -/

section

variable {cs rest : List Char}

lemma read?_quote (h : skipSpace cs = '\x22' :: rest) (n : Nat) :
    read? (n + 1) cs = (quoted? rest).map fun p => (.str p.1, p.2) := by
  rw [read?, h]
  rfl

lemma read?_arr (h : skipSpace cs = '[' :: rest) (n : Nat) :
    read? (n + 1) cs = (items ']' (read? n) n rest).map fun p => (.arr p.1, p.2) := by
  rw [read?, h]
  rfl

lemma read?_obj (h : skipSpace cs = '\x7b' :: rest) (n : Nat) :
    read? (n + 1) cs = (items '\x7d' (member? (read? n)) n rest).map fun p => (.obj p.1, p.2) := by
  rw [read?, h]
  rfl

lemma read?_null (h : skipSpace cs = 'n' :: 'u' :: 'l' :: 'l' :: rest) (n : Nat) :
    read? (n + 1) cs = some (.null, rest) := by
  rw [read?, h]
  rfl

lemma read?_true (h : skipSpace cs = 't' :: 'r' :: 'u' :: 'e' :: rest) (n : Nat) :
    read? (n + 1) cs = some (.bool true, rest) := by
  rw [read?, h]
  rfl

lemma read?_false (h : skipSpace cs = 'f' :: 'a' :: 'l' :: 's' :: 'e' :: rest) (n : Nat) :
    read? (n + 1) cs = some (.bool false, rest) := by
  rw [read?, h]
  rfl

lemma read?_num {x : Char} (h : skipSpace cs = x :: rest) (hx : x = '-' ∨ x.isDigit = true)
    (n : Nat) :
    read? (n + 1) cs = (Literal.read? (x :: rest)).map fun p => (.num p.1.value?, p.2) := by
  rw [read?, h]
  split
  case h_7 => rfl
  -- every other document begins with a character that is neither a sign nor a digit
  all_goals
    rename_i heq
    cases heq
    exact absurd hx (by decide)

end

/-- What the first character of a document says about it. -/
inductive Begins (n : Nat) (cs : List Char) (d : Document) (r : List Char) : Prop where
  | str {rest : List Char} {s : Option String} (hspace : skipSpace cs = '\x22' :: rest)
      (hread : quoted? rest = some (s, r)) (hd : d = .str s)
  | arr {rest : List Char} {ds : List Document} (hspace : skipSpace cs = '[' :: rest)
      (hread : items ']' (read? n) n rest = some (ds, r)) (hd : d = .arr ds)
  | obj {rest : List Char} {ms : List (Option String × Document)}
      (hspace : skipSpace cs = '\x7b' :: rest)
      (hread : items '\x7d' (member? (read? n)) n rest = some (ms, r)) (hd : d = .obj ms)
  | null (hspace : skipSpace cs = 'n' :: 'u' :: 'l' :: 'l' :: r) (hd : d = .null)
  | yes (hspace : skipSpace cs = 't' :: 'r' :: 'u' :: 'e' :: r) (hd : d = .bool true)
  | no (hspace : skipSpace cs = 'f' :: 'a' :: 'l' :: 's' :: 'e' :: r) (hd : d = .bool false)
  | num {l : Literal} (hread : Literal.read? (skipSpace cs) = some (l, r)) (hd : d = .num l.value?)

/-- A document is read in one of seven ways. -/
lemma begins_of_read? {n : Nat} {cs : List Char} {d : Document} {r : List Char}
    (h : read? (n + 1) cs = some (d, r)) : Begins n cs d r := by
  rw [read?] at h
  split at h
  · next hspace =>
    obtain ⟨⟨s, r'⟩, hread, heq⟩ := Option.map_eq_some_iff.1 h
    obtain ⟨rfl, rfl⟩ := Prod.mk.inj heq
    exact .str hspace hread rfl
  · next hspace =>
    obtain ⟨⟨ds, r'⟩, hread, heq⟩ := Option.map_eq_some_iff.1 h
    obtain ⟨rfl, rfl⟩ := Prod.mk.inj heq
    exact .arr hspace hread rfl
  · next hspace =>
    obtain ⟨⟨ms, r'⟩, hread, heq⟩ := Option.map_eq_some_iff.1 h
    obtain ⟨rfl, rfl⟩ := Prod.mk.inj heq
    exact .obj hspace hread rfl
  · next hspace =>
    obtain ⟨rfl, rfl⟩ := Prod.mk.inj (Option.some.inj h)
    exact .null hspace rfl
  · next hspace =>
    obtain ⟨rfl, rfl⟩ := Prod.mk.inj (Option.some.inj h)
    exact .yes hspace rfl
  · next hspace =>
    obtain ⟨rfl, rfl⟩ := Prod.mk.inj (Option.some.inj h)
    exact .no hspace rfl
  · obtain ⟨⟨l, r'⟩, hread, heq⟩ := Option.map_eq_some_iff.1 h
    obtain ⟨rfl, rfl⟩ := Prod.mk.inj heq
    exact .num hread rfl

lemma exists_succ {c : List Char} {k : Nat} (h : c.length ≤ k) (hc : c ≠ []) :
    ∃ k', k = k' + 1 :=
  Nat.exists_eq_add_one_of_ne_zero fun hk => hc (List.eq_nil_of_length_eq_zero (by omega))

/-- A document is read again from the part that it was read from. -/
theorem again_read? (n : Nat) : Again (read? n) read? := by
  induction n with
  | zero =>
    intro cs d r h
    cases h
  | succ n ih =>
    intro cs d r h
    cases begins_of_read? h with
    | str hspace hread hd =>
      obtain ⟨space, rfl, hskip⟩ := skipSpace_eq_cons hspace
      obtain ⟨c, rfl, hc⟩ := closed_quoted? _ _ r hread
      refine ⟨space ++ '\x22' :: c, by simp, by simp, fun k s hk _ => ?_⟩
      obtain ⟨k, rfl⟩ := exists_succ hk (by simp)
      rw [List.append_assoc, List.cons_append, read?_quote (hskip _) k, hc s, hd]
      rfl
    | arr hspace hread hd =>
      obtain ⟨space, rfl, hskip⟩ := skipSpace_eq_cons hspace
      obtain ⟨c, rfl, hc⟩ := again_items ih (by decide) hread
      refine ⟨space ++ '[' :: (c ++ [']']), by simp, by simp, fun k s hk _ => ?_⟩
      obtain ⟨k, rfl⟩ := exists_succ hk (by simp)
      have hlen : c.length ≤ k := by
        simp only [List.length_append, List.length_cons] at hk
        omega
      have htext : space ++ '[' :: (c ++ [']']) ++ s = space ++ '[' :: (c ++ ']' :: s) := by simp
      rw [htext, read?_arr (hskip _) k, hc k k s hlen hlen, hd]
      rfl
    | obj hspace hread hd =>
      obtain ⟨space, rfl, hskip⟩ := skipSpace_eq_cons hspace
      obtain ⟨c, rfl, hc⟩ := again_items (again_member? ih) (by decide) hread
      refine ⟨space ++ '\x7b' :: (c ++ ['\x7d']), by simp, by simp, fun k s hk _ => ?_⟩
      obtain ⟨k, rfl⟩ := exists_succ hk (by simp)
      have hlen : c.length ≤ k := by
        simp only [List.length_append, List.length_cons] at hk
        omega
      have htext : space ++ '\x7b' :: (c ++ ['\x7d']) ++ s =
          space ++ '\x7b' :: (c ++ '\x7d' :: s) := by simp
      rw [htext, read?_obj (hskip _) k, hc k k s hlen hlen, hd]
      rfl
    | null hspace hd =>
      obtain ⟨space, rfl, hskip⟩ := skipSpace_eq_cons hspace
      refine ⟨space ++ ['n', 'u', 'l', 'l'], by simp, by simp, fun k s hk _ => ?_⟩
      obtain ⟨k, rfl⟩ := exists_succ hk (by simp)
      rw [List.append_assoc, hd]
      exact read?_null (hskip _) k
    | yes hspace hd =>
      obtain ⟨space, rfl, hskip⟩ := skipSpace_eq_cons hspace
      refine ⟨space ++ ['t', 'r', 'u', 'e'], by simp, by simp, fun k s hk _ => ?_⟩
      obtain ⟨k, rfl⟩ := exists_succ hk (by simp)
      rw [List.append_assoc, hd]
      exact read?_true (hskip _) k
    | no hspace hd =>
      obtain ⟨space, rfl, hskip⟩ := skipSpace_eq_cons hspace
      refine ⟨space ++ ['f', 'a', 'l', 's', 'e'], by simp, by simp, fun k s hk _ => ?_⟩
      obtain ⟨k, rfl⟩ := exists_succ hk (by simp)
      rw [List.append_assoc, hd]
      exact read?_false (hskip _) k
    | @num l hread hd =>
      obtain ⟨x, rest, hspace, hx⟩ := Literal.head_of_read? hread
      have hlt := Literal.length_lt_of_read? hread
      obtain ⟨space, rfl, hskip⟩ := skipSpace_eq_cons hspace
      rw [hspace] at hread hlt
      obtain ⟨c, hsplit, hc⟩ := Literal.local_read? _ l r hread
      -- a number reads one character at least
      cases c with
      | nil =>
        rw [hsplit] at hlt
        exact absurd hlt (Nat.lt_irrefl _)
      | cons y c =>
        obtain ⟨rfl, rfl⟩ := List.cons.inj hsplit
        refine ⟨space ++ x :: c, by simp, by simp, fun k s hk hs => ?_⟩
        obtain ⟨k, rfl⟩ := exists_succ hk (by simp)
        have hagain : Literal.read? (x :: (c ++ s)) = some (l, s) := hc s hs
        rw [List.append_assoc, List.cons_append, read?_num (hskip _) hx k, hagain, hd]
        rfl

/-- An object is read again from its brackets and what stands between them, whatever comes next and
whatever space stands before. -/
theorem again_read?_obj {n : Nat} {cs : List Char} {ms : List (Option String × Document)}
    {r : List Char} (h : read? n cs = some (.obj ms, r)) :
    ∃ space c, (∀ x ∈ space, isSpace x = true) ∧ cs = space ++ '\x7b' :: (c ++ '\x7d' :: r) ∧
      ∀ space' k s, (∀ x ∈ space', isSpace x = true) → c.length < k →
        read? k (space' ++ '\x7b' :: (c ++ '\x7d' :: s)) = some (.obj ms, s) := by
  cases n with
  | zero => cases h
  | succ n =>
    cases begins_of_read? h with
    | @obj rest ms' hspace hread hd =>
      obtain rfl := Document.obj.inj hd
      obtain ⟨c, rfl, hc⟩ := again_items (again_member? (again_read? n)) (by decide) hread
      refine ⟨cs.takeWhile isSpace, c, List.all_eq_true.1 List.all_takeWhile, ?_, ?_⟩
      · rw [← hspace]
        exact List.takeWhile_append_dropWhile.symm
      · intro space' k s hspace' hk
        obtain ⟨k, rfl⟩ : ∃ k', k = k' + 1 := ⟨k - 1, by omega⟩
        have hskip := skipSpace_append_cons hspace' (x := '\x7b') (by decide) (c ++ '\x7d' :: s)
        rw [read?_obj hskip k, hc k k s (by omega) (by omega)]
        rfl
    | str _ _ hd => cases hd
    | arr _ _ hd => cases hd
    | null _ hd => cases hd
    | yes _ hd => cases hd
    | no _ hd => cases hd
    | num _ hd => cases hd

/-! ## Whole texts -/

/-- A text spells an object if it has its brackets, what stands between them, and space. -/
lemma exists_of_ofText?_obj {t : String} {ms : List (Option String × Document)}
    (h : ofText? t = some (.obj ms)) :
    ∃ space c r, t.toList = space ++ '\x7b' :: (c ++ '\x7d' :: r) ∧
      (∀ x ∈ space, isSpace x = true) ∧ (∀ x ∈ r, isSpace x = true) ∧
      ∀ space' k s, (∀ x ∈ space', isSpace x = true) → c.length < k →
        read? k (space' ++ '\x7b' :: (c ++ '\x7d' :: s)) = some (.obj ms, s) := by
  unfold ofText? at h
  split at h
  · next d r hread =>
    split at h
    · next hend =>
      obtain rfl := Option.some.inj h
      obtain ⟨space, c, hspace, hsplit, hagain⟩ := again_read?_obj hread
      refine ⟨space, c, r, hsplit, hspace, ?_, hagain⟩
      intro x hx
      rw [skipSpace_eq, List.dropWhile_eq_nil_iff] at hend
      exact hend x hx
    · cases h
  · cases h

lemma isBlank_of_isSpace {x : Char} (h : isSpace x = true) : Text.isBlank x = true := by
  simp only [isSpace, decide_eq_true_eq] at h
  rcases h with rfl | rfl | rfl | rfl <;> decide

/-- An object is read from a text as from the text without the blanks around it. -/
theorem ofText?_trim {t : String} {ms : List (Option String × Document)}
    (h : ofText? t = some (.obj ms)) : ofText? (Text.trim t) = some (.obj ms) := by
  obtain ⟨space, c, r, hsplit, hspace, hr, hagain⟩ := exists_of_ofText?_obj h
  have hleft : Text.trimLeft t.toList = '\x7b' :: (c ++ '\x7d' :: r) := by
    rw [Text.trimLeft, hsplit,
      List.dropWhile_append_of_pos fun x hx => isBlank_of_isSpace (hspace x hx)]
    rfl
  have htrim : Text.trimChars t.toList = '\x7b' :: (c ++ ['\x7d']) := by
    have hreverse : ('\x7b' :: (c ++ '\x7d' :: r)).reverse =
        r.reverse ++ '\x7d' :: ('\x7b' :: c).reverse := by simp
    rw [Text.trimChars, hleft, Text.trimRight, hreverse, List.dropWhile_append_of_pos fun x hx =>
      isBlank_of_isSpace (hr x (List.mem_reverse.1 hx)),
      List.dropWhile_cons_of_neg (by decide)]
    simp
  have hread := hagain [] (('\x7b' :: (c ++ ['\x7d'])).length + 1) [] (by simp) (by simp; omega)
  rw [List.nil_append] at hread
  unfold ofText? Text.trim
  rw [htrim, String.toList_ofList, hread]
  rfl

/-- A text that spells an object, put into the text of a frame, spells the frame. -/
theorem ofText?_framed {t : String} {ms : List (Option String × Document)}
    (h : ofText? t = some (.obj ms)) :
    ofText? ("\x7b\x22type\x22:\x22sync\x22,\x22data\x22:" ++ t ++ "\x7d") =
      some (.obj [(some "type", .str (some "sync")), (some "data", .obj ms)]) := by
  obtain ⟨space, c, r, hsplit, hspace, hr, hagain⟩ := exists_of_ofText?_obj h
  let inner := space ++ '\x7b' :: (c ++ '\x7d' :: (r ++ ['\x7d']))
  let second := '\x22' :: 'd' :: 'a' :: 't' :: 'a' :: '\x22' :: ':' :: inner
  let value := '\x22' :: 's' :: 'y' :: 'n' :: 'c' :: '\x22' :: ',' :: second
  let first := '\x22' :: 't' :: 'y' :: 'p' :: 'e' :: '\x22' :: ':' :: value
  have htext : ("\x7b\x22type\x22:\x22sync\x22,\x22data\x22:" ++ t ++ "\x7d").toList =
      '\x7b' :: first := by
    simp [first, value, second, inner, hsplit]
  obtain ⟨n, hn⟩ : ∃ n, ('\x7b' :: first).length = n + 2 := ⟨first.length - 1, rfl⟩
  -- the length of the whole text is fuel enough for the object in it
  have hlen : c.length < n + 2 := by
    rw [← hn]
    simp only [first, value, second, inner, List.length_cons, List.length_append]
    omega
  have htype : member? (read? (n + 2)) first =
      some ((some "type", .str (some "sync")), ',' :: second) := by
    have hname : quoted? ('t' :: 'y' :: 'p' :: 'e' :: '\x22' :: ':' :: value) =
        some (some "type", ':' :: value) := rfl
    have hvalue : quoted? ('s' :: 'y' :: 'n' :: 'c' :: '\x22' :: ',' :: second) =
        some (some "sync", ',' :: second) := rfl
    rw [member?_eq rfl hname rfl, read?_quote rfl (n + 1), hvalue]
    rfl
  have hdata : member? (read? (n + 2)) second = some ((some "data", .obj ms), r ++ ['\x7d']) := by
    have hname : quoted? ('d' :: 'a' :: 't' :: 'a' :: '\x22' :: ':' :: inner) =
        some (some "data", ':' :: inner) := rfl
    rw [member?_eq rfl hname rfl, hagain space (n + 2) (r ++ ['\x7d']) hspace hlen]
    rfl
  have hend : skipSpace (r ++ ['\x7d']) = ['\x7d'] := skipSpace_append_cons hr (by decide) []
  have hitems : items '\x7d' (member? (read? (n + 2))) (n + 2) first =
      some ([(some "type", .str (some "sync")), (some "data", .obj ms)], []) := by
    have hsome : items '\x7d' (member? (read? (n + 2))) (n + 2) first =
        someItems '\x7d' (member? (read? (n + 2))) (n + 2) first := rfl
    rw [hsome, someItems_more htype rfl (n + 1), someItems_last (by decide) hdata hend n]
    rfl
  have hread : read? (n + 3) ('\x7b' :: first) =
      some (.obj [(some "type", .str (some "sync")), (some "data", .obj ms)], []) := by
    rw [read?_obj rfl (n + 2), hitems]
    rfl
  unfold ofText?
  rw [htext, hn, hread]
  rfl

end Document

end TraceTimeline
