import TraceTimeline.Proofs.Json.Nesting

/-!
# The numbers in a text

The numbers in a document that was read are those of literals, and a literal denotes a whole number
of the 64-bit ranges, a double or nothing (`Literal.whole_or_float`).  So a text in which no number
is read as a double (`Document.DoubleFree`) denotes a value of whole numbers
(`Document.whole_of_value?`).
-/

namespace TraceTimeline

namespace Literal

/-! ## Literals -/

/-- Digits are gathered into a 64-bit number. -/
lemma gather_lt {n : Nat} (h : n < UInt64.size) (cs : List Char) :
    (gather n cs).1 < UInt64.size := by
  induction cs generalizing n with
  | nil => exact h
  | cons c cs ih =>
    rw [gather]
    split
    · next hnext => exact ih hnext
    · exact h

/-- A literal denotes a whole number or a double, if anything. -/
theorem whole_or_float {l : Literal} {x : Number} (h : l.value? = some x) :
    x.Whole ∨ ∃ y, x = .float y := by
  -- the digits that were gathered fit, whether or not there were more of them
  have hhead : (gather 0 l.whole).1 < UInt64.size := gather_lt (by decide) l.whole
  unfold value? at h
  dsimp only at h
  split at h
  · split at h
    · obtain ⟨y, -, rfl⟩ := Option.map_eq_some_iff.1 h
      exact .inr ⟨_, rfl⟩
    · split at h
      · obtain rfl := Option.some.inj h
        refine .inl ⟨?_, ?_⟩
        · omega
        · exact Int.ofNat_lt.2 hhead
      · split at h
        · next hnegative =>
          obtain rfl := Option.some.inj h
          have hsigned := hnegative.2
          simp only [Text.isSigned64, Bool.and_eq_true, decide_eq_true_eq] at hsigned
          exact .inl ⟨hsigned.1, by omega⟩
        · obtain rfl := Option.some.inj h
          exact .inr ⟨_, rfl⟩
  · obtain ⟨y, -, rfl⟩ := Option.map_eq_some_iff.1 h
    exact .inr ⟨_, rfl⟩

end Literal

namespace Document

/-! ## Documents -/

/-- What every number in a document denotes, if anything, has a property. -/
inductive Numbers (P : Option Number → Prop) : Document → Prop where
  | null : Numbers P .null
  | bool (b : Bool) : Numbers P (.bool b)
  | num {x : Option Number} (h : P x) : Numbers P (.num x)
  | str (s : Option String) : Numbers P (.str s)
  | arr {items : List Document} (h : ∀ d ∈ items, Numbers P d) : Numbers P (.arr items)
  | obj {members : List (Option String × Document)} (h : ∀ m ∈ members, Numbers P m.2) :
    Numbers P (.obj members)

/-- No number in a document is read as a double. -/
def DoubleFree (d : Document) : Prop := d.Numbers fun x => ∀ y, x ≠ some (.float y)

/-- What follows of every number from two properties that they have holds of all. -/
lemma Numbers.imp₂ {P Q R : Option Number → Prop} {d : Document} (hp : d.Numbers P)
    (hq : d.Numbers Q) (h : ∀ x, P x → Q x → R x) : d.Numbers R := by
  induction hp with
  | null => exact .null
  | bool b => exact .bool b
  | num hx =>
    cases hq with
    | num hx' => exact .num (h _ hx hx')
  | str s => exact .str s
  | arr _ ih =>
    cases hq with
    | arr hitems => exact .arr fun d hd => ih d hd (hitems d hd)
  | obj _ ih =>
    cases hq with
    | obj hmembers => exact .obj fun m hm => ih m hm (hmembers m hm)

/-- What is in the second of two lists belongs to something in the first. -/
lemma exists_left_of_forall₂ {α β : Type} {R : α → β → Prop} {as : List α} {bs : List β}
    (h : List.Forall₂ R as bs) {b : β} (hb : b ∈ bs) : ∃ a ∈ as, R a b := by
  induction h with
  | nil => cases hb
  | @cons a b' as bs hab _ ih =>
    rcases List.mem_cons.1 hb with rfl | hb
    · exact ⟨a, List.mem_cons_self .., hab⟩
    · obtain ⟨a', ha', hrel⟩ := ih hb
      exact ⟨a', List.mem_cons_of_mem _ ha', hrel⟩

section

variable {α : Type} {item : List Char → Option (α × List Char)} {closing : Char} {Q : α → Prop}

/-- What every item has that can be read, all items have. -/
lemma forall_of_someItems (hitem : ∀ cs x r, item cs = some (x, r) → Q x) {n : Nat}
    {cs : List Char} {xs : List α} {r : List Char}
    (h : someItems closing item n cs = some (xs, r)) : ∀ x ∈ xs, Q x := by
  induction n generalizing cs xs with
  | zero => cases h
  | succ n ih =>
    obtain ⟨x, cs', hx, ⟨rest, xs', -, hrest, rfl⟩ | ⟨-, -, rfl⟩⟩ := someItems_cases h
    · exact List.forall_mem_cons.2 ⟨hitem cs x cs' hx, ih hrest⟩
    · exact List.forall_mem_singleton.2 (hitem cs x cs' hx)

/-- So do the items between brackets. -/
lemma forall_of_items (hitem : ∀ cs x r, item cs = some (x, r) → Q x) {n : Nat}
    {cs : List Char} {xs : List α} {r : List Char}
    (h : items closing item n cs = some (xs, r)) : ∀ x ∈ xs, Q x := by
  unfold items at h
  split at h
  · cases h
  · split at h
    · obtain ⟨rfl, rfl⟩ := Prod.mk.inj (Option.some.inj h)
      exact List.forall_mem_nil _
    · exact forall_of_someItems hitem h

end

/-- The numbers in a document that was read are those of literals. -/
theorem numbers_of_read? {n : Nat} {cs : List Char} {d : Document} {r : List Char}
    (h : read? n cs = some (d, r)) : d.Numbers fun x => ∃ l : Literal, l.value? = x := by
  induction n generalizing cs d r with
  | zero => cases h
  | succ n ih =>
    cases begins_of_read? h with
    | str _ _ hd => exact hd ▸ .str _
    | arr _ hread hd => exact hd ▸ .arr (forall_of_items (fun _ _ _ => ih) hread)
    | obj _ hread hd =>
      refine hd ▸ .obj (forall_of_items (fun cs m r hm => ?_) hread)
      obtain ⟨_, _, _, -, -, -, hpart⟩ := member?_cases hm
      exact ih hpart
    | null _ hd => exact hd ▸ .null
    | yes _ hd => exact hd ▸ .bool true
    | no _ hd => exact hd ▸ .bool false
    | num _ hd => exact hd ▸ .num ⟨_, rfl⟩

/-- The numbers in a text are whole, unless one is read as a double. -/
theorem numbers_of_ofText? {t : String} {d : Document} (h : ofText? t = some d)
    (hfree : d.DoubleFree) : d.Numbers fun x => ∀ y ∈ x, y.Whole := by
  have hliteral : d.Numbers fun x => ∃ l : Literal, l.value? = x := by
    unfold ofText? at h
    split at h
    · next hread =>
      obtain ⟨-, hd⟩ := Option.ite_none_right_eq_some.1 h
      obtain rfl := Option.some.inj hd
      exact numbers_of_read? hread
    · cases h
  refine hliteral.imp₂ hfree ?_
  rintro _ ⟨l, rfl⟩ hfloat y hy
  rcases Literal.whole_or_float hy with hwhole | ⟨z, rfl⟩
  · exact hwhole
  · exact absurd hy (hfloat z)

/-- A document whose numbers are whole denotes a value of whole numbers. -/
theorem whole_of_value? {d : Document} (h : d.Numbers fun x => ∀ y ∈ x, y.Whole) {room : Nat}
    {v : Json} (hv : d.value? room = some v) : v.Whole := by
  induction h generalizing room v with
  | null =>
    obtain rfl := Option.some.inj hv
    trivial
  | bool b =>
    obtain rfl := Option.some.inj hv
    trivial
  | num hx =>
    obtain ⟨y, hy, rfl⟩ := Option.map_eq_some_iff.1 hv
    exact hx y hy
  | str s =>
    obtain ⟨s, -, rfl⟩ := Option.map_eq_some_iff.1 hv
    trivial
  | arr _ ih =>
    cases room with
    | zero => cases hv
    | succ room =>
      rw [value?] at hv
      obtain ⟨vs, hvs, rfl⟩ := Option.map_eq_some_iff.1 hv
      refine Json.wholeItems_iff.2 fun v hmem => ?_
      obtain ⟨d, hd, hvalue⟩ := exists_left_of_forall₂ (forall₂_itemValues? hvs) hmem
      exact ih d hd hvalue
  | obj _ ih =>
    cases room with
    | zero => cases hv
    | succ room =>
      rw [value?] at hv
      obtain ⟨ms, hms, rfl⟩ := Option.map_eq_some_iff.1 hv
      obtain ⟨ms', hobject, -, hsub⟩ := Json.exists_object_eq ms
      rw [hobject]
      refine Json.wholeMembers_iff.2 fun m hmem => ?_
      obtain ⟨n, hn, -, hvalue⟩ := exists_left_of_forall₂ (forall₂_memberValues? hms) (hsub m hmem)
      exact ih n hn hvalue

mutual

/-- The document of a value of whole numbers has no doubles. -/
theorem doubleFree_document : (v : Json) → v.Whole → v.document.DoubleFree
  | .null, _ => .null
  | .bool b, _ => .bool b
  | .num (.int _), _ => .num nofun
  | .num (.float _), h => h.elim
  | .str s, _ => .str s
  | .arr items, h => .arr (doubleFree_documents items h)
  | .obj members, h => .obj (doubleFree_memberDocuments members h)

theorem doubleFree_documents : (vs : List Json) → Json.WholeItems vs →
    ∀ d ∈ Json.documents vs, d.DoubleFree
  | [], _ => List.forall_mem_nil _
  | v :: rest, h =>
    List.forall_mem_cons.2 ⟨doubleFree_document v h.1, doubleFree_documents rest h.2⟩

theorem doubleFree_memberDocuments : (ms : List (String × Json)) → Json.WholeMembers ms →
    ∀ m ∈ Json.memberDocuments ms, m.2.DoubleFree
  | [], _ => List.forall_mem_nil _
  | (_, v) :: rest, h =>
    List.forall_mem_cons.2 ⟨doubleFree_document v h.1, doubleFree_memberDocuments rest h.2⟩

end

end Document

end TraceTimeline
