import Mathlib
import TraceTimeline.Json.Printer
import TraceTimeline.Proofs.Json.Alike

/-!
# Values with a part exchanged

Two values that differ in one part: the part of a record for a field (`Field.Exchanged`), or an item
of a list (`Json.ItemExchanged`).  Such relations are put together to say where in a nested record
the difference is.  A reader that agrees on the parts agrees on the values: a record with one part
exchanged has the same parts for all other fields (`Record.Exchanged`).

The differences at the bottom are two: a whole number stands for its decimal text (`Json.Numeral`),
and a list has one gap more (`Json.GapInserted`).
-/

namespace TraceTimeline

variable {γ : Type}

/-! ## Differences -/

/-- A whole number in the place of its decimal text. -/
inductive Json.Numeral : Json → Json → Prop where
  | intro (n : Int) : Numeral (.str (toString n)) (.num (.int n))

/-- A list with `null` inserted somewhere. -/
inductive Json.GapInserted : Json → Json → Prop where
  | intro (before after : List Json) :
      GapInserted (.arr (before ++ after)) (.arr (before ++ .null :: after))

/-- Lists that differ in one item, whose values there are related. -/
inductive Json.ItemExchanged (R : Json → Json → Prop) : Json → Json → Prop where
  | intro {v w : Json} (before after : List Json) (h : R v w) :
      ItemExchanged R (.arr (before ++ v :: after)) (.arr (before ++ w :: after))

/-- Records that differ in the part for a field, which is a member of an object under one of the
names of the field, or the item of a list at its position. -/
inductive Field.Exchanged (f : Field) (R : Json → Json → Prop) : Json → Json → Prop where
  | member {name : String} {v w : Json} (before after : List (String × Json))
      (hname : name ∈ f.names) (h : R v w) :
      f.Exchanged R (.obj (before ++ (name, v) :: after)) (.obj (before ++ (name, w) :: after))
  | item {v w : Json} (before after : List Json) (hplace : before.length = f.position)
      (h : R v w) : f.Exchanged R (.arr (before ++ v :: after)) (.arr (before ++ w :: after))

/-- Two fields have neither a name nor their position in common. -/
def Field.Apart (f g : Field) : Prop :=
  (∀ name ∈ f.names, name ∉ g.names) ∧ f.position ≠ g.position

instance (f g : Field) : Decidable (f.Apart g) :=
  inferInstanceAs (Decidable ((∀ name ∈ f.names, name ∉ g.names) ∧ f.position ≠ g.position))

/-! ## Records with one part exchanged -/

lemma Agree.reflGen {α : Type} {R : α → α → Prop} {read : α → Option γ} (h : Agree R read read) :
    Agree (Relation.ReflGen R) read read := by
  intro a b hab
  cases hab with
  | refl => rfl
  | single hab => exact h hab

namespace Record

/-- Records in which the parts for a field are related, and the same for all other fields. -/
structure Exchanged (f : Field) (R : Json → Json → Prop) (r r' : Record Json) : Prop where
  alike : Alike (Relation.ReflGen R) r r'
  same : ∀ g, f.Apart g → r.part? g = r'.part? g

namespace Exchanged

variable {f : Field} {R : Json → Json → Prop} {r r' : Record Json} {read : Json → Option γ}

lemma required? (h : Exchanged f R r r') (hread : Agree R read read) :
    r.required? f read = r'.required? f read :=
  h.alike.required? f hread.reflGen

lemma optional? (h : Exchanged f R r r') (missing : γ) (hread : Agree R read read) :
    r.optional? f missing read = r'.optional? f missing read :=
  h.alike.optional? f missing hread.reflGen

lemma required?_of_apart (h : Exchanged f R r r') (g : Field) (hg : f.Apart g)
    (read : Json → Option γ) : r.required? g read = r'.required? g read := by
  rw [Record.required?, Record.required?, h.same g hg]

lemma optional?_of_apart (h : Exchanged f R r r') (g : Field) (hg : f.Apart g) (missing : γ)
    (read : Json → Option γ) : r.optional? g missing read = r'.optional? g missing read := by
  rw [Record.optional?, Record.optional?, h.same g hg]

end Exchanged

end Record

namespace Field.Exchanged

variable {f : Field} {R : Json → Json → Prop} {v w : Json}

lemma forall₂_around {α : Type} {S : α → α → Prop} (hS : ∀ a, S a a) (before after : List α)
    {a b : α} (h : S a b) : List.Forall₂ S (before ++ a :: after) (before ++ b :: after) := by
  have hsame (l : List α) : List.Forall₂ S l l := List.forall₂_same.2 fun a _ => hS a
  exact List.rel_append (hsame before) (.cons h (hsame after))

/-- Values that differ in the part for a field hold records that do. -/
lemma of? (h : f.Exchanged R v w) (arity : Nat) :
    Option.Rel (Record.Exchanged f R) (Record.of? arity v) (Record.of? arity w) := by
  cases h with
  | @member name v w before after hname h =>
    have hmembers : List.Forall₂ (fun m n => m.1 = n.1 ∧ Relation.ReflGen R m.2 n.2)
        (before ++ (name, v) :: after) (before ++ (name, w) :: after) :=
      forall₂_around (fun _ => ⟨rfl, .refl⟩) before after ⟨rfl, .single h⟩
    refine .some ⟨.named hmembers (.refl _), fun g hg => ?_⟩
    have hother : name ∉ g.names := hg.1 name hname
    simp [Record.part?, hother]
  | @item v w before after hplace h =>
    have hlen : (before ++ w :: after).length = (before ++ v :: after).length := by simp
    show Option.Rel _ (if (before ++ v :: after).length ≤ arity then _ else _)
      (if (before ++ w :: after).length ≤ arity then _ else _)
    rw [hlen]
    split
    · refine .some ⟨.listed (forall₂_around (fun _ => .refl) before after (.single h)),
        fun g hg => ?_⟩
      -- the other field stands before or behind the item that was exchanged
      have hne : g.position ≠ before.length := fun heq => hg.2 (hplace.symm.trans heq.symm)
      show some (before ++ v :: after)[g.position]? = some (before ++ w :: after)[g.position]?
      rcases Nat.lt_or_gt_of_ne hne with hlt | hgt
      · rw [List.getElem?_append_left hlt, List.getElem?_append_left hlt]
      · obtain ⟨n, hn⟩ : ∃ n, g.position - before.length = n + 1 :=
          ⟨g.position - before.length - 1, by omega⟩
        rw [List.getElem?_append_right hgt.le, List.getElem?_append_right hgt.le, hn]
        rfl
    · exact .none

lemma nullable? {read : Json → Option γ} (hread : Agree (f.Exchanged R) read read) :
    Agree (f.Exchanged R) (Source.nullable? read) (Source.nullable? read) := by
  intro v w h
  have hvw := hread h
  cases h <;> exact congrArg (Option.map some) hvw

end Field.Exchanged

/-! ## What agrees on the differences -/

namespace Json

/-- A list of parts reads the same if the reader agrees on the part that differs. -/
lemma ItemExchanged.list? {R : Json → Json → Prop} {read : Json → Option γ}
    (hread : Agree R read read) :
    Agree (ItemExchanged R) (Source.list? read) (Source.list? read) := by
  intro v w h
  obtain ⟨before, after, h⟩ := h
  exact mapM_eq_of_agree hread.reflGen
    (Field.Exchanged.forall₂_around (fun _ => .refl) before after (.single h))

/-- The compact text of a whole number is its decimal text. -/
lemma compact_int (n : Int) : (Json.num (.int n)).compact = toString n := by
  cases n with
  | ofNat n => rfl
  | negSucc n =>
    show String.ofList ('-' :: Nat.toDigits 10 (n + 1)) = "-" ++ Nat.repr (n + 1)
    refine String.toList_inj.1 ?_
    simp [Nat.repr]

lemma Numeral.identifier? : Agree Numeral Source.identifier? Source.identifier? := by
  intro v w h
  obtain ⟨n⟩ := h
  show some (some (toString n)) = some (some (Json.num (.int n)).compact)
  rw [compact_int]

end Json

end TraceTimeline
