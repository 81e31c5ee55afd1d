import TraceTimeline.Proofs.Json.Nesting
import TraceTimeline.Proofs.Json.Parts
import TraceTimeline.Proofs.Step.Record
import TraceTimeline.Proofs.Text.Blank

/-!
# The encodings of a diff

A diff comes as an object or as a text that spells one, with blanks around it, and both are read to
the same diff (`Diff.ofJson_surrounded`).  Every other value is the empty diff
(`Diff.ofJson_ne_none_iff`), so no value is wrong in the place of a diff: a step in which a diff is
replaced is the step with the other diff, and where there was no step there is none after it
(`Step.ofSource?_replaced`).
-/

namespace TraceTimeline

open Text (AllBlank)

/-! ## Texts that spell an object -/

/-- An object is read from a text with blanks around it, once these are cut off. -/
lemma Json.ofText?_trim_surrounded {t : String} {ms : List (String × Json)}
    (h : ofText? t = some (.obj ms)) {before after : String} (hbefore : AllBlank before)
    (hafter : AllBlank after) :
    ofText? (Text.trim (before ++ t ++ after)) = some (.obj ms) := by
  obtain ⟨d, hd, hvalue⟩ := Option.bind_eq_some_iff.1 h
  obtain ⟨members, rfl⟩ := Document.value?_cases hvalue
  rw [Text.trim_surrounded hbefore hafter, ofText?, Document.ofText?_trim hd, Option.bind_some,
    hvalue]

namespace Diff

/-! ## What a value is read to -/

lemma ofJson_str {s : String} {ms : List (String × Json)}
    (h : Json.ofText? (Text.trim s) = some (.obj ms)) : ofJson (.str s) = ofJson (.obj ms) := by
  simp only [ofJson, h]

/-- A text that spells an object is the diff of the object, whatever blanks are around it. -/
theorem ofJson_surrounded {t : String} {ms : List (String × Json)}
    (h : Json.ofText? t = some (.obj ms)) {before after : String} (hbefore : AllBlank before)
    (hafter : AllBlank after) : ofJson (.str (before ++ t ++ after)) = ofJson (.obj ms) :=
  ofJson_str (Json.ofText?_trim_surrounded h hbefore hafter)

lemma ofMembers_eq_none_iff {ms : List (String × Json)} : ofMembers ms = Diff.none ↔ ms = [] := by
  rw [ofMembers, Diff.none, OrderedMap.ofList_eq_empty_iff, List.map_eq_nil_iff]

/-- A diff is not empty exactly if it comes from an object that is not, or from a text that spells
one. -/
theorem ofJson_ne_none_iff {v : Json} :
    ofJson v ≠ Diff.none ↔ ∃ ms, ms ≠ [] ∧
      (v = .obj ms ∨ ∃ s, v = .str s ∧ Json.ofText? (Text.trim s) = some (.obj ms)) := by
  constructor
  · intro h
    unfold ofJson at h
    split at h
    · next ms => exact ⟨ms, fun hms => h (ofMembers_eq_none_iff.2 hms), .inl rfl⟩
    · next s =>
      split at h
      · next ms htext =>
        exact ⟨ms, fun hms => h (ofMembers_eq_none_iff.2 hms), .inr ⟨s, rfl, htext⟩⟩
      · exact absurd rfl h
    · exact absurd rfl h
  · rintro ⟨ms, hms, rfl | ⟨s, rfl, htext⟩⟩ hnone
    · exact hms (ofMembers_eq_none_iff.1 hnone)
    · rw [ofJson_str htext] at hnone
      exact hms (ofMembers_eq_none_iff.1 hnone)

end Diff

namespace Step

/-! ## Steps with another diff -/

variable {α : Type} [Source α]

lemma apart_globals : globalsField.Apart localsField ∧
    ∀ f ∈ plainFields, globalsField.Apart f := by
  decide

lemma apart_locals : localsField.Apart globalsField ∧
    ∀ f ∈ plainFields, localsField.Apart f := by
  decide

/-- Where the change of the global variables is replaced, the step with the other change is read. -/
lemma ReadFrom.withGlobals {s : Step} {r r' : Record α} (h : s.ReadFrom r) {x y : Option α}
    (hr : Record.Replaced globalsField x y r r') {d : Diff}
    (hy : y.elim (some Diff.none) readDiff? = some d) : (s.withGlobals d).ReadFrom r' :=
  have hlocals := Record.optional?_congr (hr.same localsField apart_globals.1) Diff.none readDiff?
  h.withDiffs (fun f hf => hr.same f (apart_globals.2 f hf)) ((hr.optional? h.globals).trans hy)
    (hlocals.trans h.locals)

lemma ReadFrom.withLocals {s : Step} {r r' : Record α} (h : s.ReadFrom r) {x y : Option α}
    (hr : Record.Replaced localsField x y r r') {d : Diff}
    (hy : y.elim (some Diff.none) readDiff? = some d) : (s.withLocals d).ReadFrom r' :=
  have hglobals := Record.optional?_congr (hr.same globalsField apart_locals.1) Diff.none readDiff?
  h.withDiffs (fun f hf => hr.same f (apart_locals.2 f hf)) (hglobals.trans h.globals)
    ((hr.optional? h.locals).trans hy)

/-- The part that was there before a diff was replaced, if there was one, is read as some diff. -/
lemma exists_diff_of_forall {x : Option α} (h : ∀ z ∈ x, ∃ v, Source.value? z = some v) :
    ∃ d, x.elim (some Diff.none) readDiff? = some d := by
  cases x with
  | none => exact ⟨_, rfl⟩
  | some z =>
    obtain ⟨v, hv⟩ := h z rfl
    exact ⟨_, Option.map_eq_some_iff.2 ⟨v, hv, rfl⟩⟩

section

variable {f : Field} {set : Step → Diff → Step}
  (hset : ∀ {s : Step} {r r' : Record α}, s.ReadFrom r → ∀ {x y : Option α},
    Record.Replaced f x y r r' → ∀ {d : Diff}, y.elim (some Diff.none) readDiff? = some d →
      (set s d).ReadFrom r')

include hset

/-- If a diff can be replaced in the record of every step, a step that is read before its part is
replaced is read after that, with the other diff. -/
lemma ofSource?_of_replaced {x y : Option α} {a b : α}
    (hrel : Option.Rel (Record.Replaced f x y) (Record.of? fields.length a)
      (Record.of? fields.length b))
    {d : Diff} (hy : y.elim (some Diff.none) readDiff? = some d) {s : Step}
    (hs : ofSource? a = some s) : ofSource? b = some (set s d) := by
  obtain ⟨r, hr, hread⟩ := ofSource?_eq_some_iff.1 hs
  rw [hr] at hrel
  generalize hr' : Record.of? fields.length b = found at hrel
  cases hrel with
  | some hrecord => exact ofSource?_eq_some_iff.2 ⟨_, hr', hset hread hrecord hy⟩

/-- Replacing its part comes to replacing what is read from it then, and a step is read after it
exactly if one was read before: the part that was there can be put back. -/
theorem ofSource?_replaced {x : Option α} {y a b : α} (h : f.Replaced x y a b)
    (hold : ∀ z ∈ x, ∃ v, Source.value? z = some v) {new : Json}
    (hnew : Source.value? y = some new) :
    ofSource? b = (ofSource? a).map (set · (Diff.ofJson new)) := by
  have hrel := h.of? fields.length
  have hback := Record.rel_replaced_symm hrel
  obtain ⟨old, hx⟩ := exists_diff_of_forall hold
  have hy : (some y).elim (some Diff.none) readDiff? = some (Diff.ofJson new) :=
    Option.map_eq_some_iff.2 ⟨new, hnew, rfl⟩
  refine Option.ext fun t => ?_
  rw [Option.map_eq_some_iff]
  constructor
  · intro ht
    have hs := ofSource?_of_replaced hset hback hx ht
    have hagain := ofSource?_of_replaced hset hrel hy hs
    exact ⟨_, hs, Option.some.inj (hagain.symm.trans ht)⟩
  · rintro ⟨s, hs, rfl⟩
    exact ofSource?_of_replaced hset hrel hy hs

end

end Step

namespace Diff

/-- The two encodings of a diff agree, and no diff does harm to its step.

* A text that spells an object is read to the same diff as the object, whatever blanks are around
  it.  The compact text of an object of whole numbers, in the order of its names, spells the object
  as far as the limit to nesting allows.
* The diff is empty for all values but objects that are not empty and texts that spell such an
  object once they are trimmed; a text that spells a text is not taken apart again.
* Where one of the diffs of a step is given, in a value or in a text, under any of its names or at
  its place in a list, any other value may stand there, and where it is missing any value may be
  added: a step is read then if one was read before, and it is that step but for this diff. -/
theorem encodings_agree :
    (∀ (t : String) (ms : List (String × Json)), Json.ofText? t = some (.obj ms) →
      ∀ before after : String, AllBlank before → AllBlank after →
        ofJson (.str (before ++ t ++ after)) = ofJson (.obj ms)) ∧
    (∀ o : Json, o.Whole → o.Ordered →
      (Json.ofText? o.compact = some o ↔ o.nesting ≤ Document.nestingLimit)) ∧
    (∀ v : Json, ofJson v ≠ Diff.none ↔ ∃ ms, ms ≠ [] ∧
      (v = .obj ms ∨ ∃ s, v = .str s ∧ Json.ofText? (Text.trim s) = some (.obj ms))) ∧
    (∀ s t : String, Json.ofText? (Text.trim s) = some (.str t) → ofJson (.str s) = Diff.none) ∧
    ∀ (α : Type) [Source α] (x : Option α) (y a b : α) (new : Json),
      (∀ z ∈ x, ∃ old, Source.value? z = some old) → Source.value? y = some new →
      (Step.globalsField.Replaced x y a b →
        Step.ofSource? b = (Step.ofSource? a).map fun s => { s with globals := ofJson new }) ∧
      (Step.localsField.Replaced x y a b →
        Step.ofSource? b = (Step.ofSource? a).map fun s => { s with locals := ofJson new }) := by
  refine ⟨fun t ms h before after hbefore hafter => ofJson_surrounded h hbefore hafter,
    fun o hwhole hordered => Json.ofText?_compact hwhole hordered,
    fun v => ofJson_ne_none_iff, fun s t h => ?_, fun α _ x y a b new hold hnew => ⟨?_, ?_⟩⟩
  · by_contra hne
    -- only an object and the text of an object make a diff that is not empty
    obtain ⟨ms, -, hv | ⟨s', hv, htext⟩⟩ := ofJson_ne_none_iff.1 hne
    · cases hv
    · obtain rfl := Json.str.inj hv
      rw [h] at htext
      cases htext
  · exact fun h => Step.ofSource?_replaced Step.ReadFrom.withGlobals h hold hnew
  · exact fun h => Step.ofSource?_replaced Step.ReadFrom.withLocals h hold hnew

/-- A diff with a removal and a `null`, as a text between blanks that are no space in a JSON text,
put into a step in the place of a number. -/
theorem encodings_agree_between_blanks :
    let o : Json := .obj [("x", .str "<deleted>"), ("y", .null)]
    let text := "\x7b\x22x\x22:\x22<deleted>\x22,\x22y\x22:null\x7d"
    let given : Json := .str ("\u00a0\n" ++ text ++ " \u3000")
    Json.ofText? text = some o ∧ ofJson given = ofJson o ∧ ofJson o ≠ Diff.none ∧
      Step.ofJson? (.obj [("id", .nat 1), ("globalsDiff", .nat 7)]) = some (Step.ofKind 1 .other) ∧
      Step.ofJson? (.obj [("id", .nat 1), ("globalsDiff", given)]) =
        some { Step.ofKind 1 .other with globals := (Diff.none.delete "x").set "y" .null } := by
  intro o text given
  have htext : Json.ofText? text = some o := by decide +kernel
  have hbefore : AllBlank "\u00a0\n" := by decide +kernel
  have hafter : AllBlank " \u3000" := by decide +kernel
  have hnumber : Step.ofJson? (.obj [("id", .nat 1), ("globalsDiff", .nat 7)]) =
      some (Step.ofKind 1 .other) := by
    decide +kernel
  have hsame : ofJson given = ofJson o :=
    encodings_agree.1 text _ htext "\u00a0\n" " \u3000" hbefore hafter
  have hsome : ofJson o ≠ Diff.none :=
    (encodings_agree.2.2.1 o).2 ⟨_, List.cons_ne_nil _ _, .inl rfl⟩
  have hreplaced : Step.globalsField.Replaced (some (.nat 7)) given
      (.obj [("id", .nat 1), ("globalsDiff", .nat 7)])
      (.obj [("id", .nat 1), ("globalsDiff", given)]) :=
    .member [("id", .nat 1)] [] (by decide) rfl rfl
  have hstep := (encodings_agree.2.2.2.2 Json _ _ _ _ _ (fun z _ => ⟨z, rfl⟩) rfl).1 hreplaced
  refine ⟨htext, hsame, hsome, hnumber, hstep.trans ?_⟩
  have hread : Step.ofSource? (Json.obj [("id", .nat 1), ("globalsDiff", .nat 7)]) =
      some (Step.ofKind 1 .other) := hnumber
  rw [hread, hsame]
  decide +kernel

end Diff

end TraceTimeline
