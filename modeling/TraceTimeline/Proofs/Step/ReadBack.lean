import TraceTimeline.Proofs.Json.Numbers
import TraceTimeline.Proofs.Json.Parts
import TraceTimeline.Proofs.Step.Alike
import TraceTimeline.Proofs.Step.Record
import TraceTimeline.Proofs.Step.Wire
import TraceTimeline.Proofs.Text.Blank

/-!
# The text of a step read back

A step that was read from a text is written as a text again, and the question is whether this text
is read back.  Numbers are, unless they are doubles.  What a text nests too deeply is not, and here
the two texts differ: a diff that was given as a text of its own stands in the text of the step as
an object, one level deeper.  `Step.wire_read_back` says that this is the only obstacle: the text of
the step is read back as the step unless a diff was given as a text that nests as deeply as a text
may.
-/

namespace TraceTimeline

/-! ## Parts and diffs -/

/-- A part of a record within a text has the room that is left, and numbers of the text. -/
lemma Nested.of_hasPart {f : Field} {d : Document} {x : Nested} (room : Nat)
    (h : f.HasPart (⟨d, room + 1⟩ : Nested) x) :
    x.room = room ∧ ∀ P, d.Numbers P → x.document.Numbers P := by
  cases h with
  | member ha _ hmem =>
    obtain ⟨known, rfl, rfl⟩ := layer?_eq_obj_iff.1 ha
    obtain ⟨m, hm, heq⟩ := List.mem_map.1 hmem
    obtain ⟨rfl, rfl⟩ := Prod.mk.inj heq
    refine ⟨rfl, fun P hP => ?_⟩
    cases hP with
    | obj hmembers => exact hmembers (some m.1, m.2) (List.mem_map_of_mem hm)
  | item ha hplace =>
    obtain ⟨items, rfl, rfl⟩ := layer?_eq_arr_iff.1 ha
    obtain ⟨d, hd, rfl⟩ := List.mem_map.1 (List.mem_of_getElem? hplace)
    refine ⟨rfl, fun P hP => ?_⟩
    cases hP with
    | arr hitems => exact hitems d hd

/-- The members of an object stand in its document with the documents of their values. -/
lemma Nested.layer?_document (ms : List (String × Json)) (room : Nat) :
    Source.layer? (⟨(Json.obj ms).document, room + 1⟩ : Nested) =
      some (.obj (ms.map fun m => (m.1, ⟨m.2.document, room⟩))) := by
  refine layer?_eq_obj_iff.2 ⟨ms.map fun m => (m.1, m.2.document), ?_, ?_⟩
  · rw [Json.document, Document.memberDocuments_eq, List.map_map]
    rfl
  · rw [List.map_map]
    rfl

/-- A change that was read is written as it was given. -/
lemma Change.toJson_ofJson (v : Json) : (ofJson v).toJson = v := by
  cases v with
  | str s =>
    by_cases hs : s = deletedMark
    · simp [ofJson, toJson, hs]
    · simp [ofJson, toJson, hs]
  | _ => rfl

namespace Diff

/-- A diff that was read from ordered members is written as these members. -/
lemma toJson_ofMembers {ms : List (String × Json)} (h : ms.Pairwise fun a b => a.1 < b.1) :
    (ofMembers ms).toJson = .obj ms := by
  have hchanges : (ms.map fun m => (m.1, Change.ofJson m.2)).Pairwise fun a b => a.1 < b.1 :=
    List.pairwise_map.2 h
  have hentries : (ofMembers ms).entries = ms.map fun m => (m.1, Change.ofJson m.2) :=
    congrArg OrderedMap.entries (OrderedMap.ofList_entries ⟨_, hchanges⟩)
  rw [toJson]
  simp [OrderedMap.mapValues, hentries, Function.comp_def, Change.toJson_ofJson]

/-- A diff that was read is written as the empty object, as the object that it was read from, or as
the one that is spelled by the text that it was read from. -/
lemma toJson_ofJson_cases {v : Json} (h : v.Ordered) :
    (ofJson v).toJson = .obj [] ∨ (∃ ms, v = .obj ms ∧ (ofJson v).toJson = v) ∨
      ∃ s ms, v = .str s ∧ Json.ofText? (Text.trim s) = some (.obj ms) ∧
        (ofJson v).toJson = .obj ms := by
  unfold ofJson
  split
  · next ms => exact .inr (.inl ⟨ms, rfl, toJson_ofMembers h.1⟩)
  · next s =>
    split
    · next ms htext =>
      obtain ⟨d, -, hd⟩ := Option.bind_eq_some_iff.1 htext
      exact .inr (.inr ⟨s, ms, rfl, htext, toJson_ofMembers (Document.value?_spec d _ hd).2.1⟩)
    · exact .inl rfl
  · exact .inl rfl

end Diff

namespace Step

/-! ## What a step is written with -/

/-- What numbers, texts and `null` have, and the diffs and the reported values of a step, all values
have that the step is written with. -/
lemma forall_members {P : Json → Prop} (hnull : P .null) (hnat : ∀ n < UInt64.size, P (.nat n))
    (hstr : ∀ text, P (.str text)) {s : Step} (hglobals : P s.globals.toJson)
    (hlocals : P s.locals.toJson) (hreturned : ∀ v, s.returned = .value v → P v)
    (herror : ∀ v, s.error = .value v → P v) : ∀ m ∈ s.members, P m.2 := by
  have htext (name : String) (o : Option String) : ∀ m ∈ textMember name o, P m.2 := by
    cases o with
    | none => exact List.forall_mem_nil _
    | some text => exact List.forall_mem_singleton.2 (hstr text)
  have hreport {β : Type} (name : String) (write : β → Json) (r : Reported β)
      (hr : ∀ b, r = .value b → P (write b)) : ∀ m ∈ reportMember name write r, P m.2 := by
    cases r with
    | absent => exact List.forall_mem_nil _
    | null => exact List.forall_mem_singleton.2 hnull
    | value b => exact List.forall_mem_singleton.2 (hr b rfl)
  have hline : P (.ofOption (fun n => .nat n.toNat) s.line) := by
    cases s.line with
    | none => exact hnull
    | some n => exact hnat _ (Nat.lt_trans n.toNat_lt_size (by decide))
  have hfirst : ∀ m ∈ [("id", Json.nat s.id.toNat), ("event", .str s.kind.name),
      ("line_number", .ofOption (fun n => .nat n.toNat) s.line)], P m.2 := by
    simp only [List.forall_mem_cons]
    exact ⟨hnat _ s.id.toNat_lt_size, hstr _, hline, List.forall_mem_nil _⟩
  have hdiffs : ∀ m ∈ [("global_diff", s.globals.toJson), ("local_diff", s.locals.toJson)],
      P m.2 := by
    simp only [List.forall_mem_cons]
    exact ⟨hglobals, hlocals, List.forall_mem_nil _⟩
  unfold members
  simp only [List.forall_mem_append]
  exact ⟨⟨⟨⟨⟨⟨⟨⟨⟨hfirst, htext _ _⟩, htext _ _⟩, htext _ _⟩, htext _ _⟩, htext _ _⟩, hdiffs⟩,
    hreport _ _ _ hreturned⟩, hreport _ _ _ herror⟩, hreport _ _ _ fun text _ => hstr text⟩

/-! ## The document of a step -/

/-- Where there is room for all its members, a step is read from its document, up to what does not
survive the wire. -/
lemma ofSource?_document {s : Step} {room : Nat} (hordered : ∀ m ∈ s.members, m.2.Ordered)
    (hroom : ∀ m ∈ s.members, m.2.nesting ≤ room) :
    ofSource? (⟨s.toJson.document, room + 1⟩ : Nested) = some s.reread := by
  have hmembers : Json.OrderedMembers s.members := Json.orderedMembers_iff.2 hordered
  have hdiffer : s.toJson.document.namesDiffer = true := by
    rw [toJson, Json.document, Document.namesDiffer,
      Document.membersDiffer_memberDocuments s.members hmembers, Bool.and_true, decide_eq_true_eq]
    exact Document.nodup_memberDocuments s.nodup_members
  have hvalue : s.toJson.document.value? (room + 1) = some (Json.object s.members) := by
    rw [toJson, Json.document, Document.value?, Document.memberValues?_memberDocuments s.members
      hmembers room (Json.membersNesting_le_iff.2 hroom), Option.map_some]
  exact (agree_ofSource? alike_denotes ⟨hdiffer, hvalue⟩).trans s.ofJson?_object

/-- Where a step is read from its document, there was room for both diffs. -/
lemma nesting_of_ofSource?_document {s s' : Step} (room : Nat)
    (hordered : ∀ m ∈ s.members, m.2.Ordered)
    (h : ofSource? (⟨s.toJson.document, room + 1⟩ : Nested) = some s') :
    s.globals.toJson.nesting ≤ room ∧ s.locals.toJson.nesting ≤ room := by
  obtain ⟨r, hr, hread⟩ := ofSource?_eq_some_iff.1 h
  have hroom {f : Field} {name : String} {diff written : Diff}
      (hmem : (name, written.toJson) ∈ s.members) (hname : name ∈ f.names)
      (hdiff : r.optional? f Diff.none readDiff? = some diff) :
      written.toJson.nesting ≤ room := by
    obtain ⟨part, hpart, hvalue⟩ := Record.optional?_eq_some_iff.1 hdiff
    have hgiven : f.HasPart (⟨s.toJson.document, room + 1⟩ : Nested)
        ⟨written.toJson.document, room⟩ :=
      .member (Nested.layer?_document s.members room) hname (List.mem_map.2 ⟨_, hmem, rfl⟩)
    obtain rfl := (Record.part?_eq_some_iff hr hpart).2 hgiven
    obtain ⟨v, hv, -⟩ := Option.map_eq_some_iff.1 hvalue
    exact ((Document.value?_document_eq_some_iff (hordered _ hmem)).1 hv).1
  have hglobals : ("global_diff", s.globals.toJson) ∈ s.members := by simp [members]
  have hlocals : ("local_diff", s.locals.toJson) ∈ s.members := by simp [members]
  exact ⟨hroom hglobals (by decide) hread.globals, hroom hlocals (by decide) hread.locals⟩

lemma ofText?_wire {s : Step} (hwhole : ∀ m ∈ s.members, m.2.Whole) :
    ofText? s.wire = ofSource? (⟨s.toJson.document, Document.nestingLimit⟩ : Nested) := by
  have hjson : s.toJson.Whole := Json.wholeMembers_iff.2 hwhole
  rw [ofText?, Nested.ofText?, wire, Document.ofText?_compact hjson]
  rfl

/-- The text of a step is read back, up to what does not survive the wire, if none of its values is
nested as deeply as a text may be, -/
lemma ofText?_wire_of_shallow {s : Step} (hmembers : ∀ m ∈ s.members, m.2.Whole ∧ m.2.Ordered)
    (hnesting : ∀ m ∈ s.members, m.2.nesting < Document.nestingLimit) :
    ofText? s.wire = some s.reread :=
  (ofText?_wire fun m hm => (hmembers m hm).1).trans
    (ofSource?_document (fun m hm => (hmembers m hm).2) fun m hm =>
      Nat.le_pred_of_lt (hnesting m hm))

/-- and it is not if a diff of it is. -/
lemma ofText?_wire_of_deep {s : Step} (hmembers : ∀ m ∈ s.members, m.2.Whole ∧ m.2.Ordered)
    (hdeep : s.globals.toJson.nesting = Document.nestingLimit ∨
      s.locals.toJson.nesting = Document.nestingLimit) : ofText? s.wire = none := by
  rw [ofText?_wire fun m hm => (hmembers m hm).1]
  refine Option.eq_none_iff_forall_ne_some.2 fun s' hs' => ?_
  obtain ⟨hglobals, hlocals⟩ := nesting_of_ofSource?_document (Document.nestingLimit - 1)
    (fun m hm => (hmembers m hm).2) hs'
  rcases hdeep with hdeep | hdeep
  · rw [hdeep] at hglobals
    exact absurd hglobals (by decide)
  · rw [hdeep] at hlocals
    exact absurd hlocals (by decide)

/-! ## What is read from a text -/

/-- No number is read as a double in a text, nor in a text that stands there in the place of a
diff. -/
def DoubleFree (t : String) : Prop :=
  ∀ d, Document.ofText? t = some d → d.DoubleFree ∧
    ∀ f ∈ [globalsField, localsField], ∀ (x : Nested) (text : String),
      f.HasPart (⟨d, Document.nestingLimit⟩ : Nested) x → x.document = .str (some text) →
        ∀ d', Document.ofText? (Text.trim text) = some d' → d'.DoubleFree

/-- A text gives a part for a field as a text of its own, of an object that is nested as deeply as a
text may be. -/
def GivesDeep (f : Field) (t : String) : Prop :=
  ∃ (d : Document) (x : Nested) (text : String) (ms : List (String × Json)),
    Document.ofText? t = some d ∧ f.HasPart (⟨d, Document.nestingLimit⟩ : Nested) x ∧
    x.document = .str (some text) ∧ Json.ofText? (Text.trim text) = some (.obj ms) ∧
    (Json.obj ms).nesting = Document.nestingLimit

section

variable {t : String} {d : Document} {r : Record Nested} {f : Field} {x : Nested} {v : Json}

/-- What a part of a text denotes is nested less deeply than a text may be, and has the numbers of
the text. -/
lemma part_spec (hwhole : d.Numbers fun x => ∀ y ∈ x, y.Whole)
    (hpart : f.HasPart (⟨d, Document.nestingLimit⟩ : Nested) x) (hv : Source.value? x = some v) :
    v.Whole ∧ v.Ordered ∧ v.nesting < Document.nestingLimit := by
  obtain ⟨hroom, hnumbers⟩ := Nested.of_hasPart (Document.nestingLimit - 1) hpart
  obtain ⟨hnesting, hordered⟩ := Document.value?_spec x.document v hv
  rw [hroom] at hnesting
  exact ⟨Document.whole_of_value? (hnumbers _ hwhole) hv, hordered, Nat.lt_succ_of_le hnesting⟩

/-- So is a value that a step reports. -/
lemma reported_spec (hwhole : d.Numbers fun x => ∀ y ∈ x, y.Whole)
    (hr : Record.of? fields.length (⟨d, Document.nestingLimit⟩ : Nested) = some r)
    (h : r.optional? f .absent (readReport? Source.value?) = some (.value v)) :
    v.Whole ∧ v.Ordered ∧ v.nesting < Document.nestingLimit := by
  obtain ⟨part, hpart, hread⟩ := Record.optional?_eq_some_iff.1 h
  cases part with
  | none => cases hread
  | some x =>
    refine part_spec hwhole ((Record.part?_eq_some_iff hr hpart).1 rfl) ?_
    obtain ⟨o, ho, hv⟩ := Option.map_eq_some_iff.1 hread
    unfold Source.nullable? at ho
    split at ho
    · cases ho
    · obtain rfl := Option.some.inj ho
      cases hv
    · obtain ⟨w, hw, rfl⟩ := Option.map_eq_some_iff.1 ho
      rwa [← Reported.value.inj hv]

/-- A diff that was given as a deeply nested text is written as a deeply nested object. -/
lemma nesting_of_givesDeep (hd : Document.ofText? t = some d)
    (hr : Record.of? fields.length (⟨d, Document.nestingLimit⟩ : Nested) = some r) {diff : Diff}
    (h : r.optional? f Diff.none readDiff? = some diff) (hdeep : GivesDeep f t) :
    diff.toJson.nesting = Document.nestingLimit := by
  obtain ⟨d', x, text, ms, hd', hpart', hx, htext, hnesting⟩ := hdeep
  obtain rfl := Option.some.inj (hd.symm.trans hd')
  obtain ⟨part, hpart, hread⟩ := Record.optional?_eq_some_iff.1 h
  obtain rfl := (Record.part?_eq_some_iff hr hpart).2 hpart'
  have hvalue : Source.value? x = some (.str text) := by
    show x.document.value? x.room = _
    rw [hx]
    rfl
  have hdiff : readDiff? x = some (Diff.ofJson (.str text)) :=
    Option.map_eq_some_iff.2 ⟨_, hvalue, rfl⟩
  obtain rfl := Option.some.inj (hread.symm.trans hdiff)
  obtain ⟨e, -, he⟩ := Option.bind_eq_some_iff.1 htext
  simp only [Diff.ofJson, htext]
  rw [Diff.toJson_ofMembers (Document.value?_spec e _ he).2.1, hnesting]

/-- A diff is written with the numbers and, unless it was given as a deeply nested text, with less
nesting than a text may have. -/
lemma diff_spec (hd : Document.ofText? t = some d) (hfree : DoubleFree t)
    (hf : f ∈ [globalsField, localsField])
    (hr : Record.of? fields.length (⟨d, Document.nestingLimit⟩ : Nested) = some r) {diff : Diff}
    (h : r.optional? f Diff.none readDiff? = some diff) :
    diff.toJson.Whole ∧ diff.toJson.Ordered ∧
      (¬ GivesDeep f t → diff.toJson.nesting < Document.nestingLimit) := by
  have hempty : (Json.obj []).Whole ∧ (Json.obj []).Ordered ∧
      (¬ GivesDeep f t → (Json.obj []).nesting < Document.nestingLimit) :=
    ⟨trivial, ⟨.nil, trivial⟩, fun _ => by decide⟩
  obtain ⟨hnumbers, htexts⟩ := hfree d hd
  have hwhole := Document.numbers_of_ofText? hd hnumbers
  obtain ⟨part, hpart, hread⟩ := Record.optional?_eq_some_iff.1 h
  cases part with
  | none =>
    obtain rfl := Option.some.inj hread
    exact hempty
  | some x =>
    have hgiven := (Record.part?_eq_some_iff hr hpart).1 rfl
    obtain ⟨v, hv, rfl⟩ := Option.map_eq_some_iff.1 hread
    obtain ⟨hvwhole, hvordered, hvnesting⟩ := part_spec hwhole hgiven hv
    rcases Diff.toJson_ofJson_cases hvordered with hdiff | ⟨ms, -, hdiff⟩ |
      ⟨text, ms, rfl, htext, hdiff⟩
    · rw [hdiff]
      exact hempty
    · rw [hdiff]
      exact ⟨hvwhole, hvordered, fun _ => hvnesting⟩
    -- a text is read with the whole room, one level more than a diff has inside its step
    · obtain ⟨e, he, hvalue⟩ := Option.bind_eq_some_iff.1 htext
      have hx : x.document = .str (some text) := Document.value?_cases hv
      have hefree := htexts f hf x text hgiven hx e he
      obtain ⟨hnesting, hordered⟩ := Document.value?_spec e _ hvalue
      rw [hdiff]
      refine ⟨Document.whole_of_value? (Document.numbers_of_ofText? he hefree) hvalue, hordered,
        fun hshallow => lt_of_le_of_ne hnesting fun heq => hshallow ?_⟩
      exact ⟨d, x, text, ms, hd, hgiven, hx, htext, heq⟩

end

/-- A part of the document of an object is a text only if a member of the object is that text. -/
lemma exists_member_of_hasPart {ms : List (String × Json)} {f : Field} {x : Nested} {text : String}
    (hpart : f.HasPart (⟨(Json.obj ms).document, Document.nestingLimit⟩ : Nested) x)
    (hx : x.document = .str (some text)) : ∃ m ∈ ms, m.2 = .str text := by
  have hlayer := Nested.layer?_document ms (Document.nestingLimit - 1)
  cases hpart with
  | item ha _ => cases hlayer.symm.trans ha
  | member ha _ hmem =>
    obtain rfl := Layer.obj.inj (Option.some.inj (hlayer.symm.trans ha))
    obtain ⟨m, hm, heq⟩ := List.mem_map.1 hmem
    obtain ⟨-, rfl⟩ := Prod.mk.inj heq
    refine ⟨m, hm, ?_⟩
    generalize m.2 = v at hx
    cases v with
    | str s => rw [Option.some.inj (Document.str.inj hx)]
    | _ => cases hx

/-- The compact text of an object of whole numbers has no doubles, if no text in the object spells a
double either. -/
lemma doubleFree_compact {ms : List (String × Json)} (hwhole : (Json.obj ms).Whole)
    (htexts : ∀ m ∈ ms, ∀ text, m.2 = .str text →
      ∃ v : Json, v.Whole ∧ Text.trim text = v.compact) : DoubleFree (Json.obj ms).compact := by
  intro d hd
  obtain rfl := Option.some.inj ((Document.ofText?_compact hwhole).symm.trans hd)
  refine ⟨Document.doubleFree_document _ hwhole, fun f _ x text hpart hx d' hd' => ?_⟩
  obtain ⟨m, hm, htext⟩ := exists_member_of_hasPart hpart hx
  obtain ⟨v, hv, htrim⟩ := htexts m hm text htext
  rw [htrim, Document.ofText?_compact hv] at hd'
  obtain rfl := Option.some.inj hd'
  exact Document.doubleFree_document v hv

/-- It gives no deep text, if no text in the object spells an object that is nested as deeply as a
text may be. -/
lemma not_givesDeep_compact {ms : List (String × Json)} (hwhole : (Json.obj ms).Whole)
    (hshallow : ∀ m ∈ ms, ∀ text, m.2 = .str text → ∀ ms',
      Json.ofText? (Text.trim text) = some (.obj ms') →
        (Json.obj ms').nesting ≠ Document.nestingLimit) (f : Field) :
    ¬ GivesDeep f (Json.obj ms).compact := by
  rintro ⟨d, x, text, ms', hd, hpart, hx, hms', hnesting⟩
  obtain rfl := Option.some.inj ((Document.ofText?_compact hwhole).symm.trans hd)
  obtain ⟨m, hm, htext⟩ := exists_member_of_hasPart hpart hx
  exact hshallow m hm text htext ms' hms' hnesting

lemma trim_compact (ms : List (String × Json)) :
    Text.trim (Json.obj ms).compact = (Json.obj ms).compact := by
  rw [Text.trim, Json.compact, String.toList_ofList, Json.text, Json.enclosed,
    Text.trimChars_of_ends (by decide) (by decide)]

/-- A text that gives nothing but a number and, as a text of its own, a diff. -/
def diffText (ms : List (String × Json)) : String :=
  (Json.obj [("id", .nat 1), ("global_diff", .str (Json.obj ms).compact)]).compact

lemma whole_diffText {text : String} :
    (Json.obj [("id", .nat 1), ("global_diff", .str text)]).Whole :=
  ⟨Json.whole_nat (by decide), trivial, trivial⟩

/-- Such a text is read as the step with the diff, if the diff is not nested too deeply. -/
lemma ofText?_diffText {ms : List (String × Json)} (hwhole : (Json.obj ms).Whole)
    (hordered : (Json.obj ms).Ordered) (hnesting : (Json.obj ms).nesting ≤ Document.nestingLimit) :
    ofText? (diffText ms) = some ((ofKind 1 .other).withGlobals (Diff.ofMembers ms)) := by
  have htext : Json.ofText? (Text.trim (Json.obj ms).compact) = some (.obj ms) := by
    rw [trim_compact]
    exact (Json.ofText?_compact hwhole hordered).2 hnesting
  have hdiff : Diff.ofJson (.str (Json.obj ms).compact) = Diff.ofMembers ms := by
    simp only [Diff.ofJson, htext]
  rw [ofText?, Nested.ofText?, diffText, Document.ofText?_compact whole_diffText, ← hdiff]
  rfl

/-- A diff that is nested as deeply as a text may be is not read back from the text of its step. -/
lemma ofText?_wire_withGlobals {ms : List (String × Json)} (hwhole : (Json.obj ms).Whole)
    (hordered : (Json.obj ms).Ordered) (hnesting : (Json.obj ms).nesting = Document.nestingLimit) :
    ofText? ((ofKind 1 .other).withGlobals (Diff.ofMembers ms)).wire = none := by
  have hdiff : ((ofKind 1 .other).withGlobals (Diff.ofMembers ms)).globals.toJson = .obj ms :=
    Diff.toJson_ofMembers hordered.1
  have hmembers : ∀ m ∈ ((ofKind 1 .other).withGlobals (Diff.ofMembers ms)).members,
      m.2.Whole ∧ m.2.Ordered :=
    forall_members (P := fun v => v.Whole ∧ v.Ordered) ⟨trivial, trivial⟩
      (fun _ hn => ⟨Json.whole_nat hn, trivial⟩) (fun _ => ⟨trivial, trivial⟩)
      (hdiff.symm ▸ ⟨hwhole, hordered⟩) ⟨trivial, .nil, trivial⟩ nofun nofun
  exact ofText?_wire_of_deep hmembers (.inl (hdiff ▸ hnesting))

/-! ## Reading back -/

/-- A step that was read from a text without doubles is read back from its own text, unless one of
its diffs was given as a text of its own that is nested as deeply as a text may be.  The object of
such a diff stands one level deeper in the text of the step, which is not accepted then. -/
theorem wire_read_back {t : String} {s : Step} (hread : ofText? t = some s) (hfree : DoubleFree t) :
    (¬ GivesDeep globalsField t ∧ ¬ GivesDeep localsField t → ofText? s.wire = some s) ∧
      (GivesDeep globalsField t ∨ GivesDeep localsField t → ofText? s.wire = none) := by
  obtain ⟨n, hn, hsource⟩ := Option.bind_eq_some_iff.1 hread
  obtain ⟨d, hd, rfl⟩ := Option.map_eq_some_iff.1 hn
  obtain ⟨r, hr, hfields⟩ := ofSource?_eq_some_iff.1 hsource
  have hwhole := Document.numbers_of_ofText? hd (hfree d hd).1
  obtain ⟨hgwhole, hgordered, hgnesting⟩ := diff_spec hd hfree (by simp) hr hfields.globals
  obtain ⟨hlwhole, hlordered, hlnesting⟩ := diff_spec hd hfree (by simp) hr hfields.locals
  have hreturned (v : Json) (hv : s.returned = .value v) :=
    reported_spec hwhole hr (hv ▸ hfields.returned)
  have herror (v : Json) (hv : s.error = .value v) :=
    reported_spec hwhole hr (hv ▸ hfields.error)
  -- the members that are written inherit what the parts that were read have
  have hmembers : ∀ m ∈ s.members, m.2.Whole ∧ m.2.Ordered :=
    forall_members (P := fun v => v.Whole ∧ v.Ordered) ⟨trivial, trivial⟩
      (fun _ hn => ⟨Json.whole_nat hn, trivial⟩) (fun _ => ⟨trivial, trivial⟩)
      ⟨hgwhole, hgordered⟩ ⟨hlwhole, hlordered⟩
      (fun v hv => ⟨(hreturned v hv).1, (hreturned v hv).2.1⟩)
      (fun v hv => ⟨(herror v hv).1, (herror v hv).2.1⟩)
  constructor
  · rintro ⟨hglobals, hlocals⟩
    have hlimit : 0 < Document.nestingLimit := by decide
    have hnesting : ∀ m ∈ s.members, m.2.nesting < Document.nestingLimit :=
      forall_members (P := fun v => v.nesting < Document.nestingLimit) hlimit (fun _ _ => hlimit)
        (fun _ => hlimit) (hgnesting hglobals) (hlnesting hlocals)
        (fun v hv => (hreturned v hv).2.2) (fun v hv => (herror v hv).2.2)
    rw [ofText?_wire_of_shallow hmembers hnesting, reread_of_ofSource? nullAware_nested hsource]
  · rintro (hdeep | hdeep)
    · exact ofText?_wire_of_deep hmembers
        (.inl (nesting_of_givesDeep hd hr hfields.globals hdeep))
    · exact ofText?_wire_of_deep hmembers
        (.inr (nesting_of_givesDeep hd hr hfields.locals hdeep))

/-- A step whose frame was given as a list, and a diff as a text with a blank in front. -/
theorem wire_read_back_text :
    let t := "\x7b\x22id\x22:1,\x22frame_id\x22:[7]," ++
      "\x22local_diff\x22:\x22 \x7b\\\x22a\\\x22:[]\x7d\x22\x7d"
    let s : Step := { ofKind 1 .other with
      frame := some "[7]"
      locals := Diff.none.set "a" (.arr []) }
    ofText? t = some s ∧ DoubleFree t ∧ ¬ GivesDeep globalsField t ∧ ¬ GivesDeep localsField t ∧
      ofText? s.wire = some s := by
  intro t s
  have hread : ofText? t = some s := by decide +kernel
  have ht : t = (Json.obj [("id", .nat 1), ("frame_id", .arr [.nat 7]),
      ("local_diff", .str " \x7b\x22a\x22:[]\x7d")]).compact := by decide +kernel
  have hwhole : (Json.obj [("id", .nat 1), ("frame_id", .arr [.nat 7]),
      ("local_diff", .str " \x7b\x22a\x22:[]\x7d")]).Whole :=
    ⟨Json.whole_nat (by decide), ⟨Json.whole_nat (by decide), trivial⟩, trivial, trivial⟩
  have hdiff : Text.trim " \x7b\x22a\x22:[]\x7d" = (Json.obj [("a", .arr [])]).compact := by
    decide +kernel
  have hvalue : Json.ofText? (Json.obj [("a", .arr [])]).compact =
      some (.obj [("a", .arr [])]) := by
    decide +kernel
  have hfree : DoubleFree t := by
    rw [ht]
    refine doubleFree_compact hwhole ?_
    simp only [List.forall_mem_cons]
    refine ⟨nofun, nofun, fun text htext => ?_, List.forall_mem_nil _⟩
    obtain rfl := Json.str.inj htext
    exact ⟨.obj [("a", .arr [])], ⟨trivial, trivial⟩, hdiff⟩
  have hshallow (f : Field) : ¬ GivesDeep f t := by
    rw [ht]
    refine not_givesDeep_compact hwhole ?_ f
    simp only [List.forall_mem_cons]
    refine ⟨nofun, nofun, fun text htext ms hms => ?_, List.forall_mem_nil _⟩
    obtain rfl := Json.str.inj htext
    rw [hdiff, hvalue] at hms
    rw [← Option.some.inj hms]
    decide
  exact ⟨hread, hfree, hshallow _, hshallow _,
    (wire_read_back hread hfree).1 ⟨hshallow _, hshallow _⟩⟩

/-- Lists inside one another are nested as deeply as there are lists. -/
lemma nestedLists_spec (n : Nat) :
    let lists : Json := Nat.repeat (fun v => .arr [v]) n (.arr [])
    lists.Whole ∧ lists.Ordered ∧ lists.nesting = n + 1 := by
  induction n with
  | zero => exact ⟨trivial, trivial, rfl⟩
  | succ n ih =>
    obtain ⟨hwhole, hordered, hnesting⟩ := ih
    refine ⟨⟨hwhole, trivial⟩, ⟨hordered, trivial⟩, ?_⟩
    simp [Nat.repeat, Json.nesting, Json.itemsNesting, hnesting]

/-- A diff that was given as a text of its own, with 126 lists inside one another in its object,
stands in the text of the step one level too deep, so that the step is not read back. -/
theorem deep_diff_not_read_back :
    let lists : Json := Nat.repeat (fun v => .arr [v]) 125 (.arr [])
    ∃ s, ofText? (diffText [("a", lists)]) = some s ∧ DoubleFree (diffText [("a", lists)]) ∧
      ofText? s.wire = none := by
  intro lists
  obtain ⟨hlistsWhole, hlistsOrdered, hlistsNesting⟩ := nestedLists_spec 125
  have hwhole : (Json.obj [("a", lists)]).Whole := ⟨hlistsWhole, trivial⟩
  have hordered : (Json.obj [("a", lists)]).Ordered :=
    ⟨List.pairwise_singleton _ _, hlistsOrdered, trivial⟩
  have hnesting : (Json.obj [("a", lists)]).nesting = Document.nestingLimit := by
    rw [Json.nesting, Json.membersNesting, Json.membersNesting, hlistsNesting]
    rfl
  refine ⟨_, ofText?_diffText hwhole hordered hnesting.le, ?_,
    ofText?_wire_withGlobals hwhole hordered hnesting⟩
  refine doubleFree_compact whole_diffText ?_
  simp only [List.forall_mem_cons]
  refine ⟨fun text htext => ?_, fun text htext => ?_, List.forall_mem_nil _⟩
  · cases htext
  · obtain rfl := Json.str.inj htext
    exact ⟨_, hwhole, trim_compact _⟩

end Step

end TraceTimeline
