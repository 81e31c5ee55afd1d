import TraceTimeline.Proofs.Json.Record
import TraceTimeline.Step.Wire

/-!
# Steps read back

What is read where a step was written.  The readers of nine of the thirteen fields undo their
writers.  In the two diffs a variable that was set to the text that stands for a removal does not
survive the wire, and neither does a return value or an error that was reported to be the value
`null`.  `Step.reread` is the step with these replaced, `Step.ofJson?_toJson` says that it is what
is read, and a step that came from a wire has nothing to replace.
-/

namespace TraceTimeline

/-! ## Diffs -/

namespace Change

/-- The change that is read where a change was written. -/
def reread (c : Change) : Change := ofJson c.toJson

/-- A change reads back as itself unless it sets a variable to the text for a removal. -/
lemma reread_eq_self_iff {c : Change} : c.reread = c ↔ c ≠ .set (.str deletedMark) := by
  cases c with
  | delete => simp [reread, toJson, ofJson]
  | set v =>
    cases v with
    | str s =>
      by_cases hs : s = deletedMark
      · simp [reread, toJson, ofJson, hs]
      · simp [reread, toJson, ofJson, hs]
    | _ => simp [reread, toJson, ofJson]

/-- No value on the wire sets a variable to the text for a removal. -/
lemma ofJson_ne_mark (v : Json) : ofJson v ≠ .set (.str deletedMark) := by
  cases v with
  | str s =>
    rw [ofJson]
    split
    · exact nofun
    · next hs => exact fun heq => hs (by injection heq with heq; injection heq)
  | _ => simp [ofJson]

end Change

namespace Diff

/-- The diff that is read where a diff was written. -/
def reread (d : Diff) : Diff := d.mapValues Change.reread

/-- A written diff reads back change by change. -/
theorem ofJson_toJson (d : Diff) : ofJson d.toJson = d.reread := by
  have hmap : (d.mapValues Change.toJson).entries.map (fun m => (m.1, Change.ofJson m.2)) =
      d.reread.entries := by
    simp [reread, OrderedMap.mapValues, Function.comp_def, Change.reread]
  rw [toJson, ofJson, ofMembers, hmap, OrderedMap.ofList_entries]

/-- A diff reads back as itself unless it sets a variable to the text for a removal. -/
theorem reread_eq_self_iff {d : Diff} :
    d.reread = d ↔ ∀ name, d.get? name ≠ some (.set (.str Change.deletedMark)) := by
  constructor
  · intro h name hmark
    have hget : (d.get? name).map Change.reread = d.get? name := by
      rw [← OrderedMap.get?_mapValues]
      exact congrArg (·.get? name) h
    rw [hmark, Option.map_some, Option.some.injEq] at hget
    exact Change.reread_eq_self_iff.1 hget rfl
  · intro h
    refine OrderedMap.ext_get? fun name => ?_
    rw [reread, OrderedMap.get?_mapValues]
    cases hget : d.get? name with
    | none => rfl
    | some c =>
      have hc : c ≠ .set (.str Change.deletedMark) := fun heq => h name (heq ▸ hget)
      rw [Option.map_some, Change.reread_eq_self_iff.2 hc]

lemma get?_ofMembers_ne_mark (members : List (String × Json)) (name : String) :
    (ofMembers members).get? name ≠ some (.set (.str Change.deletedMark)) := by
  intro h
  obtain ⟨m, -, hm⟩ := List.mem_map.1 (OrderedMap.mem_of_get?_ofList h)
  exact Change.ofJson_ne_mark m.2 (Prod.ext_iff.1 hm).2

lemma reread_none : Diff.none.reread = Diff.none := rfl

/-- A diff that came from a value on the wire reads back as itself. -/
theorem reread_ofJson (v : Json) : (ofJson v).reread = ofJson v := by
  have hmembers (members : List (String × Json)) :
      (ofMembers members).reread = ofMembers members :=
    reread_eq_self_iff.2 (get?_ofMembers_ne_mark members)
  unfold ofJson
  split
  · exact hmembers _
  · split
    · exact hmembers _
    · exact reread_none
  · exact reread_none

end Diff

/-! ## Reports -/

namespace Reported

variable {α : Type}

/-- The part that a report is written as. -/
def part (write : α → Json) : Reported α → Option Json
  | .absent => none
  | .null => some .null
  | .value a => some (write a)

/-- The report that is read where the report of a value was written. -/
def reread : Reported Json → Reported Json
  | .value .null => .null
  | r => r

lemma reread_eq_self_iff {r : Reported Json} : r.reread = r ↔ r ≠ .value .null := by
  unfold reread
  split
  · simp
  · next h => simpa using h

end Reported

namespace Step

/-! ## The parts of a step's object -/

/-- The fields of a step and the part that each is written with. -/
def parts (s : Step) : List (Field × Option Json) :=
  [(idField, some (.nat s.id.toNat)), (kindField, some (.str s.kind.name)),
   (lineField, some (.ofOption (fun n => .nat n.toNat) s.line)),
   (frameField, s.frame.map .str), (fileField, s.file.map .str),
   (functionField, s.function.map .str), (targetField, s.target.map .str),
   (sourceTextField, s.sourceText.map .str),
   (globalsField, some s.globals.toJson), (localsField, some s.locals.toJson),
   (returnedField, s.returned.part fun v => v), (errorField, s.error.part fun v => v),
   (tracebackField, s.traceback.part Json.str)]

lemma textMember_eq (f : Field) (o : Option String) :
    textMember f.name o = f.given (o.map Json.str) := by
  cases o <;> rfl

lemma reportMember_eq {β : Type} (f : Field) (write : β → Json) (r : Reported β) :
    reportMember f.name write r = f.given (r.part write) := by
  cases r <;> rfl

/-- A step is written field by field. -/
lemma members_eq (s : Step) : s.members = Record.given s.parts := by
  have hframe := textMember_eq frameField s.frame
  have hfile := textMember_eq fileField s.file
  have hfunction := textMember_eq functionField s.function
  have htarget := textMember_eq targetField s.target
  have hsourceText := textMember_eq sourceTextField s.sourceText
  have hreturned := reportMember_eq returnedField (fun v => v) s.returned
  have herror := reportMember_eq errorField (fun v => v) s.error
  have htraceback := reportMember_eq tracebackField Json.str s.traceback
  unfold members Record.given parts
  simp only [List.flatMap_cons, List.flatMap_nil, ← hframe, ← hfile, ← hfunction, ← htarget,
    ← hsourceText, ← hreturned, ← herror, ← htraceback]
  simp only [Field.given, Option.map_some, Option.toList_some, List.append_assoc, List.cons_append,
    List.nil_append, List.append_nil]
  rfl

lemma distinct_parts (s : Step) : Record.Distinct (s.parts.map (·.1)) := by
  have hfields : Record.Distinct fields := by decide
  exact hfields

/-! ## What each field reads -/

lemma uint64?_nat (n : UInt64) : Source.uint64? (Json.nat n.toNat) = some n :=
  Source.uint64?_of_int? rfl

lemma uint32?_nat (n : UInt32) : Source.uint32? (Json.nat n.toNat) = some n :=
  Source.uint32?_of_int? rfl

lemma readKind?_name (k : EventKind) : readKind? (Json.str k.name) = some k := by
  cases k <;> decide +kernel

/-- A line reads back, also where none is known. -/
lemma line?_ofOption (line : Option SourceLine) :
    Source.nullable? Source.uint32? (Json.ofOption (fun n => .nat n.toNat) line) = some line := by
  cases line with
  | none => rfl
  | some n =>
    calc Source.nullable? Source.uint32? (Json.nat n.toNat)
        = (Source.uint32? (Json.nat n.toNat)).map some := rfl
      _ = some (some n) := by rw [uint32?_nat]; rfl

lemma text?_elim (o : Option String) :
    (o.map Json.str).elim (some none) (Source.nullable? Source.string?) = some o := by
  cases o <;> rfl

lemma identifier?_elim (o : Option String) :
    (o.map Json.str).elim (some none) Source.identifier? = some o := by
  cases o <;> rfl

lemma readDiff?_toJson (d : Diff) : readDiff? d.toJson = some d.reread :=
  congrArg some d.ofJson_toJson

lemma readReport?_value (r : Reported Json) :
    (r.part fun v => v).elim (some .absent) (readReport? Source.value?) = some r.reread := by
  cases r with
  | absent => rfl
  | null => rfl
  | value v => cases v <;> rfl

lemma readReport?_text (r : Reported String) :
    (r.part Json.str).elim (some .absent) (readReport? Source.string?) = some r := by
  cases r <;> rfl

/-! ## The whole step -/

/-- The step that is read where a step was written. -/
def reread (s : Step) : Step :=
  { s with
    globals := s.globals.reread
    locals := s.locals.reread
    returned := s.returned.reread
    error := s.error.reread }

/-- A step reads back as itself unless a diff of it sets a variable to the text for a removal, or
it returns or raises a value `null`. -/
theorem reread_eq_self_iff {s : Step} :
    s.reread = s ↔
      (∀ name, s.globals.get? name ≠ some (.set (.str Change.deletedMark))) ∧
      (∀ name, s.locals.get? name ≠ some (.set (.str Change.deletedMark))) ∧
      s.returned ≠ .value .null ∧ s.error ≠ .value .null := by
  rw [← Diff.reread_eq_self_iff, ← Diff.reread_eq_self_iff, ← Reported.reread_eq_self_iff,
    ← Reported.reread_eq_self_iff]
  constructor
  · intro h
    exact ⟨congrArg globals h, congrArg locals h, congrArg returned h, congrArg error h⟩
  · rintro ⟨hglobals, hlocals, hreturned, herror⟩
    rw [reread, hglobals, hlocals, hreturned, herror]

/-- The object of a step, with its members in any order, holds the step up to what does not survive
the wire. -/
theorem ofJson?_of_perm (s : Step) {members : List (String × Json)}
    (h : members.Perm s.members) : ofJson? (.obj members) = some s.reread := by
  have part (i : Nat) {f : Field} {p : Option Json} (hp : s.parts[i]? = some (f, p)) :
      (Record.named members).part? f = some p :=
    Record.part?_named s.distinct_parts (s.members_eq ▸ h) (List.mem_of_getElem? hp)
  have hid := (Record.required?_eq (part 0 rfl) Source.uint64?).trans (uint64?_nat s.id)
  have hkind := (Record.optional?_eq (part 1 rfl) .other readKind?).trans (readKind?_name s.kind)
  have hline := (Record.optional?_eq (part 2 rfl) none (Source.nullable? Source.uint32?)).trans
    (line?_ofOption s.line)
  have hframe := (Record.optional?_eq (part 3 rfl) none Source.identifier?).trans
    (identifier?_elim s.frame)
  have htext (i : Nat) (f : Field) (o : Option String)
      (hp : s.parts[i]? = some (f, o.map Json.str)) :
      (Record.named members).optional? f none (Source.nullable? Source.string?) = some o :=
    (Record.optional?_eq (part i hp) none _).trans (text?_elim o)
  have hdiff (i : Nat) (f : Field) (d : Diff) (hp : s.parts[i]? = some (f, some d.toJson)) :
      (Record.named members).optional? f Diff.none readDiff? = some d.reread :=
    (Record.optional?_eq (part i hp) _ _).trans (readDiff?_toJson d)
  have hreport (i : Nat) (f : Field) (r : Reported Json)
      (hp : s.parts[i]? = some (f, r.part fun v => v)) :
      (Record.named members).optional? f .absent (readReport? Source.value?) = some r.reread :=
    (Record.optional?_eq (part i hp) _ _).trans (readReport?_value r)
  have htraceback := (Record.optional?_eq (part 12 rfl) .absent (readReport? Source.string?)).trans
    (readReport?_text s.traceback)
  -- the fields are read one after another, each from the part that it was given
  refine Option.bind_eq_some_iff.2 ⟨_, hid, ?_⟩
  refine Option.bind_eq_some_iff.2 ⟨_, hkind, ?_⟩
  refine Option.bind_eq_some_iff.2 ⟨_, hline, ?_⟩
  refine Option.bind_eq_some_iff.2 ⟨_, hframe, ?_⟩
  refine Option.bind_eq_some_iff.2 ⟨_, htext 4 fileField s.file rfl, ?_⟩
  refine Option.bind_eq_some_iff.2 ⟨_, htext 5 functionField s.function rfl, ?_⟩
  refine Option.bind_eq_some_iff.2 ⟨_, htext 6 targetField s.target rfl, ?_⟩
  refine Option.bind_eq_some_iff.2 ⟨_, htext 7 sourceTextField s.sourceText rfl, ?_⟩
  refine Option.bind_eq_some_iff.2 ⟨_, hdiff 8 globalsField s.globals rfl, ?_⟩
  refine Option.bind_eq_some_iff.2 ⟨_, hdiff 9 localsField s.locals rfl, ?_⟩
  refine Option.bind_eq_some_iff.2 ⟨_, hreport 10 returnedField s.returned rfl, ?_⟩
  refine Option.bind_eq_some_iff.2 ⟨_, hreport 11 errorField s.error rfl, ?_⟩
  exact Option.bind_eq_some_iff.2 ⟨_, htraceback, rfl⟩

/-- The object of a step holds the step up to what does not survive the wire. -/
theorem ofJson?_toJson (s : Step) : ofJson? s.toJson = some s.reread :=
  s.ofJson?_of_perm (.refl _)

lemma nodup_members (s : Step) : (s.members.map (·.1)).Nodup := by
  rw [members_eq]
  exact Record.nodup_given s.distinct_parts

/-- The object of a step with its members in the order of their names holds the same. -/
theorem ofJson?_object (s : Step) : ofJson? (Json.object s.members) = some s.reread :=
  s.ofJson?_of_perm (OrderedMap.entries_ofList_perm s.nodup_members)

/-! ## Steps that came from a wire -/

/-- A representation is read as the value `null` only where its outermost level is `null`. -/
def NullAware (α : Type) [Source α] : Prop :=
  ∀ a : α, Source.value? a = some .null → Source.layer? a = some .null

lemma nullAware_json : NullAware Json := by
  intro v h
  cases h
  rfl

lemma nullAware_nested : NullAware Nested := by
  rintro ⟨document, room⟩ h
  have hvalue : document.value? room = some .null := h
  cases document with
  | null => rfl
  | bool b => cases hvalue
  | num n => cases n <;> cases hvalue
  | str s => cases s <;> cases hvalue
  | arr items =>
    cases room with
    | zero => cases hvalue
    | succ room =>
      rw [Document.value?] at hvalue
      obtain ⟨vs, -, hvs⟩ := Option.map_eq_some_iff.1 hvalue
      cases hvs
  | obj members =>
    cases room with
    | zero => cases hvalue
    | succ room =>
      rw [Document.value?] at hvalue
      obtain ⟨ms, -, hms⟩ := Option.map_eq_some_iff.1 hvalue
      cases hms

section

variable {α : Type} [Source α]

/-- What is read where a value or `null` may stand is never the value `null`. -/
lemma nullable?_ne_null (hα : NullAware α) {a : α} {o : Option Json}
    (h : Source.nullable? Source.value? a = some o) : o ≠ some .null := by
  unfold Source.nullable? at h
  split at h
  · cases h
  · cases h
    exact nofun
  · next l hnull hlayer =>
    obtain ⟨v, hv, rfl⟩ := Option.map_eq_some_iff.1 h
    intro heq
    cases heq
    have hlayer' : Source.layer? a = some .null := hα a hv
    exact hnull (Option.some.inj (hlayer.symm.trans hlayer'))

lemma reread_of_optional?_diff {r : Record α} {f : Field} {d : Diff}
    (h : r.optional? f Diff.none readDiff? = some d) : d.reread = d := by
  rcases Record.optional?_cases h with rfl | ⟨a, ha⟩
  · exact Diff.reread_none
  · obtain ⟨v, -, rfl⟩ := Option.map_eq_some_iff.1 ha
    exact Diff.reread_ofJson v

/-- A report that was read where it may be missing reads back as itself. -/
lemma reread_of_optional?_report (hα : NullAware α) {r : Record α} {f : Field}
    {report : Reported Json}
    (h : r.optional? f .absent (readReport? Source.value?) = some report) :
    report.reread = report := by
  rcases Record.optional?_cases h with rfl | ⟨a, ha⟩
  · rfl
  · obtain ⟨o, ho, rfl⟩ := Option.map_eq_some_iff.1 ha
    refine Reported.reread_eq_self_iff.2 fun heq => ?_
    cases o with
    | none => cases heq
    | some v =>
      cases heq
      exact nullable?_ne_null hα ho rfl

/-- A step that was read reads back as itself. -/
theorem reread_of_ofSource? (hα : NullAware α) {a : α} {s : Step} (h : ofSource? a = some s) :
    s.reread = s := by
  obtain ⟨r, -, h⟩ := Option.bind_eq_some_iff.1 h
  obtain ⟨id, -, h⟩ := Option.bind_eq_some_iff.1 h
  obtain ⟨kind, -, h⟩ := Option.bind_eq_some_iff.1 h
  obtain ⟨line, -, h⟩ := Option.bind_eq_some_iff.1 h
  obtain ⟨frame, -, h⟩ := Option.bind_eq_some_iff.1 h
  obtain ⟨file, -, h⟩ := Option.bind_eq_some_iff.1 h
  obtain ⟨function, -, h⟩ := Option.bind_eq_some_iff.1 h
  obtain ⟨target, -, h⟩ := Option.bind_eq_some_iff.1 h
  obtain ⟨sourceText, -, h⟩ := Option.bind_eq_some_iff.1 h
  obtain ⟨globals, hglobals, h⟩ := Option.bind_eq_some_iff.1 h
  obtain ⟨locals, hlocals, h⟩ := Option.bind_eq_some_iff.1 h
  obtain ⟨returned, hreturned, h⟩ := Option.bind_eq_some_iff.1 h
  obtain ⟨error, herror, h⟩ := Option.bind_eq_some_iff.1 h
  obtain ⟨traceback, -, hs⟩ := Option.bind_eq_some_iff.1 h
  cases hs
  rw [reread, reread_of_optional?_diff hglobals, reread_of_optional?_diff hlocals,
    reread_of_optional?_report hα hreturned, reread_of_optional?_report hα herror]

end

/-- Writing a step and reading it again always succeeds, with the members in the order of the fields
or of their names, and it gives the step back exactly if neither of its diffs sets a variable to the
text for a removal and it neither returns nor raises a value `null`.  A step that was read from a
value or from a text, under whatever names and in whatever form of its parts, is given back. -/
theorem wire_round_trip :
    (∀ s : Step, ∃ t, ofJson? s.toJson = some t ∧ ofJson? (Json.object s.members) = some t ∧
      (t = s ↔
        (∀ name, s.globals.get? name ≠ some (.set (.str Change.deletedMark))) ∧
        (∀ name, s.locals.get? name ≠ some (.set (.str Change.deletedMark))) ∧
        s.returned ≠ .value .null ∧ s.error ≠ .value .null)) ∧
    ∀ s : Step, ((∃ v, ofJson? v = some s) ∨ ∃ text, ofText? text = some s) →
      ofJson? s.toJson = some s ∧ ofJson? (Json.object s.members) = some s := by
  refine ⟨fun s => ⟨s.reread, s.ofJson?_toJson, s.ofJson?_object, reread_eq_self_iff⟩, ?_⟩
  intro s hread
  have hself : s.reread = s := by
    rcases hread with ⟨v, hv⟩ | ⟨text, htext⟩
    · exact reread_of_ofSource? nullAware_json hv
    · obtain ⟨n, -, hn⟩ := Option.bind_eq_some_iff.1 htext
      exact reread_of_ofSource? nullAware_nested hn
  have hfields := s.ofJson?_toJson
  have hnames := s.ofJson?_object
  rw [hself] at hfields hnames
  exact ⟨hfields, hnames⟩

/-- A step read under other names, from a number for its frame, a quoted name for its kind and a
text that spells its diff. -/
theorem wire_round_trip_other_names :
    ∃ s : Step,
      s.kind = .ret ∧ s.frame = some "140234" ∧ s.globals.get? "x" = some .delete ∧
      ofJson? (.obj [("sequenceId", .nat 7), ("kind", .str " \x22RETURN\x22 "),
        ("frameId", .nat 140234), ("globalsDiff", .str " \x7b\x22x\x22: \x22<deleted>\x22\x7d "),
        ("returnValue", .null)]) = some s ∧
      ofJson? s.toJson = some s ∧ ofJson? (Json.object s.members) = some s := by
  have hread : ofJson? (.obj [("sequenceId", .nat 7), ("kind", .str " \x22RETURN\x22 "),
      ("frameId", .nat 140234), ("globalsDiff", .str " \x7b\x22x\x22: \x22<deleted>\x22\x7d "),
      ("returnValue", .null)]) =
        some { ofKind 7 .ret with
          frame := some "140234"
          globals := Diff.none.delete "x"
          returned := .null } := by
    decide +kernel
  exact ⟨_, rfl, rfl, by decide +kernel, hread, wire_round_trip.2 _ (.inl ⟨_, hread⟩)⟩

end Step

end TraceTimeline
