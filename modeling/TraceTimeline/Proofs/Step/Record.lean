import TraceTimeline.Proofs.Json.Record
import TraceTimeline.Step.Wire

/-!
# The record of a step

A step is read from a record field by field, and each field is read on its own.  `Step.ReadFrom`
lists what the fields read, and `Step.ofSource?_eq_some_iff` says that this is all there is to it:
what is to be said of the steps that are read is said field by field.
-/

namespace TraceTimeline

namespace Record

variable {α β : Type} {r r' : Record α} {f : Field}

lemma required?_congr (h : r.part? f = r'.part? f) (read : α → Option β) :
    r.required? f read = r'.required? f read := by
  rw [required?, required?, h]

lemma optional?_congr (h : r.part? f = r'.part? f) (missing : β) (read : α → Option β) :
    r.optional? f missing read = r'.optional? f missing read := by
  rw [optional?, optional?, h]

lemma optional?_eq_some_iff {missing b : β} {read : α → Option β} :
    r.optional? f missing read = some b ↔
      ∃ part, r.part? f = some part ∧ part.elim (some missing) read = some b := by
  rw [optional?, Option.bind_eq_bind, Option.bind_eq_some_iff]
  refine exists_congr fun part => and_congr_right fun _ => ?_
  cases part <;> rfl

end Record

namespace Step

variable {α : Type} [Source α]

/-- What the fields of a record have to read for a step to be read from it. -/
structure ReadFrom (s : Step) (r : Record α) : Prop where
  id : r.required? idField Source.uint64? = some s.id
  kind : r.optional? kindField .other readKind? = some s.kind
  line : r.optional? lineField none (Source.nullable? Source.uint32?) = some s.line
  frame : r.optional? frameField none Source.identifier? = some s.frame
  file : r.optional? fileField none (Source.nullable? Source.string?) = some s.file
  function : r.optional? functionField none (Source.nullable? Source.string?) = some s.function
  target : r.optional? targetField none (Source.nullable? Source.string?) = some s.target
  sourceText :
    r.optional? sourceTextField none (Source.nullable? Source.string?) = some s.sourceText
  globals : r.optional? globalsField Diff.none readDiff? = some s.globals
  locals : r.optional? localsField Diff.none readDiff? = some s.locals
  returned : r.optional? returnedField .absent (readReport? Source.value?) = some s.returned
  error : r.optional? errorField .absent (readReport? Source.value?) = some s.error
  traceback : r.optional? tracebackField .absent (readReport? Source.string?) = some s.traceback

/-- A step is read where there is a record from which all its fields are read. -/
theorem ofSource?_eq_some_iff {a : α} {s : Step} :
    ofSource? a = some s ↔ ∃ r, Record.of? fields.length a = some r ∧ s.ReadFrom r := by
  constructor
  · intro h
    obtain ⟨r, hr, h⟩ := Option.bind_eq_some_iff.1 h
    obtain ⟨id, hid, h⟩ := Option.bind_eq_some_iff.1 h
    obtain ⟨kind, hkind, h⟩ := Option.bind_eq_some_iff.1 h
    obtain ⟨line, hline, h⟩ := Option.bind_eq_some_iff.1 h
    obtain ⟨frame, hframe, h⟩ := Option.bind_eq_some_iff.1 h
    obtain ⟨file, hfile, h⟩ := Option.bind_eq_some_iff.1 h
    obtain ⟨function, hfunction, h⟩ := Option.bind_eq_some_iff.1 h
    obtain ⟨target, htarget, h⟩ := Option.bind_eq_some_iff.1 h
    obtain ⟨sourceText, hsourceText, h⟩ := Option.bind_eq_some_iff.1 h
    obtain ⟨globals, hglobals, h⟩ := Option.bind_eq_some_iff.1 h
    obtain ⟨locals, hlocals, h⟩ := Option.bind_eq_some_iff.1 h
    obtain ⟨returned, hreturned, h⟩ := Option.bind_eq_some_iff.1 h
    obtain ⟨error, herror, h⟩ := Option.bind_eq_some_iff.1 h
    obtain ⟨traceback, htraceback, hs⟩ := Option.bind_eq_some_iff.1 h
    obtain rfl := Option.some.inj hs
    exact ⟨r, hr, hid, hkind, hline, hframe, hfile, hfunction, htarget, hsourceText, hglobals,
      hlocals, hreturned, herror, htraceback⟩
  · rintro ⟨r, hr, h⟩
    refine Option.bind_eq_some_iff.2 ⟨r, hr, ?_⟩
    refine Option.bind_eq_some_iff.2 ⟨_, h.id, ?_⟩
    refine Option.bind_eq_some_iff.2 ⟨_, h.kind, ?_⟩
    refine Option.bind_eq_some_iff.2 ⟨_, h.line, ?_⟩
    refine Option.bind_eq_some_iff.2 ⟨_, h.frame, ?_⟩
    refine Option.bind_eq_some_iff.2 ⟨_, h.file, ?_⟩
    refine Option.bind_eq_some_iff.2 ⟨_, h.function, ?_⟩
    refine Option.bind_eq_some_iff.2 ⟨_, h.target, ?_⟩
    refine Option.bind_eq_some_iff.2 ⟨_, h.sourceText, ?_⟩
    refine Option.bind_eq_some_iff.2 ⟨_, h.globals, ?_⟩
    refine Option.bind_eq_some_iff.2 ⟨_, h.locals, ?_⟩
    refine Option.bind_eq_some_iff.2 ⟨_, h.returned, ?_⟩
    refine Option.bind_eq_some_iff.2 ⟨_, h.error, ?_⟩
    exact Option.bind_eq_some_iff.2 ⟨_, h.traceback, rfl⟩

/-- The fields of a step other than its two diffs. -/
def plainFields : List Field :=
  [idField, kindField, lineField, frameField, fileField, functionField, targetField,
   sourceTextField, returnedField, errorField, tracebackField]

/-- Where a step is read from a record, the same step with other diffs is read from a record that
has the parts for these diffs and the same parts for all other fields. -/
lemma ReadFrom.withDiffs {s : Step} {r r' : Record α} (h : s.ReadFrom r)
    (hparts : ∀ f ∈ plainFields, r'.part? f = r.part? f) {globals locals : Diff}
    (hglobals : r'.optional? globalsField Diff.none readDiff? = some globals)
    (hlocals : r'.optional? localsField Diff.none readDiff? = some locals) :
    ({ s with globals, locals } : Step).ReadFrom r' := by
  simp only [plainFields, List.forall_mem_cons] at hparts
  obtain ⟨hid, hkind, hline, hframe, hfile, hfunction, htarget, hsourceText, hreturned, herror,
    htraceback, -⟩ := hparts
  exact {
    id := (Record.required?_congr hid _).trans h.id
    kind := (Record.optional?_congr hkind _ _).trans h.kind
    line := (Record.optional?_congr hline _ _).trans h.line
    frame := (Record.optional?_congr hframe _ _).trans h.frame
    file := (Record.optional?_congr hfile _ _).trans h.file
    function := (Record.optional?_congr hfunction _ _).trans h.function
    target := (Record.optional?_congr htarget _ _).trans h.target
    sourceText := (Record.optional?_congr hsourceText _ _).trans h.sourceText
    globals := hglobals
    locals := hlocals
    returned := (Record.optional?_congr hreturned _ _).trans h.returned
    error := (Record.optional?_congr herror _ _).trans h.error
    traceback := (Record.optional?_congr htraceback _ _).trans h.traceback }

/-- A step is read from a record that has the same parts. -/
lemma ReadFrom.congr {s : Step} {r r' : Record α} (h : s.ReadFrom r)
    (hparts : ∀ f ∈ fields, r'.part? f = r.part? f) : s.ReadFrom r' := by
  refine h.withDiffs (fun f hf => hparts f ?_) ?_ ?_
  · have hsub : plainFields ⊆ fields := by simp [plainFields, fields]
    exact hsub hf
  · exact (Record.optional?_congr (hparts _ (by simp [fields])) _ _).trans h.globals
  · exact (Record.optional?_congr (hparts _ (by simp [fields])) _ _).trans h.locals

/-- Records with the same parts for all fields hold the same step, or both none. -/
theorem ofSource?_congr {a b : α} {r r' : Record α} (ha : Record.of? fields.length a = some r)
    (hb : Record.of? fields.length b = some r') (hparts : ∀ f ∈ fields, r.part? f = r'.part? f) :
    ofSource? a = ofSource? b := by
  refine Option.ext fun s => ?_
  simp only [ofSource?_eq_some_iff, ha, hb, Option.some.injEq, exists_eq_left']
  exact ⟨fun h => h.congr fun f hf => (hparts f hf).symm, fun h => h.congr hparts⟩

end Step

end TraceTimeline
