import TraceTimeline.Proofs.Json.Parts
import TraceTimeline.Proofs.Step.Record

/-!
# The spellings of a step

A step can be spelled in many ways: under other names of its fields, with its members in another
order and among members that no field knows (`Record.Respelled`), or as a list of its first fields.
`Step.spellings_agree` says that all of them are read alike, that a field named twice or an item too
much is not accepted, and what is read for a field that was left out.
-/

namespace TraceTimeline

namespace Record

variable {α β : Type} {fields : List Field} {f g : Field} {members : List (String × α)}

/-! ## Other names -/

/-- A member is another one under a name of the same field, or under the same name. -/
structure Renamed (fields : List Field) (m n : String × α) : Prop where
  part : n.2 = m.2
  name : n.1 = m.1 ∨ ∃ f ∈ fields, m.1 ∈ f.names ∧ n.1 ∈ f.names

/-- The members `ms'` are the members `ms`, some of them renamed, in any order among members that no
field knows. -/
def Respelled (fields : List Field) (ms ms' : List (String × α)) : Prop :=
  ∃ renamed unknown, List.Forall₂ (Renamed fields) ms renamed ∧
    (∀ m ∈ unknown, ∀ f ∈ fields, m.1 ∉ f.names) ∧ ms'.Perm (renamed ++ unknown)

lemma Distinct.eq_of_mem_names (hd : Distinct fields) (hf : f ∈ fields) (hg : g ∈ fields)
    {name : String} (hfname : name ∈ f.names) (hgname : name ∈ g.names) : f = g := by
  by_contra hne
  have hsymm : Std.Symm fun f g : Field => ∀ name ∈ f.names, name ∉ g.names :=
    ⟨fun _ _ h name hg hf => h name hf hg⟩
  exact hd.apart.forall hf hg hne name hfname hgname

/-- A renamed member is found by the fields that find the member. -/
lemma Renamed.mem_names_iff (hd : Distinct fields) {m n : String × α} (h : Renamed fields m n)
    (hf : f ∈ fields) : n.1 ∈ f.names ↔ m.1 ∈ f.names := by
  rcases h.name with hname | ⟨g, hg, hm, hn⟩
  · rw [hname]
  · constructor
    · intro hnf
      rwa [hd.eq_of_mem_names hf hg hnf hn]
    · intro hmf
      rwa [hd.eq_of_mem_names hf hg hmf hm]

/-- Among renamed members, a field finds those that are the ones it finds, renamed. -/
lemma forall₂_filter_of_renamed (hd : Distinct fields) {ms renamed : List (String × α)}
    (h : List.Forall₂ (Renamed fields) ms renamed) (hf : f ∈ fields) :
    List.Forall₂ (Renamed fields) (ms.filter fun m => f.names.contains m.1)
      (renamed.filter fun m => f.names.contains m.1) := by
  induction h with
  | nil => exact .nil
  | @cons m n ms renamed hmn _ ih =>
    have hcontains : f.names.contains n.1 = f.names.contains m.1 := by
      rw [Bool.eq_iff_iff, List.contains_iff_mem, List.contains_iff_mem]
      exact hmn.mem_names_iff hd hf
    rw [List.filter_cons, List.filter_cons, hcontains]
    split
    · exact .cons hmn ih
    · exact ih

/-- Renaming members does not change the part for a field. -/
lemma part?_of_renamed (hd : Distinct fields) {ms renamed : List (String × α)}
    (h : List.Forall₂ (Renamed fields) ms renamed) (hf : f ∈ fields) :
    (named renamed).part? f = (named ms).part? f := by
  have hfilter := forall₂_filter_of_renamed hd h hf
  unfold part?
  dsimp only
  generalize ms.filter _ = found at hfilter
  generalize renamed.filter _ = found' at hfilter
  cases hfilter with
  | nil => rfl
  | cons hmn hrest =>
    cases hrest with
    | nil => exact congrArg (fun x => some (some x)) hmn.part
    | cons => rfl

lemma part?_append_unknown {unknown : List (String × α)} (h : ∀ m ∈ unknown, m.1 ∉ f.names) :
    (named (members ++ unknown)).part? f = (named members).part? f := by
  unfold part?
  dsimp only
  rw [List.filter_append, filter_of_missing h, List.append_nil]

/-- Members that are spelled in another way give the same part for every field. -/
theorem part?_of_respelled (hd : Distinct fields) {ms ms' : List (String × α)}
    (h : Respelled fields ms ms') (hf : f ∈ fields) :
    (named ms').part? f = (named ms).part? f := by
  obtain ⟨renamed, unknown, hrenamed, hunknown, hperm⟩ := h
  calc (named ms').part? f
      = (named (renamed ++ unknown)).part? f := part?_perm hperm f
    _ = (named renamed).part? f := part?_append_unknown fun m hm => hunknown m hm f hf
    _ = (named ms).part? f := part?_of_renamed hd hrenamed hf

/-! ## Lists -/

/-- Where fields have successive positions, the items of a list that are given to them are given to
their names in turn. -/
lemma given_of_positions (items : List α) (fields : List Field) (n : Nat)
    (h : fields.map Field.position = List.range' n fields.length) :
    given (fields.map fun f => (f, items[f.position]?)) =
      (fields.map Field.name).zip (items.drop n) := by
  induction fields generalizing n with
  | nil => rfl
  | cons f rest ih =>
    rw [List.map_cons, List.length_cons, List.range'_succ, List.cons.injEq] at h
    obtain ⟨hposition, hrest⟩ := h
    have ih := ih (n + 1) hrest
    rw [given] at ih ⊢
    rw [List.map_cons, List.flatMap_cons, ih, hposition, List.map_cons]
    rcases Nat.lt_or_ge n items.length with hn | hn
    · rw [List.drop_eq_getElem_cons hn, List.getElem?_eq_getElem hn]
      rfl
    · rw [List.drop_eq_nil_of_le hn, List.drop_eq_nil_of_le (Nat.le_succ_of_le hn),
        List.getElem?_eq_none hn]
      simp [Field.given]

/-- The members that give the items of a list to the names of the fields in turn give each field the
part that it has in the list. -/
theorem part?_of_positions (hd : Distinct fields)
    (hpositions : fields.map Field.position = List.range' 0 fields.length) {items : List α}
    (hperm : members.Perm ((fields.map Field.name).zip items)) (hf : f ∈ fields) :
    (named members).part? f = (listed items).part? f := by
  have hgiven := given_of_positions items fields 0 hpositions
  rw [List.drop_zero] at hgiven
  rw [← hgiven] at hperm
  refine part?_named ?_ hperm (List.mem_map.2 ⟨f, hf, rfl⟩)
  rwa [List.map_map, Function.comp_def, List.map_id']

/-! ## Fields that are named twice or left out -/

/-- There is no part for a field that two members name. -/
lemma part?_of_twice {name name' : String} (hname : name ∈ f.names) (hname' : name' ∈ f.names)
    (before between after : List (String × α)) (x y : α) :
    (named (before ++ (name, x) :: (between ++ (name', y) :: after))).part? f = none := by
  unfold part?
  dsimp only
  rw [filter_member hname, filter_member hname']
  generalize before.filter _ = found
  generalize between.filter _ = found'
  match found, found' with
  | [], [] => rfl
  | [], _ :: _ => rfl
  | [_], _ => rfl
  | _ :: _ :: _, _ => rfl

variable [Source α] {arity : Nat} {a : α} {r : Record α}

lemma eq_of_missing (hr : of? arity a = some r) {missing b : β} {read : α → Option β}
    (h : r.optional? f missing read = some b) (hmissing : f.Missing a) : b = missing := by
  obtain ⟨part, hpart, hread⟩ := optional?_eq_some_iff.1 h
  obtain rfl := (part?_eq_none_iff hr hpart).2 hmissing
  exact (Option.some.inj hread).symm

end Record

namespace Step

variable {α : Type} [Source α] {a : α} {s : Step} {f : Field}

lemma distinct_fields : Record.Distinct fields := by decide

lemma positions_fields : fields.map Field.position = List.range' 0 fields.length := rfl

/-- A step is read only where every field is named once at most. -/
lemma ReadFrom.exists_part {r : Record α} (h : s.ReadFrom r) :
    ∀ f ∈ fields, ∃ part, r.part? f = some part := by
  have required {β : Type} {f : Field} {b : β} {read : α → Option β}
      (h : r.required? f read = some b) : ∃ part, r.part? f = some part := by
    obtain ⟨_, hpart, -⟩ := Option.bind_eq_some_iff.1 h
    exact ⟨_, hpart⟩
  have optional {β : Type} {f : Field} {missing b : β} {read : α → Option β}
      (h : r.optional? f missing read = some b) : ∃ part, r.part? f = some part := by
    obtain ⟨part, hpart, -⟩ := Record.optional?_eq_some_iff.1 h
    exact ⟨part, hpart⟩
  simp only [fields, List.forall_mem_cons]
  exact ⟨required h.id, optional h.kind, optional h.line, optional h.frame, optional h.file,
    optional h.function, optional h.target, optional h.sourceText, optional h.globals,
    optional h.locals, optional h.returned, optional h.error, optional h.traceback,
    List.forall_mem_nil _⟩

/-- What a step has in the fields that its tree does not give.  The number has to be given. -/
structure Defaulted (a : α) (s : Step) : Prop where
  id : ¬ idField.Missing a
  kind : kindField.Missing a → s.kind = .other
  line : lineField.Missing a → s.line = none
  frame : frameField.Missing a → s.frame = none
  file : fileField.Missing a → s.file = none
  function : functionField.Missing a → s.function = none
  target : targetField.Missing a → s.target = none
  sourceText : sourceTextField.Missing a → s.sourceText = none
  globals : globalsField.Missing a → s.globals = Diff.none
  locals : localsField.Missing a → s.locals = Diff.none

/-- A report says whether its field was left out, `null` or neither. -/
structure Distinguished {β : Type} (f : Field) (a : α) (report : Reported β) : Prop where
  absent : report = .absent ↔ f.Missing a
  null : report = .null ↔ ∃ x, f.HasPart a x ∧ Source.layer? x = some .null

/-- A step that is read has the defaults for the fields that were left out. -/
lemma ReadFrom.defaulted {r : Record α} (hr : Record.of? fields.length a = some r)
    (h : s.ReadFrom r) : s.Defaulted a where
  id hmissing := by
    obtain ⟨_, hpart, hread⟩ := Option.bind_eq_some_iff.1 h.id
    obtain rfl := (Record.part?_eq_none_iff hr hpart).2 hmissing
    cases hread
  kind := Record.eq_of_missing hr h.kind
  line := Record.eq_of_missing hr h.line
  frame := Record.eq_of_missing hr h.frame
  file := Record.eq_of_missing hr h.file
  function := Record.eq_of_missing hr h.function
  target := Record.eq_of_missing hr h.target
  sourceText := Record.eq_of_missing hr h.sourceText
  globals := Record.eq_of_missing hr h.globals
  locals := Record.eq_of_missing hr h.locals

/-- A part is reported to be `null` if that is its outermost level. -/
lemma readReport?_eq_null_iff {β : Type} {read : α → Option β} {x : α} {report : Reported β}
    (h : readReport? read x = some report) :
    report ≠ .absent ∧ (report = .null ↔ Source.layer? x = some .null) := by
  obtain ⟨o, ho, rfl⟩ := Option.map_eq_some_iff.1 h
  unfold Source.nullable? at ho
  split at ho
  · cases ho
  · next hlayer =>
    obtain rfl := Option.some.inj ho
    exact ⟨nofun, fun _ => hlayer, fun _ => rfl⟩
  · next l hnull hlayer =>
    obtain ⟨b, -, rfl⟩ := Option.map_eq_some_iff.1 ho
    refine ⟨nofun, nofun, fun hx => ?_⟩
    exact absurd (Option.some.inj (hlayer.symm.trans hx)) hnull

/-- A report that is read is absent if the field was left out, and `null` if that is its part. -/
lemma distinguished {β : Type} {r : Record α} (hr : Record.of? fields.length a = some r)
    {read : α → Option β} {report : Reported β}
    (h : r.optional? f .absent (readReport? read) = some report) : Distinguished f a report := by
  obtain ⟨part, hpart, hread⟩ := Record.optional?_eq_some_iff.1 h
  have hnone := Record.part?_eq_none_iff hr hpart
  have hsome (x : α) := Record.part?_eq_some_iff (x := x) hr hpart
  cases part with
  | none =>
    obtain rfl := Option.some.inj hread
    exact ⟨iff_of_true rfl (hnone.1 rfl), nofun, fun ⟨x, hx, _⟩ => absurd ((hsome x).2 hx) nofun⟩
  | some x =>
    obtain ⟨habsent, hnull⟩ := readReport?_eq_null_iff hread
    refine ⟨iff_of_false habsent fun hmissing => absurd (hnone.2 hmissing) nofun, ?_⟩
    rw [hnull]
    constructor
    · exact fun hx => ⟨x, (hsome x).1 rfl, hx⟩
    · rintro ⟨y, hy, hlayer⟩
      obtain rfl := Option.some.inj ((hsome y).2 hy)
      exact hlayer

/-- A step reads the same under other names of its fields, in any order of its members and among
members that no field knows, and as a list of its first fields.  There is no step where a field is
named twice and in a list with more items than there are fields.  Where a step is read, the fields
that were left out have their defaults, and a return value, an error or a traceback that was left
out is told from one that is `null`. -/
theorem spellings_agree :
    (∀ {a b : α} {ms ms' : List (String × α)}, Source.layer? a = some (.obj ms) →
      Source.layer? b = some (.obj ms') → Record.Respelled fields ms ms' →
        ofSource? b = ofSource? a) ∧
    (∀ {a b : α} {items : List α} {ms : List (String × α)}, Source.layer? a = some (.arr items) →
      items.length ≤ fields.length → Source.layer? b = some (.obj ms) →
      ms.Perm ((fields.map Field.name).zip items) → ofSource? a = ofSource? b) ∧
    (∀ {a x y : α} {f : Field} {name name' : String} {before between after : List (String × α)},
      f ∈ fields → name ∈ f.names → name' ∈ f.names →
      Source.layer? a = some (.obj (before ++ (name, x) :: (between ++ (name', y) :: after))) →
        ofSource? a = none) ∧
    (∀ {a : α} {items : List α}, Source.layer? a = some (.arr items) →
      fields.length < items.length → ofSource? a = none) ∧
    ∀ {a : α} {s : Step}, ofSource? a = some s →
      s.Defaulted a ∧ Distinguished returnedField a s.returned ∧
        Distinguished errorField a s.error ∧ Distinguished tracebackField a s.traceback := by
  refine ⟨fun ha hb hms => ?_, fun ha hlength hb hperm => ?_, fun hf hname hname' ha => ?_,
    fun ha hlength => ?_, fun {a s} hs => ?_⟩
  · exact ofSource?_congr (Record.of?_of_obj hb _) (Record.of?_of_obj ha _) fun f hf =>
      Record.part?_of_respelled distinct_fields hms hf
  · exact ofSource?_congr (Record.of?_of_arr ha hlength) (Record.of?_of_obj hb _) fun f hf =>
      (Record.part?_of_positions distinct_fields positions_fields hperm hf).symm
  · refine Option.eq_none_iff_forall_ne_some.2 fun s hs => ?_
    obtain ⟨r, hr, hread⟩ := ofSource?_eq_some_iff.1 hs
    obtain rfl := Option.some.inj (hr.symm.trans (Record.of?_of_obj ha _))
    obtain ⟨part, hpart⟩ := hread.exists_part _ hf
    -- a field under two of its names is no part at all
    rw [Record.part?_of_twice hname hname'] at hpart
    cases hpart
  · refine Option.eq_none_iff_forall_ne_some.2 fun s hs => ?_
    obtain ⟨r, hr, -⟩ := ofSource?_eq_some_iff.1 hs
    rw [Record.of?, ha] at hr
    exact absurd hlength (Nat.not_lt.2 (Option.ite_none_right_eq_some.1 hr).1)
  · obtain ⟨r, hr, hread⟩ := ofSource?_eq_some_iff.1 hs
    exact ⟨hread.defaulted hr, distinguished hr hread.returned, distinguished hr hread.error,
      distinguished hr hread.traceback⟩

/-- A return under the names of the wire, under other names beside an unknown member, as a list, and
with the kind of event given twice.  Its value is `null`, and no error is given. -/
theorem spellings_agree_return :
    let wire : Json := .obj [("id", .nat 1), ("event", .str "return"), ("return_value", .null)]
    let other : Json := .obj
      [("depth", .nat 3), ("kind", .str "return"), ("returnValue", .null), ("sequenceId", .nat 1)]
    let short : Json := .obj [("id", .nat 1), ("event", .str "return")]
    let list : Json := .arr [.nat 1, .str "return"]
    let twice : Json := .obj [("event", .str "return"), ("id", .nat 1), ("kind", .str "return")]
    let long : Json := .arr (List.replicate 14 (.nat 1))
    ofSource? wire = some { ofKind 1 .ret with returned := .null } ∧
      ofSource? other = ofSource? wire ∧ ofSource? list = ofSource? short ∧
      ofSource? twice = none ∧ ofSource? long = none ∧
      returnedField.HasPart wire .null ∧ errorField.Missing wire := by
  intro wire other short list twice long
  have hwire : ofSource? wire = some { ofKind 1 .ret with returned := .null } := by
    decide +kernel
  have hother : Record.Respelled fields
      [("id", Json.nat 1), ("event", .str "return"), ("return_value", .null)]
      [("depth", .nat 3), ("kind", .str "return"), ("returnValue", .null),
        ("sequenceId", .nat 1)] :=
    ⟨[("sequenceId", .nat 1), ("kind", .str "return"), ("returnValue", .null)],
      [("depth", .nat 3)],
      .cons ⟨rfl, .inr ⟨idField, by simp [fields], by decide, by decide⟩⟩
        (.cons ⟨rfl, .inr ⟨kindField, by simp [fields], by decide, by decide⟩⟩
          (.cons ⟨rfl, .inr ⟨returnedField, by simp [fields], by decide, by decide⟩⟩ .nil)),
      by decide, by decide⟩
  obtain ⟨hrespelled, hlist, htwice, hlong, hread⟩ := spellings_agree (α := Json)
  obtain ⟨-, hreturned, herror, -⟩ := hread hwire
  obtain ⟨x, hnull, hlayer⟩ := hreturned.null.1 rfl
  have hx : x = .null := by
    cases x with
    | null => rfl
    | _ => cases hlayer
  have hkind : kindField ∈ fields := by simp [fields]
  have htwiceLayer : Source.layer? twice = some (.obj ([] ++ ("event", .str "return") ::
      ([("id", .nat 1)] ++ ("kind", .str "return") :: []))) := rfl
  exact ⟨hwire, hrespelled rfl rfl hother, hlist rfl (by decide) rfl (by decide),
    htwice hkind (by decide) (by decide) htwiceLayer, hlong rfl (by decide), hx ▸ hnull,
    herror.absent.1 rfl⟩

end Step

end TraceTimeline
