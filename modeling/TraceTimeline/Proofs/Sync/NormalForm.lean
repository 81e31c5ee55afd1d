import TraceTimeline.Proofs.Json.Exchange
import TraceTimeline.Proofs.Sync.Wire

/-!
# The normal form of sync payloads

A payload can be given in many ways: identifiers as texts or as numbers, steps with gaps in between,
records as objects or as lists, parts left out.  What is read from it is a normal form: written and
read again it stays as it is (`SyncPayload.ofJson?_written`).  Two of the freedoms are spelled out
here.  The steps are those of the list without its gaps, each read on its own
(`SyncPayload.mapM_timelineItems`), and values that differ in gaps and in the spelling of
identifiers only are read to the same payload (`SyncPayload.agree_respelled`).
-/

namespace TraceTimeline

open Json (Numeral GapInserted ItemExchanged)

variable {R : Json → Json → Prop}

/-! ## Records with one part exchanged -/

/-- A step is the same if its frame reads the same. -/
lemma Step.agree_exchanged (hR : Agree R Source.identifier? Source.identifier?) :
    Agree (frameField.Exchanged R) ofJson? ofJson? := by
  intro v w h
  refine Record.bind_eq_of_rel (h.of? fields.length) fun r r' hr => ?_
  simp only [hr.required?_of_apart idField (by decide), hr.optional? none hR,
    hr.optional?_of_apart kindField (by decide), hr.optional?_of_apart lineField (by decide),
    hr.optional?_of_apart fileField (by decide), hr.optional?_of_apart functionField (by decide),
    hr.optional?_of_apart targetField (by decide),
    hr.optional?_of_apart sourceTextField (by decide),
    hr.optional?_of_apart globalsField (by decide), hr.optional?_of_apart localsField (by decide),
    hr.optional?_of_apart returnedField (by decide), hr.optional?_of_apart errorField (by decide),
    hr.optional?_of_apart tracebackField (by decide)]

namespace NodeSnapshot

lemma agree_exchanged_id (hR : Agree R Source.identifier? Source.identifier?) :
    Agree (idField.Exchanged R) ofJson? ofJson? := by
  intro v w h
  refine Record.bind_eq_of_rel (h.of? 2) fun r r' hr => ?_
  simp only [hr.required? hR, hr.optional?_of_apart dataField (by decide)]

lemma agree_exchanged_data (hR : Agree R readData? readData?) :
    Agree (dataField.Exchanged R) ofJson? ofJson? := by
  intro v w h
  refine Record.bind_eq_of_rel (h.of? 2) fun r r' hr => ?_
  simp only [hr.required?_of_apart idField (by decide), hr.optional? ("", none) hR]

lemma agree_exchanged_frame (hR : Agree R Source.identifier? Source.identifier?) :
    Agree (frameField.Exchanged R) readData? readData? := by
  intro v w h
  refine Record.bind_eq_of_rel (h.of? 2) fun r r' hr => ?_
  simp only [hr.optional?_of_apart sourceTextField (by decide), hr.optional? none hR]

end NodeSnapshot

namespace SyncPayload

/-- A payload is the same if its nodes read the same, -/
lemma agree_exchanged_nodes
    (hR : Agree R (Source.list? NodeSnapshot.ofSource?) (Source.list? NodeSnapshot.ofSource?)) :
    Agree (nodesField.Exchanged R) ofJson? ofJson? := by
  intro v w h
  refine Record.bind_eq_of_rel (h.of? 4) fun r r' hr => ?_
  simp only [hr.optional? [] hR, hr.optional?_of_apart timelineField (by decide),
    hr.optional?_of_apart timelineIdField (by decide),
    hr.optional?_of_apart nodeIdField (by decide)]

/-- or if its steps do, -/
lemma agree_exchanged_timeline (hR : Agree R readTimeline? readTimeline?) :
    Agree (timelineField.Exchanged R) ofJson? ofJson? := by
  intro v w h
  refine Record.bind_eq_of_rel (h.of? 4) fun r r' hr => ?_
  simp only [hr.optional? [] hR, hr.optional?_of_apart nodesField (by decide),
    hr.optional?_of_apart timelineIdField (by decide),
    hr.optional?_of_apart nodeIdField (by decide)]

/-- or if the selected node does. -/
lemma agree_exchanged_nodeId (hR : Agree R Source.identifier? Source.identifier?) :
    Agree (nodeIdField.Exchanged R) ofJson? ofJson? := by
  intro v w h
  refine Record.bind_eq_of_rel (h.of? 4) fun r r' hr => ?_
  simp only [hr.optional? none hR, hr.optional?_of_apart nodesField (by decide),
    hr.optional?_of_apart timelineField (by decide),
    hr.optional?_of_apart timelineIdField (by decide)]

/-! ## The steps of a payload -/

/-- The part of a payload for its steps: a member of an object, or the second item of a list. -/
def timelinePart? : Json → Option Json
  | .obj members => (members.find? (·.1 = "timeline")).map (·.2)
  | .arr items => items[1]?
  | _ => none

/-- The list of steps in a payload with its gaps, which is empty where there is none. -/
def timelineItems (v : Json) : List Json :=
  match timelinePart? v with
  | some (.arr items) => items
  | _ => []

/-- The part for the steps is what the record has for their field. -/
lemma timelinePart?_eq {v : Json} {r : Record Json} (hr : Record.of? 4 v = some r)
    {part : Option Json} (h : r.part? timelineField = some part) : timelinePart? v = part := by
  cases v with
  | obj members =>
    obtain rfl := Option.some.inj hr
    have hsame : (fun m : String × Json => timelineField.names.contains m.1) =
        fun m => decide (m.1 = "timeline") := by
      funext m
      simp [timelineField]
    unfold Record.part? at h
    rw [timelinePart?, ← List.head?_filter, ← hsame]
    dsimp only at h
    generalize members.filter _ = found at h ⊢
    -- missing, given once, or given twice, which the reader refuses
    match found with
    | [] => exact Option.some.inj h
    | [m] => exact Option.some.inj h
    | _ :: _ :: _ => cases h
  | arr items =>
    obtain ⟨-, rfl⟩ : items.length ≤ 4 ∧ Record.listed items = r := by
      simpa using Option.ite_none_right_eq_some.1 hr
    exact Option.some.inj h
  | _ => cases hr

/-- The steps of a payload are the items of its list of steps that are not gaps, in their order,
each read on its own. -/
theorem mapM_timelineItems {v : Json} {p : SyncPayload} (h : ofJson? v = some p) :
    ((timelineItems v).filter (· ≠ .null)).mapM Step.ofJson? = some p.timeline := by
  obtain ⟨r, hr, h⟩ := Option.bind_eq_some_iff.1 h
  obtain ⟨nodes, -, h⟩ := Option.bind_eq_some_iff.1 h
  obtain ⟨timeline, htimeline, h⟩ := Option.bind_eq_some_iff.1 h
  obtain ⟨timelineId, -, h⟩ := Option.bind_eq_some_iff.1 h
  obtain ⟨nodeId, -, hp⟩ := Option.bind_eq_some_iff.1 h
  cases hp
  obtain ⟨part, hpart, hread⟩ := Option.bind_eq_some_iff.1 htimeline
  rw [timelineItems, timelinePart?_eq hr hpart]
  cases part with
  | none => exact hread
  | some w =>
    cases w with
    | null => exact hread
    | arr items => exact (readTimeline?_arr items).symm.trans hread
    | _ => cases hread

/-! ## Payloads that are spelled differently -/

/-- One difference that does not matter: a gap among the steps, or an identifier that is given as a
whole number and not as its decimal text. -/
inductive Respelled (v w : Json) : Prop where
  | gap (h : timelineField.Exchanged GapInserted v w)
  /-- The selected node. -/
  | nodeId (h : nodeIdField.Exchanged Numeral v w)
  /-- The identifier of a node. -/
  | id (h : nodesField.Exchanged (ItemExchanged (NodeSnapshot.idField.Exchanged Numeral)) v w)
  /-- The frame of a node. -/
  | frame (h : nodesField.Exchanged (ItemExchanged (NodeSnapshot.dataField.Exchanged
      (NodeSnapshot.frameField.Exchanged Numeral))) v w)
  /-- The frame of a step. -/
  | stepFrame (h : timelineField.Exchanged (ItemExchanged (Step.frameField.Exchanged Numeral)) v w)

lemma agree_gapInserted : Agree GapInserted readTimeline? readTimeline? := by
  intro v w h
  obtain ⟨before, after⟩ := h
  rw [readTimeline?_arr, readTimeline?_arr, List.filter_append, List.filter_append,
    List.filter_cons_of_neg (by simp)]

/-- The list of steps is the same if one step in it reads the same. -/
lemma agree_stepExchanged (hR : Agree R Source.identifier? Source.identifier?) :
    Agree (ItemExchanged (Step.frameField.Exchanged R)) readTimeline? readTimeline? := by
  have hlist := ItemExchanged.list? (Field.Exchanged.nullable? (Step.agree_exchanged hR))
  intro v w h
  have hvw := hlist h
  obtain ⟨before, after, h⟩ := h
  exact congrArg (fun o => (Option.map some o).map _) hvw

/-- None of the differences matters to what is read. -/
theorem agree_respelled : Agree Respelled ofJson? ofJson? := by
  intro v w h
  have hid := Numeral.identifier?
  cases h with
  | gap h => exact agree_exchanged_timeline agree_gapInserted h
  | nodeId h => exact agree_exchanged_nodeId hid h
  | id h =>
    have hnode := NodeSnapshot.agree_exchanged_id hid
    exact agree_exchanged_nodes (ItemExchanged.list? hnode) h
  | frame h =>
    have hdata := NodeSnapshot.agree_exchanged_data (NodeSnapshot.agree_exchanged_frame hid)
    exact agree_exchanged_nodes (ItemExchanged.list? hdata) h
  | stepFrame h => exact agree_exchanged_timeline (agree_stepExchanged hid) h

/-- Nor does any number of differences. -/
lemma ofJson?_eq_of_eqvGen {v w : Json} (h : Relation.EqvGen Respelled v w) :
    ofJson? v = ofJson? w := by
  induction h with
  | rel v w h => exact agree_respelled h
  | refl v => rfl
  | symm v w _ ih => exact ih.symm
  | trans u v w _ _ ih ih' => exact ih.trans ih'

/-! ## The normal form -/

/-- What is read as a payload, from a value or from a text, is in normal form: it can be written,
with the members of its records in the order in which they are written or in that of their names,
and what is read then is the same payload, with the same cursor.  Its steps are those items of the
list that was given that are not gaps, in their order, each read on its own.  It does not matter
where there are gaps, and which of the identifiers of nodes and frames are given as whole numbers
and which as the decimal texts of these. -/
theorem normal_form :
    (∀ p : SyncPayload, ((∃ v, ofJson? v = some p) ∨ ∃ text, ofText? text = some p) →
      ofJson? p.toJson = some p ∧ ofJson? (p.written Json.object) = some p) ∧
    (∀ v p, ofJson? v = some p →
      ((timelineItems v).filter (· ≠ .null)).mapM Step.ofJson? = some p.timeline) ∧
    ∀ v w, Relation.EqvGen Respelled v w → ofJson? v = ofJson? w := by
  refine ⟨fun p hread => ?_, fun v p h => mapM_timelineItems h, fun v w h => ofJson?_eq_of_eqvGen h⟩
  have hstable : p.Stable := by
    rcases hread with ⟨v, hv⟩ | ⟨text, htext⟩
    · exact stable_of_ofSource? Step.nullAware_json hv
    · obtain ⟨n, -, hn⟩ := Option.bind_eq_some_iff.1 htext
      exact stable_of_ofSource? Step.nullAware_nested hn
  rw [toJson_eq_written]
  exact ⟨ofJson?_written Record.arranges_obj hstable,
    ofJson?_written Record.arranges_object hstable⟩

/-- A payload with a gap among its steps and with numbers for a node, its frame and the selected
node is read as the one without the gap in which the selected node is a text. -/
theorem normal_form_with_numbers :
    let node : Json := .obj [("data", .obj [("framePointer", .int 12)]), ("id", .int (-2))]
    let step : Json := .obj [("event", .str "line"), ("id", .nat 1)]
    let given : Json := .obj [("node_id", .int 7), ("nodes", .arr [node]),
      ("timeline", .arr [.null, step]), ("timeline_id", .int 1)]
    let other : Json := .obj [("node_id", .str "7"), ("nodes", .arr [node]),
      ("timeline", .arr [step]), ("timeline_id", .int 1)]
    ∃ p : SyncPayload,
      p.nodes = [⟨"-2", "", some "12"⟩] ∧ p.nodeId = some "7" ∧ p.cursor = some 1 ∧
      ofJson? given = some p ∧ ofJson? other = some p ∧
      ofJson? p.toJson = some p ∧ ofJson? (p.written Json.object) = some p ∧
      ((timelineItems given).filter (· ≠ .null)).mapM Step.ofJson? = some p.timeline := by
  intro node step given other
  have hread : ofJson? given = some
      { nodes := [⟨"-2", "", some "12"⟩], timeline := [Step.ofKind 1 .line], timelineId := some 1
        nodeId := some "7" } := by
    decide +kernel
  have hgap : Respelled other (.obj [("node_id", .str "7"), ("nodes", .arr [node]),
      ("timeline", .arr [.null, step]), ("timeline_id", .int 1)]) :=
    .gap (.member [("node_id", .str "7"), ("nodes", .arr [node])] [("timeline_id", .int 1)]
      (by decide) (.intro [] [step]))
  have hnumber : Respelled (.obj [("node_id", .str "7"), ("nodes", .arr [node]),
      ("timeline", .arr [.null, step]), ("timeline_id", .int 1)]) given :=
    .nodeId (.member [] [("nodes", .arr [node]), ("timeline", .arr [.null, step]),
      ("timeline_id", .int 1)] (by decide) (.intro 7))
  have hsame : ofJson? other = ofJson? given :=
    normal_form.2.2 other given (.trans _ _ _ (.rel _ _ hgap) (.rel _ _ hnumber))
  obtain ⟨hfields, hnames⟩ := normal_form.1 _ (.inl ⟨given, hread⟩)
  exact ⟨_, rfl, rfl, by decide, hread, hsame.trans hread, hfields, hnames,
    normal_form.2.1 given _ hread⟩

end SyncPayload

end TraceTimeline
