import TraceTimeline.Proofs.Json.Alike
import TraceTimeline.Proofs.Step.Wire
import TraceTimeline.Sync

/-!
# Sync payloads read back

A payload is written as a record of records.  What is read where a payload was written is that
payload, if nothing in it gets lost on the wire (`SyncPayload.Stable`): its steps have to read back
as themselves, and the number of the selected step has to be in range.  Whatever was read is stable
(`SyncPayload.stable_of_ofSource?`), however its identifiers, its missing parts and its gaps were
given.

The members of the objects may be arranged in any way, in particular in the order in which they are
written and in that of their names.
-/

namespace TraceTimeline

open Record (Arranges)

variable {object : List (String × Json) → Json}

namespace Source

variable {α β : Type} [Source α]

/-- What was read where `null` is allowed, and is not `null`, was read. -/
lemma read_of_nullable? {read : α → Option β} {a : α} {b : β}
    (h : nullable? read a = some (some b)) : read a = some b := by
  unfold nullable? at h
  split at h
  · cases h
  · cases h
  · obtain ⟨b', hb', heq⟩ := Option.map_eq_some_iff.1 h
    rwa [← Option.some.inj heq]

lemma identifier?_ofOption (o : Option String) : identifier? (Json.ofOption .str o) = some o := by
  cases o <;> rfl

/-- A number reads back as itself if it is in range, also where there is none. -/
lemma int64?_ofOption {o : Option Int} (h : ∀ n, o = some n → Text.isSigned64 n = true) :
    nullable? int64? (Json.ofOption .int o) = some o := by
  cases o with
  | none => rfl
  | some n =>
    show (int64? (Json.int n)).map some = some (some n)
    have hint : int64? (Json.int n) = if Text.isSigned64 n then some n else none := rfl
    rw [hint, if_pos (h n rfl), Option.map_some]

end Source

/-! ## Nodes -/

namespace NodeSnapshot

/-- The value of a node's description, with the object put together in some way. -/
def writtenData (object : List (String × Json) → Json) (n : NodeSnapshot) : Json :=
  object [("source_segment", .str n.sourceText), ("framePointer", .ofOption .str n.frame)]

/-- The value of a node, with objects put together in some way. -/
def written (object : List (String × Json) → Json) (n : NodeSnapshot) : Json :=
  object [("id", .str n.id), ("data", n.writtenData object)]

/-- A node's description reads back as itself. -/
lemma readData?_written (h : Arranges object) (n : NodeSnapshot) :
    readData? (n.writtenData object) = some (n.sourceText, n.frame) := by
  have hfields : Record.Distinct [sourceTextField, frameField] := by decide
  obtain ⟨r, hr, part⟩ := Record.of?_written h
    [(sourceTextField, some (.str n.sourceText)), (frameField, some (.ofOption .str n.frame))]
    hfields 2
  have hsource := Record.optional?_eq (part 0 rfl) "" Source.string?
  have hframe := (Record.optional?_eq (part 1 rfl) none Source.identifier?).trans
    (Source.identifier?_ofOption n.frame)
  refine Option.bind_eq_some_iff.2 ⟨r, hr, ?_⟩
  refine Option.bind_eq_some_iff.2 ⟨_, hsource, ?_⟩
  exact Option.bind_eq_some_iff.2 ⟨_, hframe, rfl⟩

/-- A node reads back as itself. -/
theorem ofJson?_written (h : Arranges object) (n : NodeSnapshot) :
    ofJson? (n.written object) = some n := by
  have hfields : Record.Distinct [idField, dataField] := by decide
  obtain ⟨r, hr, part⟩ := Record.of?_written h
    [(idField, some (.str n.id)), (dataField, some (n.writtenData object))] hfields 2
  have hid := Record.required?_eq (part 0 rfl) Source.identifier?
  have hdata := (Record.optional?_eq (part 1 rfl) ("", none) readData?).trans
    (n.readData?_written h)
  refine Option.bind_eq_some_iff.2 ⟨r, hr, ?_⟩
  refine Option.bind_eq_some_iff.2 ⟨_, hid, ?_⟩
  exact Option.bind_eq_some_iff.2 ⟨_, hdata, rfl⟩

end NodeSnapshot

namespace SyncPayload

/-! ## The list of steps -/

/-- Gaps are dropped, and what is left is read step by step. -/
lemma readTimeline?_arr (items : List Json) :
    readTimeline? (Json.arr items) = (items.filter (· ≠ .null)).mapM Step.ofJson? := by
  have hread : readTimeline? (Json.arr items) =
      (items.mapM (Source.nullable? Step.ofSource?)).map (List.filterMap fun s => s) :=
    Option.map_map ..
  rw [hread]
  clear hread
  induction items with
  | nil => rfl
  | cons v rest ih =>
    rw [List.mapM_cons, List.filter_cons]
    -- an item is a gap or a step
    by_cases hv : v = .null
    · have hgap : Source.nullable? Step.ofSource? v = some none := by
        rw [hv]
        rfl
      rw [if_neg (by simp [hv]), ← ih, hgap]
      cases rest.mapM (Source.nullable? Step.ofSource?) <;> rfl
    · have hstep : Source.nullable? Step.ofSource? v = (Step.ofJson? v).map some := by
        cases v with
        | null => exact absurd rfl hv
        | _ => rfl
      rw [if_pos (by simp [hv]), List.mapM_cons, ← ih, hstep]
      cases Step.ofJson? v with
      | none => rfl
      | some s => cases rest.mapM (Source.nullable? Step.ofSource?) <;> rfl

/-- Every step of a list that was read was read from some item. -/
lemma exists_ofSource?_of_mem {α : Type} [Source α] {a : α} {steps : List Step}
    (h : readTimeline? a = some steps) {s : Step} (hs : s ∈ steps) :
    ∃ b : α, Step.ofSource? b = some s := by
  obtain ⟨read, hread, rfl⟩ := Option.map_eq_some_iff.1 h
  cases read with
  | none => exact absurd hs List.not_mem_nil
  | some read =>
    have hlist := Source.read_of_nullable? hread
    unfold Source.list? at hlist
    split at hlist
    · next items hlayer =>
      obtain ⟨o, ho, rfl⟩ := List.mem_filterMap.1 hs
      obtain ⟨b, -, hb⟩ := exists_of_mem_mapM hlist ho
      exact ⟨b, Source.read_of_nullable? hb⟩
    · cases hlist

/-! ## The whole payload -/

/-- The value of a payload, with objects put together in some way. -/
def written (object : List (String × Json) → Json) (p : SyncPayload) : Json :=
  object [("nodes", .arr (p.nodes.map (·.written object))),
    ("timeline", .arr (p.timeline.map fun s => object s.members)),
    ("timeline_id", .ofOption .int p.timelineId), ("node_id", .ofOption .str p.nodeId)]

lemma toJson_eq_written (p : SyncPayload) : p.toJson = p.written .obj := rfl

/-- Nothing in the payload gets lost on the wire. -/
structure Stable (p : SyncPayload) : Prop where
  timeline : ∀ s ∈ p.timeline, s.reread = s
  timelineId : ∀ n, p.timelineId = some n → Text.isSigned64 n = true

/-- The list of steps reads back as itself, without gaps, if the steps do. -/
lemma readTimeline?_written (hobject : Arranges object) {steps : List Step}
    (h : ∀ s ∈ steps, s.reread = s) :
    readTimeline? (Json.arr (steps.map fun s => object s.members)) = some steps := by
  rw [readTimeline?_arr]
  have hstep (s : Step) : ∃ arranged, object s.members = .obj arranged ∧ arranged.Perm s.members :=
    hobject s.members s.nodup_members
  have hall : (steps.map fun s => object s.members).filter (· ≠ .null) =
      steps.map fun s => object s.members := by
    refine List.filter_eq_self.2 fun v hv => ?_
    obtain ⟨s, -, rfl⟩ := List.mem_map.1 hv
    obtain ⟨arranged, heq, -⟩ := hstep s
    simp [heq]
  rw [hall, mapM_eq_some_iff, List.forall₂_map_left_iff]
  refine List.forall₂_same.2 fun s hs => ?_
  obtain ⟨arranged, heq, hperm⟩ := hstep s
  rw [heq, s.ofJson?_of_perm hperm, h s hs]

/-- A stable payload reads back as itself. -/
theorem ofJson?_written (hobject : Arranges object) {p : SyncPayload} (h : p.Stable) :
    ofJson? (p.written object) = some p := by
  have hfields : Record.Distinct [nodesField, timelineField, timelineIdField, nodeIdField] := by
    decide
  obtain ⟨r, hr, part⟩ := Record.of?_written hobject
    [(nodesField, some (.arr (p.nodes.map (·.written object)))),
      (timelineField, some (.arr (p.timeline.map fun s => object s.members))),
      (timelineIdField, some (.ofOption .int p.timelineId)),
      (nodeIdField, some (.ofOption .str p.nodeId))] hfields 4
  have hlist : Source.list? NodeSnapshot.ofSource? (Json.arr (p.nodes.map (·.written object))) =
      some p.nodes :=
    mapM_eq_some_iff.2 (List.forall₂_map_left_iff.2 (List.forall₂_same.2 fun n _ =>
      n.ofJson?_written hobject))
  have hnodes := (Record.optional?_eq (part 0 rfl) [] (Source.list? NodeSnapshot.ofSource?)).trans
    hlist
  have htimeline := (Record.optional?_eq (part 1 rfl) [] readTimeline?).trans
    (readTimeline?_written hobject h.timeline)
  have htimelineId := (Record.optional?_eq (part 2 rfl) none (Source.nullable? Source.int64?)).trans
    (Source.int64?_ofOption h.timelineId)
  have hnodeId := (Record.optional?_eq (part 3 rfl) none Source.identifier?).trans
    (Source.identifier?_ofOption p.nodeId)
  refine Option.bind_eq_some_iff.2 ⟨r, hr, ?_⟩
  refine Option.bind_eq_some_iff.2 ⟨_, hnodes, ?_⟩
  refine Option.bind_eq_some_iff.2 ⟨_, htimeline, ?_⟩
  refine Option.bind_eq_some_iff.2 ⟨_, htimelineId, ?_⟩
  exact Option.bind_eq_some_iff.2 ⟨_, hnodeId, rfl⟩

/-- A payload that was read is stable. -/
theorem stable_of_ofSource? {α : Type} [Source α] (hα : Step.NullAware α) {a : α} {p : SyncPayload}
    (h : ofSource? a = some p) : p.Stable := by
  obtain ⟨r, -, h⟩ := Option.bind_eq_some_iff.1 h
  obtain ⟨nodes, -, h⟩ := Option.bind_eq_some_iff.1 h
  obtain ⟨timeline, htimeline, h⟩ := Option.bind_eq_some_iff.1 h
  obtain ⟨timelineId, htimelineId, h⟩ := Option.bind_eq_some_iff.1 h
  obtain ⟨nodeId, -, hp⟩ := Option.bind_eq_some_iff.1 h
  cases hp
  constructor
  · intro s hs
    rcases Record.optional?_cases htimeline with rfl | ⟨b, hb⟩
    · exact absurd hs List.not_mem_nil
    · obtain ⟨b', hb'⟩ := exists_ofSource?_of_mem hb hs
      exact Step.reread_of_ofSource? hα hb'
  · rintro n rfl
    rcases Record.optional?_cases htimelineId with hn | ⟨b, hb⟩
    · cases hn
    · have hread : Source.int64? b = some n := Source.read_of_nullable? hb
      obtain ⟨m, -, hm⟩ := Option.bind_eq_some_iff.1 hread
      obtain ⟨hrange, heq⟩ := Option.ite_none_right_eq_some.1 hm
      rwa [← Option.some.inj heq]

end SyncPayload

end TraceTimeline
