import TraceTimeline.CommandLine.Run
import TraceTimeline.Proofs.Json.Reading
import TraceTimeline.Proofs.Step.Alike
import TraceTimeline.Proofs.Timeline.Reconstruction
import TraceTimeline.Proofs.Timeline.Retained

/-!
# What inspections show

An inspection loads the time line of a recording into a store of some capacity and shows the scope
at a position.  What it shows is the fold of all steps up to the position, so that the capacity only
decides whether there is anything to show (`Inspection.scope_eq_ok_iff`).

A payload that stands alone is read part by part, and one in a frame is read as a value first.  Both
ways lead to the same end where the payload repeats no name and every number and text in it denotes
something (`inspected_framed`), but not elsewhere (`inspected_syncFrame_differs`).
-/

namespace TraceTimeline

variable {members : List (Option String × Document)} {text framed : String} {v : Json}

/-! ## Two ways to a payload -/

/-- The names of members that are read part by part are those of the document. -/
lemma Nested.names_of_members? {room : Nat} {ms : List (String × Nested)}
    (h : Nested.members? room members = some ms) :
    members.map (·.1) = ms.map fun m => some m.1 := by
  induction members generalizing ms with
  | nil =>
    obtain rfl := Option.some.inj h
    rfl
  | cons m rest ih =>
    obtain ⟨name, d⟩ := m
    rw [Nested.members?] at h
    obtain ⟨k, hk, h⟩ := Option.bind_eq_some_iff.1 h
    obtain ⟨ms', hms', h⟩ := Option.bind_eq_some_iff.1 h
    obtain rfl := Option.some.inj h
    rw [List.map_cons, List.map_cons, ih hms', hk]

namespace Frame

/-- A text without a type spells no envelope. -/
lemma Envelope.ofText?_of_notMem (h : Document.ofText? text = some (.obj members))
    (htype : some "type" ∉ members.map (·.1)) : Envelope.ofText? text = none := by
  have hnested : Nested.ofText? text = some ⟨.obj members, Document.nestingLimit⟩ := by
    rw [Nested.ofText?, h]
    rfl
  have hlayer : Source.layer? (⟨.obj members, Document.nestingLimit⟩ : Nested) =
      (Nested.members? (Document.nestingLimit - 1) members).map .obj := rfl
  rw [Envelope.ofText?, hnested]
  simp only [Option.bind_eq_bind, Option.bind_some]
  rw [Record.of?, hlayer]
  cases hms : Nested.members? (Document.nestingLimit - 1) members with
  | none => rfl
  | some ms =>
    have hnone : ms.filter (fun m => typeField.names.contains m.1) = [] := by
      refine List.filter_eq_nil_iff.2 fun m hm hcontains => htype ?_
      rw [Nested.names_of_members? hms]
      refine List.mem_map.2 ⟨m, hm, congrArg some ?_⟩
      simpa [typeField] using hcontains
    simp only [Option.map_some, Option.bind_some, Record.required?, Record.part?, hnone]
    rfl

/-- The envelope of a framed payload. -/
lemma Envelope.ofText?_framed
    (h : Document.ofText? text =
      some (.obj [(some "type", .str (some "sync")), (some "data", .obj members)]))
    (hvalue : (Document.obj members).value? (Document.nestingLimit - 1) = some v) :
    Envelope.ofText? text = some ⟨"sync", v⟩ := by
  have hnested : Nested.ofText? text = some ⟨.obj [(some "type", .str (some "sync")),
      (some "data", .obj members)], Document.nestingLimit⟩ := by
    rw [Nested.ofText?, h]
    rfl
  rw [Envelope.ofText?, hnested]
  show ((Document.obj members).value? (Document.nestingLimit - 1)).bind _ = _
  rw [hvalue]
  rfl

end Frame

namespace Inspection

/-- A text without a type is read as a payload itself. -/
lemma payload?_of_notMem (h : Document.ofText? text = some (.obj members))
    (htype : some "type" ∉ members.map (·.1)) : payload? text = SyncPayload.ofText? text := by
  have hmalformed : Frame.Envelope.ofText? (Text.trim text) = none :=
    Frame.Envelope.ofText?_of_notMem (Document.ofText?_trim h) htype
  rw [payload?, Frame.decode, hmalformed]
  by_cases hblank : Text.trim text = ""
  · rw [if_pos hblank]
  · rw [if_neg hblank]

/-- A text with a payload in a frame is read as that payload, and as a payload itself if that
fails. -/
lemma payload?_framed
    (h : Document.ofText? framed =
      some (.obj [(some "type", .str (some "sync")), (some "data", .obj members)]))
    (hvalue : (Document.obj members).value? (Document.nestingLimit - 1) = some v) :
    payload? framed = (SyncPayload.ofJson? v).or (SyncPayload.ofText? framed) := by
  have htrim := Document.ofText?_trim h
  have hblank : Text.trim framed ≠ "" := by
    intro hblank
    have hempty : Document.ofText? "" = none := by decide +kernel
    rw [hblank, hempty] at htrim
    cases htrim
  have hdecode : Frame.decode framed = Frame.ofEnvelope ⟨"sync", v⟩ := by
    rw [Frame.decode, if_neg hblank, Frame.Envelope.ofText?_framed htrim hvalue]
  rw [payload?, hdecode]
  cases hpayload : SyncPayload.ofJson? v with
  | some payload =>
    have hframe : Frame.ofEnvelope ⟨"sync", v⟩ = .ok (.sync payload) := by
      simp only [Frame.ofEnvelope, hpayload]
    rw [hframe, Option.some_or]
  | none =>
    have hframe : Frame.ofEnvelope ⟨"sync", v⟩ = .error (.invalidPayload .sync) := by
      simp only [Frame.ofEnvelope, hpayload]
    rw [hframe, Option.none_or]

lemma ofText?_framed
    (h : Document.ofText? framed =
      some (.obj [(some "type", .str (some "sync")), (some "data", .obj members)])) :
    SyncPayload.ofText? framed = some ⟨[], [], none, none⟩ := by
  rw [SyncPayload.ofText?, Nested.ofText?, h]
  rfl

/-! ## What is shown -/

/-- The store of an inspection holds the steps of the payload, of which the last one of a number
counts. -/
lemma holds_storeOf (capacity : Nat) (policy : CarryPolicy) (payload : SyncPayload)
    (cursor : Option StepId) :
    (storeOf capacity policy payload cursor).Holds (Chronicle.ofList payload.timeline) :=
  (Store.Sound.new capacity policy).holds_replaceAll payload.timeline cursor

/-- An inspection has a result where its store has a scope. -/
lemma scope_eq_ok_iff_scopeAt (capacity : Nat) (policy : CarryPolicy) (position : Option StepId)
    (payload : SyncPayload) (shown : Scope) :
    scope capacity policy position payload = .ok shown ↔
      ∃ id, position.or payload.cursor = some id ∧
        (storeOf capacity policy payload (some id)).scopeAt id = some shown := by
  unfold scope
  cases position.or payload.cursor with
  | none => simp
  | some id =>
    dsimp only
    cases hscope : (storeOf capacity policy payload (some id)).scopeAt id with
    | some scope => simp [hscope]
    | none =>
      cases (storeOf capacity policy payload (some id)).horizon <;> simp [hscope]

/-- An inspection has a result if a position is given, there are steps, and no step above the
position was evicted.  It is the fold of all steps up to the position. -/
theorem scope_eq_ok_iff {capacity : Nat} (hcapacity : 1 ≤ capacity) (policy : CarryPolicy)
    (position : Option StepId) (payload : SyncPayload) (shown : Scope) :
    let known := Chronicle.ofList payload.timeline
    scope capacity policy position payload = .ok shown ↔
      ∃ id, position.or payload.cursor = some id ∧
        (known.steps ≠ [] ∧ ∀ y ∈ known.early capacity, y.id ≤ id) ∧
        Scope.initial.applyAll policy (known.upTo id) = shown := by
  intro known
  rw [scope_eq_ok_iff_scopeAt]
  refine exists_congr fun id => and_congr_right fun _ => ?_
  have hholds := holds_storeOf capacity policy payload (some id)
  obtain ⟨hkept, hpolicy⟩ := (Store.new capacity policy).capacity_and_policy_perform
    (.replaceAll payload.timeline (some id))
  have hcapacity' : (storeOf capacity policy payload (some id)).capacity = capacity :=
    hkept.trans (Nat.max_eq_left hcapacity)
  have hpolicy' : (storeOf capacity policy payload (some id)).policy = policy := hpolicy
  rw [hholds.scopeAt_eq_some_iff, hcapacity', hpolicy']

end Inspection

namespace CommandLine

lemma fileText_toUTF8 (text : String) : fileText text.toUTF8 = .ok text := by
  have h : String.fromUTF8? text.toUTF8 = some text := by
    rw [String.fromUTF8?, String.toUTF8_eq_toByteArray, dif_pos text.isValidUTF8]
    rfl
  rw [fileText, h]

/-- How the inspection of a file with a text ends. -/
def inspected (capacity : Nat) (policy : CarryPolicy) (position : Option StepId)
    (path text : String) : Ending :=
  .ofInspection (Inspection.ofFile capacity policy position path (.ok text.toUTF8))

/-- That is how the task ends on any file system in which the text is found at the path. -/
lemma perform_inspect {m : Type → Type} [Monad m] [LawfulMonad m] [FileSystem m]
    (settings : Settings) (position : Option StepId) (policy : Option CarryPolicy)
    {path text : String} (h : FileSystem.read (m := m) path = pure (.ok text.toUTF8)) :
    perform (m := m) settings (.inspect path position policy) =
      pure (.finished (inspected settings.timelineCapacity (policy.getD settings.policy) position
        path text)) := by
  rw [perform, h, pure_bind]
  rfl

lemma Ending.exitCode_ofInspection_eq_zero_iff (result : Except InspectionError Scope) :
    (ofInspection result).exitCode = 0 ↔ ∃ shown, result = .ok shown := by
  cases result <;> simp [ofInspection, success, failure]

/-- What is read from a text decides how its inspection ends. -/
lemma inspected_eq (capacity : Nat) (policy : CarryPolicy) (position : Option StepId)
    (path text : String) :
    inspected capacity policy position path text =
      .ofInspection (match Inspection.payload? text with
        | none => .error (.notPayload path)
        | some payload => Inspection.scope capacity policy position payload) := by
  rw [inspected, Inspection.ofFile, Except.bind, fileText_toUTF8]
  rfl

/-- In a payload without steps there is nothing to show. -/
lemma exists_scope_eq_error {capacity : Nat} (hcapacity : 1 ≤ capacity) (policy : CarryPolicy)
    (position : Option StepId) (payload : SyncPayload) (h : payload.timeline = []) :
    ∃ e, Inspection.scope capacity policy position payload = .error e := by
  cases hscope : Inspection.scope capacity policy position payload with
  | error e => exact ⟨e, rfl⟩
  | ok shown =>
    obtain ⟨id, -, ⟨hknown, -⟩, -⟩ :=
      (Inspection.scope_eq_ok_iff hcapacity policy position payload shown).1 hscope
    rw [h] at hknown
    exact absurd rfl hknown

/-- An inspection ends the same way whether the payload stands alone or in a frame. -/
theorem inspected_framed (htext : Document.ofText? text = some (.obj members))
    (hframed : Document.ofText? framed =
      some (.obj [(some "type", .str (some "sync")), (some "data", .obj members)]))
    (htype : some "type" ∉ members.map (·.1))
    (hdiffer : (Document.obj members).namesDiffer = true)
    (hvalue : (Document.obj members).value? (Document.nestingLimit - 1) = some v)
    {capacity : Nat} (hcapacity : 1 ≤ capacity) (policy : CarryPolicy)
    (position : Option StepId) (path path' : String) :
    let direct := inspected capacity policy position path text
    let wrapped := inspected capacity policy position path' framed
    direct.exitCode = wrapped.exitCode ∧ direct.output = wrapped.output := by
  have hnested : Nested.ofText? text = some ⟨.obj members, Document.nestingLimit⟩ := by
    rw [Nested.ofText?, htext]
    rfl
  have hdirect : Inspection.payload? text = SyncPayload.ofJson? v := by
    rw [Inspection.payload?_of_notMem htext htype, SyncPayload.ofText?, hnested, Option.bind_some]
    exact SyncPayload.ofSource?_eq_of_denotes hdiffer hvalue (Nat.sub_le ..)
  have hwrapped := Inspection.payload?_framed hframed hvalue
  rw [Inspection.ofText?_framed hframed] at hwrapped
  dsimp only
  rw [inspected_eq, inspected_eq, hdirect, hwrapped]
  cases SyncPayload.ofJson? v with
  | some payload => exact ⟨rfl, rfl⟩
  | none =>
    -- the frame is taken for a payload of its own, which has no steps to show
    obtain ⟨e, he⟩ :=
      exists_scope_eq_error hcapacity policy position ⟨[], [], none, none⟩ rfl
    rw [Option.none_or]
    dsimp only
    rw [he]
    exact ⟨rfl, rfl⟩

section

variable {payload : SyncPayload} {capacity : Nat} {policy : CarryPolicy}
  {position : Option StepId} {path : String}

/-- When an inspection of a payload succeeds. -/
lemma inspected_succeeds_iff (h : Inspection.payload? text = some payload)
    (hcapacity : 1 ≤ capacity) :
    let known := Chronicle.ofList payload.timeline
    (inspected capacity policy position path text).exitCode = 0 ↔
      ∃ id, position.or payload.cursor = some id ∧ known.steps ≠ [] ∧
        (known.steps.length ≤ capacity ∨
          ∃ x, known.steps[known.steps.length - capacity - 1]? = some x ∧ x.id ≤ id) := by
  intro known
  rw [inspected_eq, h, Ending.exitCode_ofInspection_eq_zero_iff]
  constructor
  · rintro ⟨shown, hshown⟩
    obtain ⟨id, hid, ⟨hknown, hearly⟩, -⟩ :=
      (Inspection.scope_eq_ok_iff hcapacity policy position payload shown).1 hshown
    exact ⟨id, hid, hknown, (known.forall_mem_early_iff capacity id).1 hearly⟩
  · rintro ⟨id, hid, hknown, hlast⟩
    have hearly := (known.forall_mem_early_iff capacity id).2 hlast
    exact ⟨_, (Inspection.scope_eq_ok_iff hcapacity policy position payload _).2
      ⟨id, hid, ⟨hknown, hearly⟩, rfl⟩⟩

/-- What an inspection of a payload prints if it succeeds. -/
lemma output_inspected (h : Inspection.payload? text = some payload) (hcapacity : 1 ≤ capacity)
    (hsuccess : (inspected capacity policy position path text).exitCode = 0) :
    ∃ id, position.or payload.cursor = some id ∧
      (inspected capacity policy position path text).output =
        (Scope.initial.applyAll policy
          ((Chronicle.ofList payload.timeline).upTo id)).toJson.pretty ++ "\n" := by
  rw [inspected_eq, h] at hsuccess ⊢
  obtain ⟨shown, hshown⟩ := (Ending.exitCode_ofInspection_eq_zero_iff _).1 hsuccess
  obtain ⟨id, hid, -, hfold⟩ :=
    (Inspection.scope_eq_ok_iff hcapacity policy position payload shown).1 hshown
  refine ⟨id, hid, ?_⟩
  dsimp only at hshown ⊢
  rw [hshown, hfold]
  rfl

end

/-- **Inspections show the true scope.**  Let a text spell an object without a type.  If no object
in it repeats a name and it denotes a value, also nested one level deeper, then an inspection of the
text ends with the same exit code and prints the same as an inspection of any text that has the
object as the data of a `sync` frame.

If the text is a payload, let `known` have for every number its last step of that number, in
ascending order.  The inspection succeeds exactly if a position is given or selected, something is
known, and the position is not below the last step that does not fit the capacity.  It then prints
the fold of all known steps up to the position, whatever the capacity. -/
theorem inspected_eq_fold {text : String} {members : List (Option String × Document)}
    (htext : Document.ofText? text = some (.obj members))
    (htype : some "type" ∉ members.map (·.1)) {capacity : Nat} (hcapacity : 1 ≤ capacity)
    (policy : CarryPolicy) (position : Option StepId) (path : String) :
    let direct := inspected capacity policy position path text
    (∀ framed v path',
      Document.ofText? framed =
        some (.obj [(some "type", .str (some "sync")), (some "data", .obj members)]) →
      (Document.obj members).namesDiffer = true →
      (Document.obj members).value? (Document.nestingLimit - 1) = some v →
      let wrapped := inspected capacity policy position path' framed
      direct.exitCode = wrapped.exitCode ∧ direct.output = wrapped.output) ∧
    ∀ payload, SyncPayload.ofText? text = some payload →
      let known := Chronicle.ofList payload.timeline
      let selected := position.or payload.cursor
      (∀ id, known.find? id = payload.timeline.reverse.find? (·.id = id)) ∧
      (direct.exitCode = 0 ↔ ∃ id, selected = some id ∧ known.steps ≠ [] ∧
        (known.steps.length ≤ capacity ∨
          ∃ x, known.steps[known.steps.length - capacity - 1]? = some x ∧ x.id ≤ id)) ∧
      (∀ id, selected = some id → direct.exitCode = 0 → direct.output =
        (Scope.initial.applyAll policy (known.upTo id)).toJson.pretty ++ "\n") ∧
      ∀ capacity', 1 ≤ capacity' → direct.exitCode = 0 →
        (inspected capacity' policy position path text).exitCode = 0 →
        (inspected capacity' policy position path text).output = direct.output := by
  intro direct
  refine ⟨fun framed v path' hframed hdiffer hvalue =>
    inspected_framed htext hframed htype hdiffer hvalue hcapacity policy position path path',
    fun payload hpayload => ?_⟩
  intro known selected
  have hread : Inspection.payload? text = some payload :=
    (Inspection.payload?_of_notMem htext htype).trans hpayload
  refine ⟨Chronicle.find?_ofList payload.timeline, inspected_succeeds_iff hread hcapacity, ?_, ?_⟩
  · intro id hid hsuccess
    obtain ⟨id', hid', houtput⟩ := output_inspected hread hcapacity hsuccess
    obtain rfl := Option.some.inj (hid'.symm.trans hid)
    exact houtput
  · intro capacity' hcapacity' hsuccess hsuccess'
    -- neither output depends on the capacity: both are the fold up to the position
    obtain ⟨id, hid, houtput⟩ := output_inspected hread hcapacity hsuccess
    obtain ⟨id', hid', houtput'⟩ := output_inspected hread hcapacity' hsuccess'
    obtain rfl := Option.some.inj (hid'.symm.trans hid)
    exact houtput'.trans houtput.symm

/-! ## Frames around given texts -/

/-- The text of a frame around the text of a payload. -/
def syncFrame (payload : String) : String :=
  "\x7b\x22type\x22:\x22sync\x22,\x22data\x22:" ++ payload ++ "\x7d"

/-- What can be computed about the members that a text spells holds of some members. -/
lemma exists_members (text : String) (check : List (Option String × Document) → Bool)
    (h : (match Document.ofText? text with
      | some (.obj members) => check members
      | _ => false) = true) :
    ∃ members, Document.ofText? text = some (.obj members) ∧ check members = true := by
  split at h
  · next members hmembers => exact ⟨members, hmembers, h⟩
  · cases h

/-- The theorem at a time line of two steps, for a store that retains one of them. -/
theorem inspected_eq_fold_two_steps :
    let text := "\x7b\x22timeline\x22:[\x7b\x22id\x22:1\x7d,\x7b\x22id\x22:2\x7d]," ++
      "\x22timeline_id\x22:1\x7d"
    (∃ members v, Document.ofText? text = some (.obj members) ∧
      some "type" ∉ members.map (·.1) ∧
      Document.ofText? (syncFrame text) =
        some (.obj [(some "type", .str (some "sync")), (some "data", .obj members)]) ∧
      (Document.obj members).namesDiffer = true ∧
      (Document.obj members).value? (Document.nestingLimit - 1) = some v) ∧
    (SyncPayload.ofText? text).isSome = true ∧ 1 ≤ 1 ∧
    (inspected 1 .sticky none "run.json" text).exitCode =
      (inspected 1 .sticky none "frame.json" (syncFrame text)).exitCode ∧
    (inspected 1 .sticky none "run.json" text).output =
      (inspected 1 .sticky none "frame.json" (syncFrame text)).output := by
  intro text
  obtain ⟨members, htext, hcheck⟩ := exists_members text
    (fun members => decide (some "type" ∉ members.map (·.1)) &&
      (Document.obj members).namesDiffer &&
      ((Document.obj members).value? (Document.nestingLimit - 1)).isSome) (by decide +kernel)
  simp only [Bool.and_eq_true, decide_eq_true_eq, Option.isSome_iff_exists] at hcheck
  obtain ⟨⟨htype, hdiffer⟩, v, hvalue⟩ := hcheck
  have hframed := Document.ofText?_framed htext
  obtain ⟨hending, -⟩ := inspected_eq_fold htext htype (Nat.le_refl 1) .sticky none "run.json"
  exact ⟨⟨members, v, htext, htype, hframed, hdiffer, hvalue⟩, by decide +kernel,
    Nat.le_refl 1, hending (syncFrame text) v "frame.json" hframed hdiffer hvalue⟩

/-- A number that is out of range, in a member that no field reads, spoils a frame and does no harm
to a payload that stands alone.  A field that is given twice spoils a payload that stands alone and
does no harm to a frame. -/
theorem inspected_syncFrame_differs :
    let unread := "\x7b\x22timeline\x22:[\x7b\x22id\x22:1\x7d],\x22timeline_id\x22:1," ++
      "\x22x\x22:1e9999999999\x7d"
    let repeated := "\x7b\x22timeline\x22:[\x7b\x22id\x22:1\x7d],\x22timeline_id\x22:1," ++
      "\x22timeline_id\x22:1\x7d"
    ((∃ members, Document.ofText? unread = some (.obj members) ∧
        some "type" ∉ members.map (·.1)) ∧
      (inspected 1 .sticky none "run.json" unread).exitCode = 0 ∧
      (inspected 1 .sticky none "frame.json" (syncFrame unread)).exitCode = 1) ∧
    ((∃ members, Document.ofText? repeated = some (.obj members) ∧
        some "type" ∉ members.map (·.1)) ∧
      (inspected 1 .sticky none "run.json" repeated).exitCode = 1 ∧
      (inspected 1 .sticky none "frame.json" (syncFrame repeated)).exitCode = 0) := by
  intro unread repeated
  have untyped {text : String} (h : (match Document.ofText? text with
      | some (.obj members) => decide (some "type" ∉ members.map (·.1))
      | _ => false) = true) :
      ∃ members, Document.ofText? text = some (.obj members) ∧
        some "type" ∉ members.map (·.1) := by
    obtain ⟨members, hmembers, hcheck⟩ :=
      exists_members text (fun members => decide (some "type" ∉ members.map (·.1))) h
    exact ⟨members, hmembers, of_decide_eq_true hcheck⟩
  refine ⟨⟨untyped ?_, ?_, ?_⟩, untyped ?_, ?_, ?_⟩ <;> decide +kernel

end CommandLine

end TraceTimeline
