import TraceTimeline.Proofs.Json.Alike
import TraceTimeline.Sync

/-!
# Messages read from alike representations

Steps, nodes and sync payloads are made of readers that agree on alike representations, so they
agree themselves.  In particular a payload is the same whether a text is read as a record part by
part or as a value first, as the data of a frame is (`SyncPayload.ofSource?_eq_of_denotes`).
-/

namespace TraceTimeline

variable {α β γ : Type} [Source α] [Source β] {R : α → β → Prop}

namespace Step

/-- A step reads the same from alike representations. -/
theorem agree_ofSource? (hR : Alike R) :
    Agree R (Step.ofSource? (α := α)) (Step.ofSource? (α := β)) := by
  intro a b hab
  refine Record.bind_eq_of_rel (hR.of? fields.length hab) fun r r' hr => ?_
  have hkind : Agree R (readKind? (α := α)) (readKind? (α := β)) :=
    (hR.nullable? hR.string?).map _
  have htext := hR.nullable? hR.string?
  have hdiff : Agree R (readDiff? (α := α)) (readDiff? (α := β)) :=
    Agree.map (fun _ _ h => hR.value h) Diff.ofJson
  have hreport : Agree R (readReport? (α := α) Source.value?)
      (readReport? (α := β) Source.value?) := (hR.nullable? fun _ _ h => hR.value h).map _
  have htraceback : Agree R (readReport? (α := α) Source.string?)
      (readReport? (α := β) Source.string?) := htext.map _
  simp only [hr.required? idField hR.uint64?, hr.optional? kindField .other hkind,
    hr.optional? lineField none (hR.nullable? hR.uint32?),
    hr.optional? frameField none hR.identifier?, hr.optional? fileField none htext,
    hr.optional? functionField none htext, hr.optional? targetField none htext,
    hr.optional? sourceTextField none htext, hr.optional? globalsField Diff.none hdiff,
    hr.optional? localsField Diff.none hdiff, hr.optional? returnedField .absent hreport,
    hr.optional? errorField .absent hreport, hr.optional? tracebackField .absent htraceback]

end Step

namespace NodeSnapshot

lemma agree_readData? (hR : Alike R) :
    Agree R (readData? (α := α)) (readData? (α := β)) := by
  intro a b hab
  refine Record.bind_eq_of_rel (hR.of? 2 hab) fun r r' hr => ?_
  simp only [hr.optional? sourceTextField "" hR.string?,
    hr.optional? frameField none hR.identifier?]

lemma agree_ofSource? (hR : Alike R) :
    Agree R (NodeSnapshot.ofSource? (α := α)) (NodeSnapshot.ofSource? (α := β)) := by
  intro a b hab
  refine Record.bind_eq_of_rel (hR.of? 2 hab) fun r r' hr => ?_
  simp only [hr.required? idField hR.identifier?,
    hr.optional? dataField ("", none) (agree_readData? hR)]

end NodeSnapshot

namespace SyncPayload

lemma agree_readTimeline? (hR : Alike R) :
    Agree R (readTimeline? (α := α)) (readTimeline? (α := β)) :=
  (hR.nullable? (hR.list? (hR.nullable? (Step.agree_ofSource? hR)))).map _

/-- A payload reads the same from alike representations. -/
theorem agree_ofSource? (hR : Alike R) :
    Agree R (SyncPayload.ofSource? (α := α)) (SyncPayload.ofSource? (α := β)) := by
  intro a b hab
  refine Record.bind_eq_of_rel (hR.of? 4 hab) fun r r' hr => ?_
  simp only [hr.optional? nodesField [] (hR.list? (NodeSnapshot.agree_ofSource? hR)),
    hr.optional? timelineField [] (agree_readTimeline? hR),
    hr.optional? timelineIdField none (hR.nullable? hR.int64?),
    hr.optional? nodeIdField none hR.identifier?]

/-- A payload reads the same part by part and from the value that the text denotes, even where the
value was read with less room for nesting. -/
theorem ofSource?_eq_of_denotes {d : Document} {room : Nat} {v : Json}
    (hdiffer : d.namesDiffer = true) (hvalue : d.value? room = some v) {room' : Nat}
    (hle : room ≤ room') : ofSource? (⟨d, room'⟩ : Nested) = ofJson? v :=
  agree_ofSource? alike_denotes ⟨hdiffer, Document.value?_of_le hle d v hvalue⟩

end SyncPayload

end TraceTimeline
