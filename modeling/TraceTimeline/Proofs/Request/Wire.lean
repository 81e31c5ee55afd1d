import TraceTimeline.Proofs.Json.Record
import TraceTimeline.Proofs.Json.Writing
import TraceTimeline.Request

/-!
# Requests read back

The text of a request is the text of one object, and reading it gives the request again
(`Request.encode_round_trip`), whatever the number of the step or of the line, and whatever
characters the new text of a line is made of.  So no two requests have the same text.
-/

namespace TraceTimeline

namespace Request

/-- The members of a request's object. -/
def members : Request → List (String × Json)
  | .selectStep id => [("type", .str "new_timeline_id"), ("new_timeline_id", .nat id.toNat)]
  | .updateCode line code =>
    [("type", .str "update_node_code"), ("lineno", .nat line.toNat), ("code_segment", .str code)]
  | .resume => [("type", .str "continue")]

lemma toJson_eq (r : Request) : r.toJson = .obj r.members := by
  cases r <;> rfl

/-- The numbers in a request are whole. -/
lemma whole_toJson (r : Request) : r.toJson.Whole := by
  cases r with
  | selectStep id => exact ⟨trivial, Json.whole_nat id.toNat_lt_size, trivial⟩
  | updateCode line code =>
    have hline : line.toNat < UInt64.size := Nat.lt_trans line.toNat_lt_size (by decide)
    exact ⟨trivial, Json.whole_nat hline, trivial, trivial⟩
  | resume => exact ⟨trivial, trivial⟩

lemma ofText?_encode_document (r : Request) :
    Document.ofText? r.encode = some (.obj (Json.memberDocuments r.members)) := by
  have hread := Document.ofText?_compact r.whole_toJson
  rw [toJson_eq, Json.document] at hread
  rw [encode, toJson_eq, hread]

lemma ofText?_encode_value (r : Request) :
    Json.ofText? r.encode = some (Json.object r.members) := by
  rw [Json.ofText?, ofText?_encode_document, Option.bind_some]
  cases r <;> rfl

/-- The unread part for a member of a request's object. -/
def part (v : Json) : Nested := ⟨v.document, Document.nestingLimit - 1⟩

lemma layer?_encode (r : Request) :
    (Nested.ofText? r.encode).bind Source.layer? =
      some (.obj (r.members.map fun m => (m.1, part m.2))) := by
  rw [Nested.ofText?, ofText?_encode_document, Option.map_some, Option.bind_some]
  cases r <;> rfl

lemma ofText?_of_split {s : String} {layer : Layer Nested} {type : String} {r : Record Nested}
    (hlayer : (Nested.ofText? s).bind Source.layer? = some layer)
    (hsplit : split? layer = some (type, r)) (hformed : wellFormed r = true) :
    ofText? s = ofRecord? type r := by
  obtain ⟨n, hn, hlayer⟩ := Option.bind_eq_some_iff.1 hlayer
  simp only [ofText?, Option.bind_eq_bind, hn, Option.bind_some, hlayer, hsplit, hformed, if_true]

/-- The text of a request is read as the request. -/
lemma ofText?_encode (r : Request) : ofText? r.encode = some r := by
  have hlayer := r.layer?_encode
  cases r with
  | selectStep id =>
    let step := part (.nat id.toNat)
    have hsplit : split? (.obj ((selectStep id).members.map fun m => (m.1, part m.2))) =
        some ("new_timeline_id", .named [("new_timeline_id", step)]) := rfl
    have hpart :
        (Record.named [("new_timeline_id", step)]).part? stepField = some (some step) := rfl
    have hid : Source.uint64? step = some id := Source.uint64?_of_int? rfl
    have hfits : fits 1 (.named [("new_timeline_id", step)]) = true := rfl
    rw [ofText?_of_split hlayer hsplit rfl, ofRecord?, if_pos hfits,
      Record.required?_eq hpart Source.uint64?, hid]
    rfl
  | updateCode line code =>
    let number := part (.nat line.toNat)
    let text := part (.str code)
    let fields : Record Nested := .named [("lineno", number), ("code_segment", text)]
    have hsplit : split? (.obj ((updateCode line code).members.map fun m => (m.1, part m.2))) =
        some ("update_node_code", fields) := rfl
    have hnumber : fields.part? lineField = some (some number) := rfl
    have htext : fields.part? codeField = some (some text) := rfl
    have hline : Source.uint32? number = some line := Source.uint32?_of_int? rfl
    have hcode : Source.string? text = some code := rfl
    have hfits : fits 2 fields = true := rfl
    rw [ofText?_of_split hlayer hsplit rfl, ofRecord?, if_pos hfits,
      Record.required?_eq hnumber Source.uint32?, hline,
      Record.required?_eq htext Source.string?, hcode]
    rfl
  | resume =>
    have hsplit : split? (.obj (resume.members.map fun m => (m.1, part m.2))) =
        some ("continue", .named []) := rfl
    rw [ofText?_of_split hlayer hsplit rfl]
    rfl

/-- Every request has a text, which is that of one object and is read as the request again; so
different requests have different texts. -/
theorem encode_round_trip :
    (∀ r : Request,
      (∃ members, r.toJson = .obj members ∧ Json.ofText? r.encode = some (Json.object members)) ∧
        ofText? r.encode = some r) ∧
      Function.Injective encode := by
  refine ⟨fun r => ⟨⟨r.members, r.toJson_eq, r.ofText?_encode_value⟩, r.ofText?_encode⟩, ?_⟩
  intro r r' heq
  have hread := r.ofText?_encode
  rw [heq, r'.ofText?_encode] at hread
  exact (Option.some.inj hread).symm

end Request

end TraceTimeline
