import TraceTimeline.Engine.Basic
import TraceTimeline.Proofs.Json.Parts

/-!
# What frames are decoded

A text that is not blank has to spell an envelope (`Frame.SpellsEnvelope`), and what becomes of the
envelope is a matter of its type and data (`Frame.Outcome`).  `Frame.decode_exact` says that
decoding does exactly this, with every reason for a failure, and that an engine drops a frame that
cannot be decoded: the text is a sign of life of the backend and nothing more.
-/

namespace TraceTimeline

/-! ## The parts of an object -/

namespace Record

variable {α : Type}

/-- The parts that members of one name have, in order. -/
def under (name : String) (members : List (String × α)) : List α :=
  (members.filter fun m => m.1 = name).map (·.2)

lemma under_map (name : String) (members : List (String × Document)) (room : Nat) :
    under name (members.map fun m => (m.1, (⟨m.2, room⟩ : Nested))) =
      (under name members).map (⟨·, room⟩) := by
  simp [under, List.filter_map, Function.comp_def]

/-- A field of one name has the part of the only member with that name, or none where there is no
such member. -/
lemma part?_eq_some_iff_under {name : String} {position : Nat} {members : List (String × α)}
    {part : Option α} :
    (named members).part? ⟨[name], position⟩ = some part ↔ under name members = part.toList := by
  have hfilter : (members.filter fun m => [name].contains m.1) =
      members.filter fun m => m.1 = name := by
    refine List.filter_congr fun m _ => ?_
    simp
  unfold part? under
  dsimp only
  rw [hfilter]
  generalize (members.filter fun m => m.1 = name) = found
  match found, part with
  | [], none => simp
  | [], some _ => simp
  | [_], none => simp
  | [_], some _ => simp
  | _ :: _ :: _, none => simp
  | _ :: _ :: _, some _ => simp

end Record

/-- A text names the channel whose name stands between its blanks. -/
lemma OutputChannel.ofName?_eq_some_iff {s : String} {c : OutputChannel} :
    ofName? s = some c ↔ Text.trim s = c.name := by
  unfold ofName?
  constructor
  · intro h
    split at h
    · next heq => exact heq.trans (congrArg name (Option.some.inj h))
    · next heq => exact heq.trans (congrArg name (Option.some.inj h))
    · next heq => exact heq.trans (congrArg name (Option.some.inj h))
    · cases h
  · intro h
    rw [h]
    cases c <;> rfl

lemma OutputChannel.ofName?_eq_none_iff {s : String} :
    ofName? s = none ↔ ∀ c : OutputChannel, Text.trim s ≠ c.name := by
  rw [Option.eq_none_iff_forall_ne_some]
  exact forall_congr' fun c => not_congr ofName?_eq_some_iff

namespace Frame

variable {e : Envelope} {t : String}

/-! ## Envelopes -/

/-- The data that the documents in their place spell: `null` if there is none, and what it denotes
if there is one. -/
inductive SpellsData : List Document → Json → Prop where
  | missing : SpellsData [] .null
  | given {d : Document} {v : Json} (h : d.value? (Document.nestingLimit - 1) = some v) :
    SpellsData [d] v

/-- A document spells an envelope: an object with one text as its type and at most one member for
its data, among members of other names, or a list of a text and at most one more item. -/
inductive Spells : Document → Envelope → Prop where
  | object {type : String} {data : Json} {members : List (String × Document)}
      (htype : Record.under "type" members = [.str (some type)])
      (hdata : SpellsData (Record.under "data" members) data) :
    Spells (.obj (members.map fun m => (some m.1, m.2))) ⟨type, data⟩
  | list {type : String} {data : Json} {items : List Document} (hdata : SpellsData items data) :
    Spells (.arr (.str (some type) :: items)) ⟨type, data⟩

/-- A text is that of a document that spells an envelope. -/
def SpellsEnvelope (t : String) (e : Envelope) : Prop :=
  ∃ d, Document.ofText? t = some d ∧ Spells d e

lemma required?_type_eq_some_iff {r : Record Nested} {type : String} :
    r.required? typeField Source.string? = some type ↔
      ∃ part : Nested, r.part? typeField = some (some part) ∧ part.document = .str (some type) := by
  simp [Record.required?, Option.bind_eq_some_iff, Source.string?_eq_some_iff,
    Nested.layer?_eq_str_iff]

/-- The data of a record within a text are what the documents in their place spell. -/
lemma optional?_data_eq_some_iff {r : Record Nested} {ds : List Document} {part : Option Nested}
    {v : Json} (hpart : r.part? dataField = some part)
    (hds : ds.map (⟨·, Document.nestingLimit - 1⟩) = part.toList) :
    r.optional? dataField .null Source.value? = some v ↔ SpellsData ds v := by
  rw [Record.optional?_eq hpart]
  match ds, part with
  | [], none =>
    constructor
    · intro h
      obtain rfl := Option.some.inj h
      exact .missing
    · rintro ⟨⟩
      rfl
  | [d], some part =>
    obtain rfl := List.singleton_inj.1 hds
    constructor
    · exact fun h => .given h
    · rintro (_ | h)
      exact h
  | [], some _ => cases hds
  | _ :: _, none => cases hds
  | _ :: _ :: _, some _ => cases hds

lemma SpellsData.exists_part {ds : List Document} {v : Json} (h : SpellsData ds v) (room : Nat) :
    ∃ part : Option Nested, ds.map (⟨·, room⟩) = part.toList := by
  cases h with
  | missing => exact ⟨none, rfl⟩
  | @given d => exact ⟨some ⟨d, room⟩, rfl⟩

/-- The record in a document that spells an envelope has the type and the data. -/
lemma Spells.exists_record {d : Document} (h : Spells d e) :
    ∃ r, Record.of? 2 (⟨d, Document.nestingLimit⟩ : Nested) = some r ∧
      r.required? typeField Source.string? = some e.type ∧
      r.optional? dataField .null Source.value? = some e.data := by
  cases h with
  | @object type data members htype hdata =>
    have hlayer : Source.layer? (⟨_, Document.nestingLimit⟩ : Nested) = some (.obj _) :=
      Nested.layer?_eq_obj_iff.2 ⟨members, rfl, rfl⟩
    have htypePart : Record.under "type"
        (members.map fun m => (m.1, (⟨m.2, Document.nestingLimit - 1⟩ : Nested))) =
          (some ⟨.str (some type), Document.nestingLimit - 1⟩ : Option Nested).toList := by
      rw [Record.under_map, htype]
      rfl
    obtain ⟨part, hds⟩ := hdata.exists_part (Document.nestingLimit - 1)
    have hdataPart := (Record.under_map "data" members (Document.nestingLimit - 1)).trans hds
    refine ⟨_, Record.of?_of_obj hlayer 2, ?_, ?_⟩
    · exact required?_type_eq_some_iff.2
        ⟨_, Record.part?_eq_some_iff_under.2 htypePart, rfl⟩
    · exact (optional?_data_eq_some_iff (Record.part?_eq_some_iff_under.2 hdataPart) hds).2 hdata
  | @list type data items hdata =>
    obtain ⟨part, hds⟩ := hdata.exists_part (Document.nestingLimit - 1)
    have hlayer : Source.layer?
        (⟨.arr (.str (some type) :: items), Document.nestingLimit⟩ : Nested) =
          some (.arr (⟨.str (some type), Document.nestingLimit - 1⟩ :: part.toList)) :=
      Nested.layer?_eq_arr_iff.2 ⟨_, rfl, congrArg _ hds.symm⟩
    have hlength : part.toList.length ≤ 1 := by
      cases part <;> simp
    have hdataPart : (Record.listed (⟨.str (some type), Document.nestingLimit - 1⟩ ::
        part.toList)).part? dataField = some part := by
      cases part <;> rfl
    refine ⟨_, Record.of?_of_arr hlayer (Nat.succ_le_succ hlength), ?_, ?_⟩
    · exact required?_type_eq_some_iff.2 ⟨_, rfl, rfl⟩
    · exact (optional?_data_eq_some_iff hdataPart hds).2 hdata

/-- A document spells an envelope if the record in it has the type and the data. -/
lemma spells_of_record {d : Document} {r : Record Nested} {type : String} {data : Json}
    (hr : Record.of? 2 (⟨d, (Document.nestingLimit - 1) + 1⟩ : Nested) = some r)
    (htype : r.required? typeField Source.string? = some type)
    (hdata : r.optional? dataField .null Source.value? = some data) : Spells d ⟨type, data⟩ := by
  obtain ⟨⟨d', room⟩, htypePart, rfl⟩ := required?_type_eq_some_iff.1 htype
  obtain ⟨part, hdataPart, -⟩ := Option.bind_eq_some_iff.1 hdata
  rcases Record.of?_cases hr with ⟨parts, hlayer, rfl⟩ | ⟨parts, hlayer, hlength, rfl⟩
  · obtain ⟨members, rfl, rfl⟩ := Nested.layer?_eq_obj_iff.1 hlayer
    have hunder := Record.part?_eq_some_iff_under.1 htypePart
    have hds := Record.part?_eq_some_iff_under.1 hdataPart
    rw [Record.under_map] at hunder hds
    obtain ⟨d, hd, hpart⟩ := List.map_eq_singleton_iff.1 hunder
    rw [(Nested.mk.inj hpart).1] at hd
    exact .object hd ((optional?_data_eq_some_iff hdataPart hds).1 hdata)
  · obtain ⟨items, rfl, rfl⟩ := Nested.layer?_eq_arr_iff.1 hlayer
    match items with
    | [] => cases htypePart
    | d :: rest =>
      have hd : d = .str (some type) :=
        congrArg Nested.document (Option.some.inj (Option.some.inj htypePart))
      have hds : rest.map (⟨·, Document.nestingLimit - 1⟩) = part.toList := by
        rw [← Option.some.inj hdataPart]
        match rest with
        | [] => rfl
        | [_] => rfl
        | _ :: _ :: _ => simp at hlength
      rw [hd]
      exact .list ((optional?_data_eq_some_iff hdataPart hds).1 hdata)

/-- The envelope of a text is the one that it spells. -/
theorem Envelope.ofText?_eq_some_iff : Envelope.ofText? t = some e ↔ SpellsEnvelope t e := by
  have htext : Envelope.ofText? t = some e ↔
      ∃ d, Document.ofText? t = some d ∧
        ∃ r, Record.of? 2 (⟨d, Document.nestingLimit⟩ : Nested) = some r ∧
          r.required? typeField Source.string? = some e.type ∧
          r.optional? dataField .null Source.value? = some e.data := by
    obtain ⟨type, data⟩ := e
    simp [Envelope.ofText?, Nested.ofText?, Option.bind_eq_some_iff]
  rw [htext]
  refine exists_congr fun d => and_congr_right fun _ => ⟨?_, Spells.exists_record⟩
  rintro ⟨r, hr, htype, hdata⟩
  exact spells_of_record hr htype hdata

lemma spellsEnvelope_of_map {type : String} {data : Json}
    (h : (Envelope.ofText? t).map (fun e => (e.type, e.data)) = some (type, data)) :
    SpellsEnvelope t ⟨type, data⟩ := by
  obtain ⟨e, he, hparts⟩ := Option.map_eq_some_iff.1 h
  obtain ⟨rfl, rfl⟩ := Prod.mk.inj hparts
  exact Envelope.ofText?_eq_some_iff.1 he

/-! ## Outcomes -/

/-- What becomes of an envelope, by its type and data. -/
inductive Outcome : Envelope → Except FrameError Frame → Prop where
  | event {v : Json} {s : Step} (h : Step.ofJson? v = some s) :
    Outcome ⟨"event", v⟩ (.ok (.event s))
  | invalidEvent {v : Json} (h : Step.ofJson? v = none) :
    Outcome ⟨"event", v⟩ (.error (.invalidPayload .event))
  | sync {v : Json} {p : SyncPayload} (h : SyncPayload.ofJson? v = some p) :
    Outcome ⟨"sync", v⟩ (.ok (.sync p))
  | invalidSync {v : Json} (h : SyncPayload.ofJson? v = none) :
    Outcome ⟨"sync", v⟩ (.error (.invalidPayload .sync))
  | chunk (c : OutputChannel) (text : String) : Outcome ⟨c.name, .str text⟩ (.ok (.chunk c text))
  | emptyChunk (c : OutputChannel) : Outcome ⟨c.name, .null⟩ (.ok (.chunk c ""))
  | invalidChunk (c : OutputChannel) {v : Json} (hnull : v ≠ .null)
      (hstr : ∀ text, v ≠ .str text) :
    Outcome ⟨c.name, v⟩ (.error (.invalidPayload (.chunk c)))
  | flush {c : OutputChannel} {name : String} (h : Text.trim name = c.name) :
    Outcome ⟨"flush", .str name⟩ (.ok (.flush c))
  | unknownChannel {name : String} (h : ∀ c : OutputChannel, Text.trim name ≠ c.name) :
    Outcome ⟨"flush", .str name⟩ (.error (.unknownChannel name))
  | invalidFlush {v : Json} (h : ∀ name, v ≠ .str name) :
    Outcome ⟨"flush", v⟩ (.error (.invalidPayload .flush))
  | unknownType {type : String} {v : Json} (h : ∀ kind : PayloadKind, type ≠ kind.name) :
    Outcome ⟨type, v⟩ (.error (.unknownType type))

/-- A chunk of a channel is an outcome. -/
lemma outcome_chunkOf (c : OutputChannel) (v : Json) : Outcome ⟨c.name, v⟩ (chunkOf c v) := by
  cases v with
  | null => exact .emptyChunk c
  | str text => exact .chunk c text
  | bool b => exact .invalidChunk c nofun nofun
  | num n => exact .invalidChunk c nofun nofun
  | arr items => exact .invalidChunk c nofun nofun
  | obj members => exact .invalidChunk c nofun nofun

/-- What becomes of an envelope is its outcome. -/
lemma outcome_ofEnvelope (e : Envelope) : Outcome e (ofEnvelope e) := by
  obtain ⟨type, v⟩ := e
  unfold ofEnvelope
  dsimp only
  split
  · split
    · next h => exact .event h
    · next h => exact .invalidEvent h
  · split
    · next h => exact .sync h
    · next h => exact .invalidSync h
  · exact outcome_chunkOf .stdout v
  · exact outcome_chunkOf .stderr v
  · exact outcome_chunkOf .stdin v
  · split
    · split
      · next h => exact .flush (OutputChannel.ofName?_eq_some_iff.1 h)
      · next h => exact .unknownChannel (OutputChannel.ofName?_eq_none_iff.1 h)
    · next hname => exact .invalidFlush hname
  · next hevent hsync hstdout hstderr hstdin hflush =>
    refine .unknownType fun kind => ?_
    rcases kind with _ | _ | (_ | _ | _) | _ <;> assumption

/-- An envelope has no more than one outcome. -/
lemma Outcome.eq {r : Except FrameError Frame} (h : Outcome e r) : ofEnvelope e = r := by
  cases h with
  | event h => simp only [ofEnvelope, h]
  | invalidEvent h => simp only [ofEnvelope, h]
  | sync h => simp only [ofEnvelope, h]
  | invalidSync h => simp only [ofEnvelope, h]
  | chunk c text => cases c <;> rfl
  | emptyChunk c => cases c <;> rfl
  | @invalidChunk c v hnull hstr =>
    have hchunk : chunkOf c v = .error (.invalidPayload (.chunk c)) := by
      cases v with
      | null => exact absurd rfl hnull
      | str text => exact absurd rfl (hstr text)
      | _ => rfl
    cases c <;> exact hchunk
  | flush h => simp only [ofEnvelope, OutputChannel.ofName?_eq_some_iff.2 h]
  | unknownChannel h => simp only [ofEnvelope, OutputChannel.ofName?_eq_none_iff.2 h]
  | @invalidFlush v h =>
    cases v with
    | str name => exact absurd rfl (h name)
    | _ => rfl
  | unknownType h =>
    unfold ofEnvelope
    dsimp only
    split
    · exact absurd rfl (h .event)
    · exact absurd rfl (h .sync)
    · exact absurd rfl (h (.chunk .stdout))
    · exact absurd rfl (h (.chunk .stderr))
    · exact absurd rfl (h (.chunk .stdin))
    · exact absurd rfl (h .flush)
    · rfl

lemma ofEnvelope_eq_iff {r : Except FrameError Frame} : ofEnvelope e = r ↔ Outcome e r :=
  ⟨fun h => h ▸ outcome_ofEnvelope e, Outcome.eq⟩

/-! ## Decoding -/

lemma SpellsEnvelope.ne_empty (h : SpellsEnvelope t e) : t ≠ "" := by
  rintro rfl
  obtain ⟨d, hd, -⟩ := h
  have hnone : Document.ofText? "" = none := by decide +kernel
  rw [hnone] at hd
  cases hd

lemma decode_of_blank {s : String} (h : Text.trim s = "") : decode s = .error .empty := by
  simp only [decode, if_pos h]

lemma decode_of_spells {s : String} (h : SpellsEnvelope (Text.trim s) e) :
    decode s = ofEnvelope e := by
  simp only [decode, if_neg h.ne_empty, Envelope.ofText?_eq_some_iff.2 h]

lemma decode_of_not_spells {s : String} (hblank : Text.trim s ≠ "")
    (h : ¬ ∃ e, SpellsEnvelope (Text.trim s) e) : decode s = .error .malformed := by
  have hnone : Envelope.ofText? (Text.trim s) = none :=
    Option.eq_none_iff_forall_ne_some.2 fun e he => h ⟨e, Envelope.ofText?_eq_some_iff.1 he⟩
  simp only [decode, if_neg hblank, hnone]

lemma handleFrame_of_error {s : String} {reason : FrameError} (h : decode s = .error reason)
    (engine : Engine) : engine.handleFrame s = { engine with gate := engine.gate.release } := by
  simp only [Engine.handleFrame, h]

/-- A text is empty if it is blank, malformed if it is neither blank nor spells an envelope, and
otherwise has the outcome of the envelope that it spells.  The text of a frame that is not decoded
changes nothing in an engine but the gate, which it releases, and has no effects. -/
theorem decode_exact (s : String) :
    (decode s = .error .empty ↔ Text.trim s = "") ∧
      (decode s = .error .malformed ↔
        Text.trim s ≠ "" ∧ ¬ ∃ e, SpellsEnvelope (Text.trim s) e) ∧
      (∀ e, SpellsEnvelope (Text.trim s) e → ∀ r, decode s = r ↔ Outcome e r) ∧
      ∀ reason, decode s = .error reason → ∀ engine : Engine,
        let dropped : Engine := { engine with gate := engine.gate.release }
        engine.perform (.frameText s) = (dropped, []) ∧
          ∀ g, engine.generation = some g →
            engine.perform (.transport (.frame g s)) = (dropped, []) := by
  refine ⟨⟨fun h => ?_, decode_of_blank⟩, ⟨fun h => ?_, fun h => decode_of_not_spells h.1 h.2⟩,
    fun e he r => ?_, fun reason h engine => ⟨?_, fun g hg => ?_⟩⟩
  · by_contra hblank
    -- a text that is not blank is malformed or has its envelope decoded, and neither says empty
    by_cases hspells : ∃ e, SpellsEnvelope (Text.trim s) e
    · obtain ⟨e, he⟩ := hspells
      rw [decode_of_spells he] at h
      cases ofEnvelope_eq_iff.1 h
    · rw [decode_of_not_spells hblank hspells] at h
      cases h
  · constructor
    · intro hblank
      rw [decode_of_blank hblank] at h
      cases h
    · rintro ⟨e, he⟩
      rw [decode_of_spells he] at h
      cases ofEnvelope_eq_iff.1 h
  · rw [decode_of_spells he]
    exact ofEnvelope_eq_iff
  · rw [Engine.perform, handleFrame_of_error h]
  · rw [Engine.perform, Engine.handleTransport, if_pos hg, handleFrame_of_error h]

/-- A frame as a list, between blanks that are no space in a JSON text, that flushes a channel named
with blanks around it; and one that names no channel and reaches an engine whose gate is shut. -/
theorem decode_exact_flush :
    let flush := "\u00a0[\x22flush\x22,\x22 stdin\\n\x22] "
    let unknown := "\x7b\x22data\x22:\x22 stdlog\x22,\x22type\x22:\x22flush\x22\x7d"
    let shut : Engine :=
      { Engine.new ⟨4, .sticky, 4, 50⟩ with gate := ⟨50, some 7⟩, generation := some 2 }
    SpellsEnvelope (Text.trim flush) ⟨"flush", .str " stdin\n"⟩ ∧
      decode flush = .ok (.flush .stdin) ∧
      SpellsEnvelope (Text.trim unknown) ⟨"flush", .str " stdlog"⟩ ∧
      decode unknown = .error (.unknownChannel " stdlog") ∧
      shut.generation = some 2 ∧
      shut.perform (.transport (.frame 2 unknown)) = ({ shut with gate := ⟨50, none⟩ }, []) := by
  intro flush unknown shut
  have hflush : SpellsEnvelope (Text.trim flush) ⟨"flush", .str " stdin\n"⟩ :=
    spellsEnvelope_of_map (by decide +kernel)
  have hunknown : SpellsEnvelope (Text.trim unknown) ⟨"flush", .str " stdlog"⟩ :=
    spellsEnvelope_of_map (by decide +kernel)
  have hstdin : Text.trim " stdin\n" = OutputChannel.stdin.name := by decide +kernel
  have hnone : ∀ c : OutputChannel, Text.trim " stdlog" ≠ c.name := by
    intro c
    cases c <;> decide +kernel
  have hdecode : decode flush = .ok (.flush .stdin) :=
    ((decode_exact flush).2.2.1 _ hflush _).2 (.flush hstdin)
  have herror : decode unknown = .error (.unknownChannel " stdlog") :=
    ((decode_exact unknown).2.2.1 _ hunknown _).2 (.unknownChannel hnone)
  exact ⟨hflush, hdecode, hunknown, herror, rfl,
    ((decode_exact unknown).2.2.2 _ herror shut).2 2 rfl⟩

end Frame

end TraceTimeline
