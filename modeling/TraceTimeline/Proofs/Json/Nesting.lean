import TraceTimeline.Proofs.Json.Alike
import TraceTimeline.Proofs.Json.Writing

/-!
# Nesting

How deeply a value is nested (`Json.nesting`), and what that says about its text.  A value that was
read keeps within the room that there was, and the members of its objects are in the order of their
names (`Document.value?_spec`).  The other way round, the document of an ordered value denotes the
value wherever there is room for it (`Document.value?_document`), and nowhere else.

So a value of whole numbers, ordered and within the limit to nesting, is read back from its compact
text (`Json.ofText?_compact`).
-/

namespace TraceTimeline

namespace Json

/-! ## Values -/

mutual

/-- The number of arrays and objects that are nested in a value. -/
def nesting : Json → Nat
  | .null => 0
  | .bool _ => 0
  | .num _ => 0
  | .str _ => 0
  | .arr items => itemsNesting items + 1
  | .obj members => membersNesting members + 1

/-- The greatest nesting among the values of a list. -/
def itemsNesting : List Json → Nat
  | [] => 0
  | v :: rest => max (nesting v) (itemsNesting rest)

def membersNesting : List (String × Json) → Nat
  | [] => 0
  | (_, v) :: rest => max (nesting v) (membersNesting rest)

end

mutual

/-- The members of every object in a value are in ascending order of their names. -/
def Ordered : Json → Prop
  | .null => True
  | .bool _ => True
  | .num _ => True
  | .str _ => True
  | .arr items => OrderedItems items
  | .obj members => members.Pairwise (fun a b => a.1 < b.1) ∧ OrderedMembers members

/-- This holds of all values of a list. -/
def OrderedItems : List Json → Prop
  | [] => True
  | v :: rest => Ordered v ∧ OrderedItems rest

def OrderedMembers : List (String × Json) → Prop
  | [] => True
  | (_, v) :: rest => Ordered v ∧ OrderedMembers rest

end

lemma itemsNesting_le_iff {n : Nat} {vs : List Json} :
    itemsNesting vs ≤ n ↔ ∀ v ∈ vs, v.nesting ≤ n := by
  induction vs with
  | nil => simp [itemsNesting]
  | cons v rest ih => rw [itemsNesting, Nat.max_le, ih, List.forall_mem_cons]

/-- The nesting of members is within a bound if that of each of their values is. -/
lemma membersNesting_le_iff {n : Nat} {ms : List (String × Json)} :
    membersNesting ms ≤ n ↔ ∀ m ∈ ms, m.2.nesting ≤ n := by
  induction ms with
  | nil => simp [membersNesting]
  | cons m rest ih =>
    obtain ⟨k, v⟩ := m
    rw [membersNesting, Nat.max_le, ih, List.forall_mem_cons]

lemma orderedItems_iff {vs : List Json} : OrderedItems vs ↔ ∀ v ∈ vs, v.Ordered := by
  induction vs with
  | nil => simp [OrderedItems]
  | cons v rest ih => rw [OrderedItems, ih, List.forall_mem_cons]

lemma orderedMembers_iff {ms : List (String × Json)} :
    OrderedMembers ms ↔ ∀ m ∈ ms, m.2.Ordered := by
  induction ms with
  | nil => simp [OrderedMembers]
  | cons m rest ih =>
    obtain ⟨k, v⟩ := m
    rw [OrderedMembers, ih, List.forall_mem_cons]

lemma wholeItems_iff {vs : List Json} : WholeItems vs ↔ ∀ v ∈ vs, v.Whole := by
  induction vs with
  | nil => simp [WholeItems]
  | cons v rest ih => rw [WholeItems, ih, List.forall_mem_cons]

lemma wholeMembers_iff {ms : List (String × Json)} : WholeMembers ms ↔ ∀ m ∈ ms, m.2.Whole := by
  induction ms with
  | nil => simp [WholeMembers]
  | cons m rest ih =>
    obtain ⟨k, v⟩ := m
    rw [WholeMembers, ih, List.forall_mem_cons]

lemma exists_object_eq (ms : List (String × Json)) :
    ∃ ms', object ms = .obj ms' ∧ ms'.Pairwise (fun a b => a.1 < b.1) ∧ ∀ m ∈ ms', m ∈ ms :=
  ⟨_, rfl, OrderedMap.ascending _, fun _ hm => OrderedMap.mem_of_mem_ofList hm⟩

lemma object_eq_of_ascending {ms : List (String × Json)}
    (h : ms.Pairwise fun a b => a.1 < b.1) : object ms = .obj ms := by
  have hentries : (OrderedMap.ofList ms).entries = ms :=
    congrArg OrderedMap.entries (OrderedMap.ofList_entries ⟨ms, h⟩)
  rw [object, hentries]

end Json

namespace Document

/-! ## What a document denotes -/

/-- A document denotes values of its own kind only. -/
lemma value?_cases {room : Nat} {d : Document} {v : Json} (h : d.value? room = some v) :
    match v with
    | .null => d = .null
    | .bool b => d = .bool b
    | .num n => d = .num (some n)
    | .str s => d = .str (some s)
    | .arr _ => ∃ items, d = .arr items
    | .obj _ => ∃ members, d = .obj members := by
  cases d with
  | null =>
    obtain rfl := Option.some.inj h
    rfl
  | bool b =>
    obtain rfl := Option.some.inj h
    rfl
  | num n =>
    obtain ⟨n, rfl, rfl⟩ := Option.map_eq_some_iff.1 h
    rfl
  | str s =>
    obtain ⟨s, rfl, rfl⟩ := Option.map_eq_some_iff.1 h
    rfl
  | arr items =>
    cases room with
    | zero => cases h
    | succ room =>
      rw [value?] at h
      obtain ⟨vs, -, rfl⟩ := Option.map_eq_some_iff.1 h
      exact ⟨items, rfl⟩
  | obj members =>
    cases room with
    | zero => cases h
    | succ room =>
      rw [value?] at h
      obtain ⟨vs, -, rfl⟩ := Option.map_eq_some_iff.1 h
      exact ⟨members, rfl⟩

mutual

/-- What a document denotes is nested as deeply as there was room at most, and ordered. -/
theorem value?_spec {room : Nat} :
    (d : Document) → (v : Json) → value? room d = some v → v.nesting ≤ room ∧ v.Ordered
  | .null, v, h => by
    obtain rfl := Option.some.inj h
    exact ⟨Nat.zero_le _, trivial⟩
  | .bool b, v, h => by
    obtain rfl := Option.some.inj h
    exact ⟨Nat.zero_le _, trivial⟩
  | .num n, v, h => by
    obtain ⟨n, -, rfl⟩ := Option.map_eq_some_iff.1 h
    exact ⟨Nat.zero_le _, trivial⟩
  | .str s, v, h => by
    obtain ⟨s, -, rfl⟩ := Option.map_eq_some_iff.1 h
    exact ⟨Nat.zero_le _, trivial⟩
  | .arr items, v, h => by
    cases room with
    | zero => cases h
    | succ room =>
      rw [value?] at h
      obtain ⟨vs, hvs, rfl⟩ := Option.map_eq_some_iff.1 h
      have hitems := itemValues?_spec items vs hvs
      exact ⟨Nat.succ_le_succ (Json.itemsNesting_le_iff.2 fun v hv => (hitems v hv).1),
        Json.orderedItems_iff.2 fun v hv => (hitems v hv).2⟩
  | .obj members, v, h => by
    cases room with
    | zero => cases h
    | succ room =>
      rw [value?] at h
      obtain ⟨vs, hvs, rfl⟩ := Option.map_eq_some_iff.1 h
      have hmembers := memberValues?_spec members vs hvs
      -- an object puts its members in order and keeps one of each name
      obtain ⟨ms, hms, hascending, hsub⟩ := Json.exists_object_eq vs
      rw [hms]
      exact ⟨Nat.succ_le_succ
          (Json.membersNesting_le_iff.2 fun m hm => (hmembers m (hsub m hm)).1),
        hascending, Json.orderedMembers_iff.2 fun m hm => (hmembers m (hsub m hm)).2⟩

theorem itemValues?_spec {room : Nat} :
    (items : List Document) → (vs : List Json) → itemValues? room items = some vs →
      ∀ v ∈ vs, v.nesting ≤ room ∧ v.Ordered
  | [], vs, h => by
    obtain rfl := Option.some.inj h
    exact List.forall_mem_nil _
  | d :: rest, vs, h => by
    rw [itemValues?] at h
    obtain ⟨v, hv, h⟩ := Option.bind_eq_some_iff.1 h
    obtain ⟨vs', hvs', h⟩ := Option.bind_eq_some_iff.1 h
    obtain rfl := Option.some.inj h
    exact List.forall_mem_cons.2 ⟨value?_spec d v hv, itemValues?_spec rest vs' hvs'⟩

theorem memberValues?_spec {room : Nat} :
    (members : List (Option String × Document)) → (vs : List (String × Json)) →
      memberValues? room members = some vs → ∀ m ∈ vs, m.2.nesting ≤ room ∧ m.2.Ordered
  | [], vs, h => by
    obtain rfl := Option.some.inj h
    exact List.forall_mem_nil _
  | (name, d) :: rest, vs, h => by
    rw [memberValues?] at h
    obtain ⟨k, -, h⟩ := Option.bind_eq_some_iff.1 h
    obtain ⟨v, hv, h⟩ := Option.bind_eq_some_iff.1 h
    obtain ⟨vs', hvs', h⟩ := Option.bind_eq_some_iff.1 h
    obtain rfl := Option.some.inj h
    exact List.forall_mem_cons.2 ⟨value?_spec d v hv, memberValues?_spec rest vs' hvs'⟩

end

/-! ## The document of a value -/

mutual

/-- The document of an ordered value denotes the value where there is room for it. -/
theorem value?_document : (v : Json) → v.Ordered → ∀ room, v.nesting ≤ room →
    value? room v.document = some v
  | .null, _, _, _ => rfl
  | .bool _, _, _, _ => rfl
  | .num _, _, _, _ => rfl
  | .str _, _, _, _ => rfl
  | .arr items, hordered, room, h => by
    obtain ⟨room, rfl⟩ : ∃ n, room = n + 1 := Nat.exists_eq_add_one_of_ne_zero fun hroom => by
      rw [hroom] at h
      exact absurd h (Nat.not_succ_le_zero _)
    rw [Json.document, value?, itemValues?_documents items hordered room
      (Nat.le_of_succ_le_succ h), Option.map_some]
  | .obj members, hordered, room, h => by
    obtain ⟨room, rfl⟩ : ∃ n, room = n + 1 := Nat.exists_eq_add_one_of_ne_zero fun hroom => by
      rw [hroom] at h
      exact absurd h (Nat.not_succ_le_zero _)
    rw [Json.document, value?, memberValues?_memberDocuments members hordered.2 room
      (Nat.le_of_succ_le_succ h), Option.map_some, Json.object_eq_of_ascending hordered.1]

theorem itemValues?_documents : (vs : List Json) → Json.OrderedItems vs → ∀ room,
    Json.itemsNesting vs ≤ room → itemValues? room (Json.documents vs) = some vs
  | [], _, _, _ => rfl
  | v :: rest, hordered, room, h => by
    obtain ⟨hv, hrest⟩ := Nat.max_le.1 h
    rw [Json.documents, itemValues?, value?_document v hordered.1 room hv,
      itemValues?_documents rest hordered.2 room hrest]
    rfl

theorem memberValues?_memberDocuments : (ms : List (String × Json)) → Json.OrderedMembers ms →
    ∀ room, Json.membersNesting ms ≤ room →
      memberValues? room (Json.memberDocuments ms) = some ms
  | [], _, _, _ => rfl
  | (k, v) :: rest, hordered, room, h => by
    obtain ⟨hv, hrest⟩ := Nat.max_le.1 h
    rw [Json.memberDocuments, memberValues?, value?_document v hordered.1 room hv,
      memberValues?_memberDocuments rest hordered.2 room hrest]
    rfl

end

/-- Members are written with the documents of their values. -/
lemma memberDocuments_eq (ms : List (String × Json)) :
    Json.memberDocuments ms = ms.map fun m => (some m.1, m.2.document) := by
  induction ms with
  | nil => rfl
  | cons m rest ih =>
    obtain ⟨k, v⟩ := m
    rw [Json.memberDocuments, ih]
    rfl

/-- Where the names of members differ, those in their documents do. -/
lemma nodup_memberDocuments {ms : List (String × Json)} (h : (ms.map (·.1)).Nodup) :
    ((Json.memberDocuments ms).map (·.1)).Nodup := by
  have hnames : (Json.memberDocuments ms).map (·.1) = (ms.map (·.1)).map some := by
    rw [memberDocuments_eq, List.map_map, List.map_map]
    rfl
  rw [hnames]
  exact h.map (Option.some_injective String)

mutual

/-- The document of an ordered value repeats no name. -/
theorem namesDiffer_document : (v : Json) → v.Ordered → v.document.namesDiffer = true
  | .null, _ => rfl
  | .bool _, _ => rfl
  | .num _, _ => rfl
  | .str _, _ => rfl
  | .arr items, h => by
    rw [Json.document, namesDiffer]
    exact itemsDiffer_documents items h
  | .obj members, h => by
    have hne : members.Pairwise fun a b => a.1 ≠ b.1 := by
      refine h.1.imp ?_
      intro a b hlt heq
      rw [heq] at hlt
      exact Std.lt_irrefl hlt
    rw [Json.document, namesDiffer, membersDiffer_memberDocuments members h.2, Bool.and_true,
      decide_eq_true_eq]
    exact nodup_memberDocuments (List.pairwise_map.2 hne)

theorem itemsDiffer_documents : (vs : List Json) → Json.OrderedItems vs →
    itemsDiffer (Json.documents vs) = true
  | [], _ => rfl
  | v :: rest, h => by
    rw [Json.documents, itemsDiffer, namesDiffer_document v h.1, itemsDiffer_documents rest h.2]
    rfl

theorem membersDiffer_memberDocuments : (ms : List (String × Json)) → Json.OrderedMembers ms →
    membersDiffer (Json.memberDocuments ms) = true
  | [], _ => rfl
  | (k, v) :: rest, h => by
    rw [Json.memberDocuments, membersDiffer, namesDiffer_document v h.1,
      membersDiffer_memberDocuments rest h.2]
    rfl

end

/-- The document of an ordered value denotes the value or nothing, by whether there is room. -/
theorem value?_document_eq_some_iff {v w : Json} (h : v.Ordered) {room : Nat} :
    value? room v.document = some w ↔ v.nesting ≤ room ∧ v = w := by
  constructor
  · intro hw
    have hmore : value? (max room v.nesting) v.document = some w :=
      value?_of_le (Nat.le_max_left ..) _ _ hw
    rw [value?_document v h _ (Nat.le_max_right ..)] at hmore
    obtain rfl := Option.some.inj hmore
    exact ⟨(value?_spec _ _ hw).1, rfl⟩
  · rintro ⟨hroom, rfl⟩
    exact value?_document v h room hroom

end Document

/-- A value of whole numbers whose objects are ordered is read back from its compact text exactly if
it is not nested too deeply. -/
theorem Json.ofText?_compact {v : Json} (hwhole : v.Whole) (hordered : v.Ordered) :
    ofText? v.compact = some v ↔ v.nesting ≤ Document.nestingLimit := by
  rw [ofText?, Document.ofText?_compact hwhole, Option.bind_some,
    Document.value?_document_eq_some_iff hordered, and_iff_left rfl]

end TraceTimeline
