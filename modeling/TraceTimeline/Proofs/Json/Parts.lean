import TraceTimeline.Proofs.Json.Exchange

/-!
# The parts of a record

A tree gives a record a part for a field under one of the names of the field, or at its position
(`Field.HasPart`).  `Record.part?_eq_some_iff` says that this is the part that the record has, and
`Field.Replaced` that two trees differ in one part only.
-/

namespace TraceTimeline

variable {α β : Type} [Source α]

namespace Field

variable (f : Field)

/-- A tree gives a part for a field: as a member under one of its names, or as the item at its
position. -/
inductive HasPart (a x : α) : Prop where
  | member {members : List (String × α)} {name : String}
      (ha : Source.layer? a = some (.obj members)) (hname : name ∈ f.names)
      (hmem : (name, x) ∈ members)
  | item {items : List α} (ha : Source.layer? a = some (.arr items))
      (hplace : items[f.position]? = some x)

/-- A tree gives no part for a field. -/
def Missing (a : α) : Prop := ∀ x, ¬ f.HasPart a x

/-- A tree `b` is the tree `a` with the part `y` for a field, in the place of the part that `a` has,
or added as a member of an object that has none. -/
inductive Replaced : Option α → α → α → α → Prop where
  | member {x y a b : α} {name : String} (before after : List (String × α)) (hname : name ∈ f.names)
      (ha : Source.layer? a = some (.obj (before ++ (name, x) :: after)))
      (hb : Source.layer? b = some (.obj (before ++ (name, y) :: after))) : Replaced (some x) y a b
  | item {x y a b : α} (before after : List α) (hplace : before.length = f.position)
      (ha : Source.layer? a = some (.arr (before ++ x :: after)))
      (hb : Source.layer? b = some (.arr (before ++ y :: after))) : Replaced (some x) y a b
  | added {y a b : α} {name : String} (before after : List (String × α)) (hname : name ∈ f.names)
      (hmissing : ∀ m ∈ before ++ after, m.1 ∉ f.names)
      (ha : Source.layer? a = some (.obj (before ++ after)))
      (hb : Source.layer? b = some (.obj (before ++ (name, y) :: after))) : Replaced none y a b

end Field

namespace Record

variable {f : Field} {a x : α} {r r' : Record α} {arity : Nat}

/-- A record comes from an object or from a list. -/
lemma of?_cases (h : of? arity a = some r) :
    (∃ members, Source.layer? a = some (.obj members) ∧ r = named members) ∨
      ∃ items, Source.layer? a = some (.arr items) ∧ items.length ≤ arity ∧ r = listed items := by
  unfold of? at h
  split at h
  · next members ha => exact .inl ⟨members, ha, (Option.some.inj h).symm⟩
  · next items ha =>
    obtain ⟨hle, hr⟩ := Option.ite_none_right_eq_some.1 h
    exact .inr ⟨items, ha, hle, (Option.some.inj hr).symm⟩
  · cases h

lemma of?_of_obj {members : List (String × α)} (ha : Source.layer? a = some (.obj members))
    (arity : Nat) : of? arity a = some (named members) := by
  rw [of?, ha]

lemma of?_of_arr {items : List α} (ha : Source.layer? a = some (.arr items))
    (hlength : items.length ≤ arity) : of? arity a = some (listed items) := by
  rw [of?, ha]
  exact if_pos hlength

/-- The part that a record has for a field is the one that its tree gives. -/
lemma part?_eq_some_iff (hr : of? arity a = some r) {part : Option α}
    (hpart : r.part? f = some part) : part = some x ↔ f.HasPart a x := by
  rcases of?_cases hr with ⟨members, ha, rfl⟩ | ⟨items, ha, -, rfl⟩
  -- an object gives a field the members of its names, of which there is one at most
  · have hmem (m : String × α) : m ∈ members.filter (fun m => f.names.contains m.1) ↔
        m ∈ members ∧ m.1 ∈ f.names := by simp
    have hparts : f.HasPart a x ↔
        ∃ name, (name, x) ∈ members.filter fun m => f.names.contains m.1 := by
      constructor
      · rintro (⟨ha', hname, hx⟩ | ⟨ha', -⟩)
        · rw [ha, Option.some.injEq, Layer.obj.injEq] at ha'
          subst ha'
          exact ⟨_, (hmem _).2 ⟨hx, hname⟩⟩
        · rw [ha] at ha'
          cases ha'
      · rintro ⟨name, hx⟩
        exact .member ha ((hmem _).1 hx).2 ((hmem _).1 hx).1
    rw [hparts]
    unfold part? at hpart
    dsimp only at hpart
    split at hpart
    · next hnil =>
      rw [hnil, ← Option.some.inj hpart]
      exact ⟨nofun, fun ⟨_, hx⟩ => absurd hx List.not_mem_nil⟩
    · next m hsingle =>
      rw [hsingle, ← Option.some.inj hpart]
      constructor
      · rintro ⟨⟩
        exact ⟨m.1, List.mem_singleton_self _⟩
      · rintro ⟨name, hx⟩
        rw [← List.mem_singleton.1 hx]
    · cases hpart
  · obtain rfl := Option.some.inj hpart
    constructor
    · exact fun hx => .item ha hx
    · rintro (⟨ha', -, -⟩ | ⟨ha', hx⟩)
      · rw [ha] at ha'
        cases ha'
      · rw [ha, Option.some.injEq, Layer.arr.injEq] at ha'
        rwa [ha']

lemma part?_eq_none_iff (hr : of? arity a = some r) {part : Option α}
    (hpart : r.part? f = some part) : part = none ↔ f.Missing a := by
  rw [Option.eq_none_iff_forall_ne_some]
  exact forall_congr' fun x => not_congr (part?_eq_some_iff hr hpart)

/-- Records that have one part or the other for a field, or are ill-formed there, and have the same
parts for all other fields. -/
structure Replaced (f : Field) (x y : Option α) (r r' : Record α) : Prop where
  self : r.part? f = some x ∧ r'.part? f = some y ∨ r.part? f = none ∧ r'.part? f = none
  same : ∀ g, f.Apart g → r'.part? g = r.part? g

omit [Source α]

lemma Replaced.symm {x y : Option α} (h : Replaced f x y r r') : Replaced f y x r' r where
  self := h.self.imp And.symm And.symm
  same g hg := (h.same g hg).symm

lemma rel_replaced_symm {x y : Option α} {o o' : Option (Record α)}
    (h : Option.Rel (Replaced f x y) o o') : Option.Rel (Replaced f y x) o' o := by
  cases h with
  | some hrecord => exact .some hrecord.symm
  | none => exact .none

/-- A field whose part was replaced reads the new part, if it could be read before. -/
lemma Replaced.optional? {x y : Option α} (h : Replaced f x y r r') {missing b : β}
    {read : α → Option β} (hread : r.optional? f missing read = some b) :
    r'.optional? f missing read = y.elim (some missing) read := by
  rcases h.self with ⟨-, hpart⟩ | ⟨hpart, -⟩
  · exact optional?_eq hpart missing read
  · rw [Record.optional?, hpart] at hread
    cases hread

lemma part?_member_of_apart {g : Field} (hg : f.Apart g) {name : String} (hname : name ∈ f.names)
    (before after : List (String × α)) (x : α) :
    (named (before ++ (name, x) :: after)).part? g = (named (before ++ after)).part? g := by
  have hother : name ∉ g.names := hg.1 name hname
  simp [part?, hother]

lemma filter_member {name : String} (hname : name ∈ f.names) (before after : List (String × α))
    (x : α) :
    (before ++ (name, x) :: after).filter (fun m => f.names.contains m.1) =
      before.filter (fun m => f.names.contains m.1) ++
        (name, x) :: after.filter fun m => f.names.contains m.1 := by
  simp [hname]

lemma filter_of_missing {members : List (String × α)} (h : ∀ m ∈ members, m.1 ∉ f.names) :
    members.filter (fun m => f.names.contains m.1) = [] :=
  List.filter_eq_nil_iff.2 fun m hm hc => h m hm (List.contains_iff_mem.1 hc)

/-- Of two members in one place and of one name, a field finds the one where it finds the other. -/
lemma part?_member {name : String} (hname : name ∈ f.names) (before after : List (String × α))
    (x y : α) :
    ((named (before ++ (name, x) :: after)).part? f = some (some x) ∧
        (named (before ++ (name, y) :: after)).part? f = some (some y)) ∨
      ((named (before ++ (name, x) :: after)).part? f = none ∧
        (named (before ++ (name, y) :: after)).part? f = none) := by
  unfold part?
  dsimp only
  rw [filter_member hname, filter_member hname]
  generalize before.filter _ = l
  generalize after.filter _ = l'
  match l, l' with
  | [], [] => exact .inl ⟨rfl, rfl⟩
  | [], _ :: _ => exact .inr ⟨rfl, rfl⟩
  | [_], _ => exact .inr ⟨rfl, rfl⟩
  | _ :: _ :: _, _ => exact .inr ⟨rfl, rfl⟩

lemma part?_of_missing {members : List (String × α)} (h : ∀ m ∈ members, m.1 ∉ f.names) :
    (named members).part? f = some none := by
  unfold part?
  dsimp only
  rw [filter_of_missing h]

/-- Among members that do not have its names, a field finds the member that is added. -/
lemma part?_added {name : String} (hname : name ∈ f.names) {before after : List (String × α)}
    (hmissing : ∀ m ∈ before ++ after, m.1 ∉ f.names) (y : α) :
    (named (before ++ (name, y) :: after)).part? f = some (some y) := by
  have hbefore := filter_of_missing fun m hm => hmissing m (List.mem_append_left _ hm)
  have hafter := filter_of_missing fun m hm => hmissing m (List.mem_append_right _ hm)
  unfold part?
  dsimp only
  rw [filter_member hname, hbefore, hafter]
  rfl

/-- Lists that differ in one place are the same in all other places. -/
lemma getElem?_around {before after : List α} {x y : α} {i : Nat} (h : i ≠ before.length) :
    (before ++ x :: after)[i]? = (before ++ y :: after)[i]? := by
  rcases Nat.lt_or_gt_of_ne h with hlt | hgt
  · rw [List.getElem?_append_left hlt, List.getElem?_append_left hlt]
  · obtain ⟨n, hn⟩ : ∃ n, i - before.length = n + 1 := ⟨i - before.length - 1, by omega⟩
    rw [List.getElem?_append_right hgt.le, List.getElem?_append_right hgt.le, hn]
    rfl

end Record

/-- Trees that differ in the part for a field hold records that do. -/
lemma Field.Replaced.of? {f : Field} {x : Option α} {y a b : α} (h : f.Replaced x y a b)
    (arity : Nat) :
    Option.Rel (Record.Replaced f x (some y)) (Record.of? arity a) (Record.of? arity b) := by
  cases h with
  | @member x y a b name before after hname ha hb =>
    rw [Record.of?, Record.of?, ha, hb]
    refine .some ⟨Record.part?_member hname before after x y, fun g hg => ?_⟩
    rw [Record.part?_member_of_apart hg hname, Record.part?_member_of_apart hg hname]
  | @item x y a b before after hplace ha hb =>
    have hlen : (before ++ y :: after).length = (before ++ x :: after).length := by simp
    rw [Record.of?, Record.of?, ha, hb]
    dsimp only
    rw [hlen]
    split
    · refine .some ⟨.inl ?_, fun g hg => ?_⟩
      · simp [Record.part?, ← hplace]
      · have hne : g.position ≠ before.length := fun heq => hg.2 (hplace.symm.trans heq.symm)
        exact congrArg some (Record.getElem?_around hne)
    · exact .none
  | added before after hname hmissing ha hb =>
    rw [Record.of?, Record.of?, ha, hb]
    exact .some ⟨.inl ⟨Record.part?_of_missing hmissing, Record.part?_added hname hmissing y⟩,
      fun g hg => Record.part?_member_of_apart hg hname before after y⟩

/-! ## The parts of a text -/

lemma Source.string?_eq_some_iff {a : α} {s : String} :
    string? a = some s ↔ layer? a = some (.str s) := by
  unfold string?
  split <;> simp_all

namespace Nested

/-- Members whose names are well formed are read, with the room that there is, -/
lemma members?_map (room : Nat) (members : List (String × Document)) :
    members? room (members.map fun m => (some m.1, m.2)) =
      some (members.map fun m => (m.1, ⟨m.2, room⟩)) := by
  induction members with
  | nil => rfl
  | cons m rest ih =>
    rw [List.map_cons, members?, ih]
    rfl

/-- and no others. -/
lemma exists_of_members? {room : Nat} {members : List (Option String × Document)}
    {parts : List (String × Nested)} (h : members? room members = some parts) :
    ∃ known : List (String × Document), members = known.map fun m => (some m.1, m.2) := by
  induction members generalizing parts with
  | nil => exact ⟨[], rfl⟩
  | cons m rest ih =>
    obtain ⟨name, d⟩ := m
    rw [members?] at h
    obtain ⟨k, hk, h⟩ := Option.bind_eq_some_iff.1 h
    obtain ⟨parts', hparts', -⟩ := Option.bind_eq_some_iff.1 h
    obtain ⟨known, rfl⟩ := ih hparts'
    exact ⟨(k, d) :: known, by rw [List.map_cons, hk]⟩

lemma layer?_eq_str_iff {n : Nested} {s : String} :
    Source.layer? n = some (.str s) ↔ n.document = .str (some s) := by
  obtain ⟨d, room⟩ := n
  show layer? _ = _ ↔ _
  cases d <;> cases room <;> simp [layer?]

lemma layer?_eq_arr_iff {d : Document} {room : Nat} {parts : List Nested} :
    Source.layer? (⟨d, room + 1⟩ : Nested) = some (.arr parts) ↔
      ∃ items, d = .arr items ∧ parts = items.map (⟨·, room⟩) := by
  show layer? _ = _ ↔ _
  cases d <;> simp [layer?, eq_comm]

/-- A part of a text is an object where its document is one whose members have well-formed
names. -/
lemma layer?_eq_obj_iff {d : Document} {room : Nat} {parts : List (String × Nested)} :
    Source.layer? (⟨d, room + 1⟩ : Nested) = some (.obj parts) ↔
      ∃ known : List (String × Document), d = .obj (known.map fun m => (some m.1, m.2)) ∧
        parts = known.map fun m => (m.1, ⟨m.2, room⟩) := by
  show layer? _ = _ ↔ _
  constructor
  · intro h
    cases d with
    | obj members =>
      obtain ⟨parts', hparts', hobj⟩ := Option.map_eq_some_iff.1 h
      obtain rfl := Layer.obj.inj hobj
      obtain ⟨known, rfl⟩ := exists_of_members? hparts'
      rw [members?_map] at hparts'
      exact ⟨known, rfl, (Option.some.inj hparts').symm⟩
    | _ => simp [layer?] at h
  · rintro ⟨known, rfl, rfl⟩
    simp only [layer?, members?_map, Option.map_some]

end Nested

end TraceTimeline
