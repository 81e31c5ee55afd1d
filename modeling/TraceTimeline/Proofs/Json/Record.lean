import TraceTimeline.Json.Record
import Mathlib.Data.List.Nodup

/-!
# Records that were written

A record is written by giving some of its fields a part, each under the first of its names.  Where
no two fields share a name, every field reads back the part that it was given, or that it was given
none, and the order of the members does not matter.

`Record.part?_named` is that statement; `Record.required?_eq` and `Record.optional?_eq` turn it
into what a field reads.
-/

namespace TraceTimeline

namespace Source

variable {α : Type} [Source α] {a : α}

lemma cast_in_range {n size : Nat} (h : n < size) : (0 : Int) ≤ n ∧ (n : Int) < size :=
  ⟨Int.natCast_nonneg n, Int.ofNat_lt.2 h⟩

lemma uint64?_of_int? {n : UInt64} (h : int? a = some (n.toNat : Int)) : uint64? a = some n := by
  have hrange : (0 : Int) ≤ n.toNat ∧ (n.toNat : Int) < UInt64.size := cast_in_range n.toNat_lt_size
  rw [uint64?, h, Option.bind_eq_bind, Option.bind_some, if_pos hrange]
  simp

lemma uint32?_of_int? {n : UInt32} (h : int? a = some (n.toNat : Int)) : uint32? a = some n := by
  have hrange : (0 : Int) ≤ n.toNat ∧ (n.toNat : Int) < UInt32.size := cast_in_range n.toNat_lt_size
  rw [uint32?, h, Option.bind_eq_bind, Option.bind_some, if_pos hrange]
  simp

end Source

namespace Field

/-- The name under which a field is written. -/
def name (f : Field) : String := f.names.headD ""

/-- The members that give a field its part, or none. -/
def given {α : Type} (f : Field) (part : Option α) : List (String × α) :=
  (part.map fun a => (f.name, a)).toList

end Field

namespace Record

variable {α β : Type}

/-- The members that give each field its part. -/
def given (parts : List (Field × Option α)) : List (String × α) :=
  parts.flatMap fun p => p.1.given p.2

/-- The fields of a record are told apart by their names, and every field has one. -/
structure Distinct (fields : List Field) : Prop where
  named : ∀ f ∈ fields, f.name ∈ f.names
  apart : fields.Pairwise fun f g => ∀ name ∈ f.names, name ∉ g.names

/-- Whether the names of two fields are apart can be computed. -/
instance (fields : List Field) : Decidable (Distinct fields) :=
  decidable_of_iff ((∀ f ∈ fields, f.name ∈ f.names) ∧
      fields.Pairwise fun f g => ∀ name ∈ f.names, name ∉ g.names)
    ⟨fun h => ⟨h.1, h.2⟩, fun h => ⟨h.named, h.apart⟩⟩

lemma filter_given_self {f : Field} (h : f.name ∈ f.names) (part : Option α) :
    (f.given part).filter (fun m => f.names.contains m.1) = f.given part := by
  cases part with
  | none => rfl
  | some a => simp [Field.given, h]

lemma filter_given_other {f g : Field} (h : g.name ∉ f.names) (part : Option α) :
    (g.given part).filter (fun m => f.names.contains m.1) = [] := by
  cases part with
  | none => rfl
  | some a => simp [Field.given, h]

/-- A field finds no member among those that give parts to other fields. -/
lemma filter_given_eq_nil {f : Field} {parts : List (Field × Option α)}
    (h : ∀ p ∈ parts, p.1.name ∉ f.names) :
    (given parts).filter (fun m => f.names.contains m.1) = [] := by
  induction parts with
  | nil => rfl
  | cons p rest ih =>
    have hrest := ih fun q hq => h q (List.mem_cons_of_mem _ hq)
    have hp := filter_given_other (h p (List.mem_cons_self ..)) p.2
    rw [given, List.flatMap_cons, List.filter_append, hp, List.nil_append]
    exact hrest

/-- Among the members that were written, a field finds those that give it its part. -/
lemma filter_given {parts : List (Field × Option α)} (hd : Distinct (parts.map (·.1))) {f : Field}
    {part : Option α} (h : (f, part) ∈ parts) :
    (given parts).filter (fun m => f.names.contains m.1) = f.given part := by
  obtain ⟨before, after, rfl⟩ := List.append_of_mem h
  obtain ⟨named, apart⟩ := hd
  simp only [List.map_append, List.map_cons, List.pairwise_append, List.pairwise_cons,
    List.mem_append, List.mem_cons, List.mem_map] at named apart
  obtain ⟨-, ⟨hafter, -⟩, hbefore⟩ := apart
  have hself : f.name ∈ f.names := named f (.inr (.inl rfl))
  -- no other field writes a name of this one
  have hnil₁ : (given before).filter (fun m => f.names.contains m.1) = [] := by
    refine filter_given_eq_nil fun p hp => ?_
    have hpname : p.1.name ∈ p.1.names := named p.1 (.inl ⟨p, hp, rfl⟩)
    exact hbefore p.1 ⟨p, hp, rfl⟩ f (.inl rfl) p.1.name hpname
  have hnil₂ : (given after).filter (fun m => f.names.contains m.1) = [] := by
    refine filter_given_eq_nil fun p hp hmem => ?_
    have hpname : p.1.name ∈ p.1.names := named p.1 (.inr (.inr ⟨p, hp, rfl⟩))
    exact hafter p.1 ⟨p, hp, rfl⟩ p.1.name hmem hpname
  have hsplit : given (before ++ (f, part) :: after) =
      given before ++ (f.given part ++ given after) := by
    rw [given, List.flatMap_append, List.flatMap_cons]
    rfl
  rw [hsplit, List.filter_append, List.filter_append, hnil₁, hnil₂, filter_given_self hself,
    List.nil_append, List.append_nil]

/-- The members that were written have different names. -/
lemma nodup_given {parts : List (Field × Option α)} (hd : Distinct (parts.map (·.1))) :
    ((given parts).map (·.1)).Nodup := by
  induction parts with
  | nil => exact .nil
  | cons p rest ih =>
    obtain ⟨named, apart⟩ := hd
    rw [List.map_cons, List.pairwise_cons] at apart
    have hrest : Distinct (rest.map (·.1)) :=
      ⟨fun f hf => named f (List.mem_cons_of_mem _ hf), apart.2⟩
    have hself : p.1.name ∈ p.1.names := named p.1 (List.mem_cons_self ..)
    -- a later field with the same name would share a name with this one
    have hnew : p.1.name ∉ (given rest).map (·.1) := by
      intro hmem
      obtain ⟨m, hm, hname⟩ := List.mem_map.1 hmem
      obtain ⟨q, hq, hmq⟩ := List.mem_flatMap.1 hm
      have hmname : m.1 = q.1.name := by
        obtain ⟨a, -, rfl⟩ := Option.map_eq_some_iff.1 (Option.mem_toList.1 hmq)
        rfl
      have hqmem : q.1 ∈ rest.map (·.1) := List.mem_map_of_mem hq
      have hqname : p.1.name ∈ q.1.names := by
        rw [← hname, hmname]
        exact hrest.named q.1 hqmem
      exact apart.1 q.1 hqmem p.1.name hself hqname
    cases hp : p.2 with
    | none => simpa [given, Field.given, hp] using ih hrest
    | some a =>
      have hcons : (given (p :: rest)).map (·.1) = p.1.name :: (given rest).map (·.1) := by
        simp [given, Field.given, hp]
      rw [hcons]
      exact List.nodup_cons.2 ⟨hnew, ih hrest⟩

/-- The part of a field depends on the members only up to their order. -/
lemma part?_perm {members members' : List (String × α)} (h : members.Perm members') (f : Field) :
    (named members).part? f = (named members').part? f := by
  have hfilter := h.filter fun m => f.names.contains m.1
  unfold part?
  dsimp only
  generalize members.filter (fun m => f.names.contains m.1) = l at hfilter ⊢
  generalize members'.filter (fun m => f.names.contains m.1) = l' at hfilter ⊢
  match l with
  | [] => rw [hfilter.nil_eq]
  | [m] => rw [List.perm_singleton.1 hfilter.symm]
  | m :: m₂ :: rest =>
    match l', hfilter.length_eq with
    | m' :: m₂' :: rest', _ => rfl

/-- A record in which every field was written at most once, in any order of the members, has the
part for a field that was written for it. -/
theorem part?_named {parts : List (Field × Option α)} (hd : Distinct (parts.map (·.1)))
    {members : List (String × α)} (hperm : members.Perm (given parts)) {f : Field}
    {part : Option α} (h : (f, part) ∈ parts) : (named members).part? f = some part := by
  rw [part?_perm hperm]
  unfold part?
  dsimp only
  rw [filter_given hd h]
  cases part <;> rfl

/-- A way of putting members together to an object that keeps members of different names, in some
order. -/
def Arranges (object : List (String × Json) → Json) : Prop :=
  ∀ members, (members.map (·.1)).Nodup →
    ∃ arranged, object members = .obj arranged ∧ arranged.Perm members

lemma arranges_obj : Arranges .obj := fun members _ => ⟨members, rfl, .refl _⟩

lemma arranges_object : Arranges Json.object :=
  fun _ h => ⟨_, rfl, OrderedMap.entries_ofList_perm h⟩

/-- A value that was written field by field holds a record with the parts that were written. -/
lemma of?_written {object : List (String × Json) → Json} (hobject : Arranges object)
    (parts : List (Field × Option Json)) (hd : Distinct (parts.map (·.1))) (arity : Nat) :
    ∃ r, of? arity (object (given parts)) = some r ∧
      ∀ (i : Nat) {f part}, parts[i]? = some (f, part) → r.part? f = some part := by
  obtain ⟨arranged, harranged, hperm⟩ := hobject (given parts) (nodup_given hd)
  rw [harranged]
  exact ⟨named arranged, rfl, fun i _ _ h => part?_named hd hperm (List.mem_of_getElem? h)⟩

lemma required?_eq {r : Record α} {f : Field} {a : α} (h : r.part? f = some (some a))
    (read : α → Option β) : r.required? f read = read a := by
  rw [required?, h]
  rfl

lemma optional?_eq {r : Record α} {f : Field} {part : Option α} (h : r.part? f = some part)
    (missing : β) (read : α → Option β) :
    r.optional? f missing read = part.elim (some missing) read := by
  rw [optional?, h]
  cases part <;> rfl

lemma optional?_cases {r : Record α} {f : Field} {missing b : β} {read : α → Option β}
    (h : r.optional? f missing read = some b) : b = missing ∨ ∃ a, read a = some b := by
  obtain ⟨part, hpart, hread⟩ := Option.bind_eq_some_iff.1 h
  cases part with
  | none => exact .inl (Option.some.inj hread).symm
  | some a => exact .inr ⟨a, hread⟩

end Record

end TraceTimeline
