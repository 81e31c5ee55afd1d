import Mathlib.Data.List.Forall2
import Mathlib.Data.Option.Basic
import TraceTimeline.Proofs.Json.Record

/-!
# Representations that are read alike

The same record can come as a text that is read part by part and as a value.  Two representations
are alike if their outermost levels are of one kind, with parts that are alike again, and if they
are read as the same value (`Alike`).  The members of two objects may come in different orders.  All
that is built from readers of this library then reads the same from both.

A text and the value that it denotes are alike if no object in the text names a member twice
(`alike_denotes`).  Without that they are not: where a text repeats a member, reading it part by
part finds both, and the value has only the last.
-/

namespace TraceTimeline

variable {α β γ : Type}

/-- Two levels of one kind, with parts that are related; members may be in another order. -/
inductive Layer.Alike (R : α → β → Prop) : Layer α → Layer β → Prop where
  | null : Alike R .null .null
  | bool (b : Bool) : Alike R (.bool b) (.bool b)
  | num (n : Number) : Alike R (.num n) (.num n)
  | str (s : String) : Alike R (.str s) (.str s)
  | arr {as : List α} {bs : List β} (h : List.Forall₂ R as bs) : Alike R (.arr as) (.arr bs)
  | obj {ms : List (String × α)} {ns ns' : List (String × β)}
      (h : List.Forall₂ (fun m n => m.1 = n.1 ∧ R m.2 n.2) ms ns) (hperm : ns.Perm ns') :
      Alike R (.obj ms) (.obj ns')

/-- Representations that are related have outermost levels of one kind, and denote one value. -/
structure Alike (R : α → β → Prop) [Source α] [Source β] : Prop where
  layer : ∀ {a b}, R a b → ∃ l l', Source.layer? a = some l ∧ Source.layer? b = some l' ∧
    Layer.Alike R l l'
  value : ∀ {a b}, R a b → Source.value? a = Source.value? b

/-- Two readers give the same result where they read representations that are related. -/
def Agree (R : α → β → Prop) (f : α → Option γ) (g : β → Option γ) : Prop :=
  ∀ ⦃a b⦄, R a b → f a = g b

lemma Agree.map {R : α → β → Prop} {δ : Type} {f : α → Option γ} {g : β → Option γ}
    (h : Agree R f g) (k : γ → δ) : Agree R (fun a => (f a).map k) fun b => (g b).map k :=
  fun _ _ hab => congrArg (Option.map k) (h hab)

/-- A list of parts is read if each of them is. -/
lemma mapM_eq_some_iff {f : α → Option γ} {as : List α} {cs : List γ} :
    as.mapM f = some cs ↔ List.Forall₂ (fun a c => f a = some c) as cs := by
  induction as generalizing cs with
  | nil => simp [eq_comm]
  | cons a rest ih =>
    rw [List.mapM_cons]
    constructor
    · intro h
      obtain ⟨c, hc, h⟩ := Option.bind_eq_some_iff.1 h
      obtain ⟨cs', hcs', h⟩ := Option.bind_eq_some_iff.1 h
      obtain rfl := Option.some.inj h
      exact .cons hc (ih.1 hcs')
    · rintro (_ | ⟨hc, hrest⟩)
      rw [hc, ih.2 hrest]
      rfl

lemma mapM_eq_of_agree {R : α → β → Prop} {f : α → Option γ} {g : β → Option γ}
    (hfg : Agree R f g) {as : List α} {bs : List β} (h : List.Forall₂ R as bs) :
    as.mapM f = bs.mapM g := by
  induction h with
  | nil => rfl
  | cons hitem _ ih => rw [List.mapM_cons, List.mapM_cons, hfg hitem, ih]

/-- What a list of parts was read to was read from the parts. -/
lemma exists_of_mem_mapM {f : α → Option γ} {as : List α} {cs : List γ} (h : as.mapM f = some cs)
    {c : γ} (hc : c ∈ cs) : ∃ a ∈ as, f a = some c := by
  induction mapM_eq_some_iff.1 h with
  | nil => exact absurd hc List.not_mem_nil
  | cons hread hrest ih =>
    rcases List.mem_cons.1 hc with rfl | hc
    · exact ⟨_, List.mem_cons_self .., hread⟩
    · obtain ⟨a, ha, hread⟩ := ih (mapM_eq_some_iff.2 hrest) hc
      exact ⟨a, List.mem_cons_of_mem _ ha, hread⟩

namespace Alike

variable [Source α] [Source β] {R : α → β → Prop}

/-! ## Simple parts -/

lemma string? (hR : Alike R) : Agree R Source.string? Source.string? := by
  intro a b h
  obtain ⟨l, l', hl, hl', hlayer⟩ := hR.layer h
  unfold Source.string?
  rw [hl, hl']
  cases hlayer <;> rfl

lemma int? (hR : Alike R) : Agree R Source.int? Source.int? := by
  intro a b h
  obtain ⟨l, l', hl, hl', hlayer⟩ := hR.layer h
  unfold Source.int?
  rw [hl, hl']
  cases hlayer with
  | num n => cases n <;> rfl
  | _ => rfl

lemma uint64? (hR : Alike R) : Agree R Source.uint64? Source.uint64? := by
  intro a b h
  unfold Source.uint64?
  rw [hR.int? h]

lemma uint32? (hR : Alike R) : Agree R Source.uint32? Source.uint32? := by
  intro a b h
  unfold Source.uint32?
  rw [hR.int? h]

lemma int64? (hR : Alike R) : Agree R Source.int64? Source.int64? := by
  intro a b h
  unfold Source.int64?
  rw [hR.int? h]

lemma identifier? (hR : Alike R) : Agree R Source.identifier? Source.identifier? := by
  intro a b h
  unfold Source.identifier?
  rw [hR.value h]

/-- Lists of parts read the same if the parts do. -/
lemma list? (hR : Alike R) {f : α → Option γ} {g : β → Option γ} (hfg : Agree R f g) :
    Agree R (Source.list? f) (Source.list? g) := by
  intro a b h
  obtain ⟨l, l', hl, hl', hlayer⟩ := hR.layer h
  unfold Source.list?
  rw [hl, hl']
  cases hlayer with
  | arr hitems => exact mapM_eq_of_agree hfg hitems
  | _ => rfl

/-- So does what may be `null`. -/
lemma nullable? (hR : Alike R) {f : α → Option γ} {g : β → Option γ} (hfg : Agree R f g) :
    Agree R (Source.nullable? f) (Source.nullable? g) := by
  intro a b h
  obtain ⟨l, l', hl, hl', hlayer⟩ := hR.layer h
  unfold Source.nullable?
  rw [hl, hl', hfg h]
  cases hlayer <;> rfl

end Alike

/-! ## Records -/

namespace Record

/-- Two records whose unread parts are related; members may be in another order. -/
inductive Alike (R : α → β → Prop) : Record α → Record β → Prop where
  | named {ms : List (String × α)} {ns ns' : List (String × β)}
      (h : List.Forall₂ (fun m n => m.1 = n.1 ∧ R m.2 n.2) ms ns) (hperm : ns.Perm ns') :
      Alike R (named ms) (named ns')
  | listed {as : List α} {bs : List β} (h : List.Forall₂ R as bs) : Alike R (listed as) (listed bs)

variable {R : α → β → Prop} {r : Record α} {r' : Record β}

/-- Items at one place are related. -/
lemma rel_getElem? {as : List α} {bs : List β} (h : List.Forall₂ R as bs) (i : Nat) :
    Option.Rel R as[i]? bs[i]? := by
  induction h generalizing i with
  | nil => exact .none
  | cons hitem _ ih =>
    cases i with
    | zero => exact .some hitem
    | succ i => exact ih i

/-- Members of a name are related. -/
lemma forall₂_filter {ms : List (String × α)} {ns : List (String × β)}
    (h : List.Forall₂ (fun m n => m.1 = n.1 ∧ R m.2 n.2) ms ns) (p : String → Bool) :
    List.Forall₂ (fun m n => m.1 = n.1 ∧ R m.2 n.2) (ms.filter fun m => p m.1)
      (ns.filter fun n => p n.1) := by
  induction h with
  | nil => exact .nil
  | @cons m n ms ns hmember _ ih =>
    cases hp : p m.1 with
    | true =>
      have hp' : p n.1 = true := hmember.1 ▸ hp
      rw [List.filter_cons, List.filter_cons, if_pos hp, if_pos hp']
      exact .cons hmember ih
    | false =>
      have hp' : p n.1 = false := hmember.1 ▸ hp
      rw [List.filter_cons, List.filter_cons, if_neg (by simp [hp]), if_neg (by simp [hp'])]
      exact ih

/-- The same fields have parts in both records, and these are related. -/
lemma Alike.part? (h : Alike R r r') (f : Field) :
    Option.Rel (Option.Rel R) (r.part? f) (r'.part? f) := by
  cases h with
  | listed hitems => exact .some (rel_getElem? hitems f.position)
  | named hmembers hperm =>
    rw [← part?_perm hperm f]
    have hfiltered := forall₂_filter hmembers fun name => f.names.contains name
    unfold Record.part?
    dsimp only
    revert hfiltered
    generalize List.filter _ _ = ms
    generalize List.filter _ _ = ns
    intro hfiltered
    cases hfiltered with
    | nil => exact .some .none
    | cons hmember hrest =>
      cases hrest with
      | nil => exact .some (.some hmember.2)
      | cons _ _ => exact .none

/-- A field that has to be given reads the same. -/
lemma Alike.required? (h : Alike R r r') (f : Field) {read : α → Option γ} {read' : β → Option γ}
    (hread : Agree R read read') : r.required? f read = r'.required? f read' := by
  have hpart := h.part? f
  unfold Record.required?
  generalize r.part? f = part at hpart
  generalize r'.part? f = part' at hpart
  cases hpart with
  | none => rfl
  | some hgiven =>
    cases hgiven with
    | none => rfl
    | some ha => exact hread ha

/-- A field that may be missing reads the same. -/
lemma Alike.optional? (h : Alike R r r') (f : Field) (missing : γ) {read : α → Option γ}
    {read' : β → Option γ} (hread : Agree R read read') :
    r.optional? f missing read = r'.optional? f missing read' := by
  have hpart := h.part? f
  unfold Record.optional?
  generalize r.part? f = part at hpart
  generalize r'.part? f = part' at hpart
  cases hpart with
  | none => rfl
  | some hgiven =>
    cases hgiven with
    | none => rfl
    | some ha => exact hread ha

/-- What is made of a record, if there is one, is the same if it is made of fields that read the
same. -/
lemma bind_eq_of_rel {S : Record α → Record β → Prop} {r : Option (Record α)}
    {r' : Option (Record β)} (h : Option.Rel S r r') {f : Record α → Option γ}
    {g : Record β → Option γ} (hfg : ∀ r r', S r r' → f r = g r') : r.bind f = r'.bind g := by
  cases h with
  | none => rfl
  | some hr => exact hfg _ _ hr

end Record

/-- Representations that are related hold records that are. -/
lemma Alike.of? [Source α] [Source β] {R : α → β → Prop} (hR : Alike R) (arity : Nat) {a : α}
    {b : β} (h : R a b) :
    Option.Rel (Record.Alike R) (Record.of? arity a) (Record.of? arity b) := by
  obtain ⟨l, l', hl, hl', hlayer⟩ := hR.layer h
  unfold Record.of?
  rw [hl, hl']
  cases hlayer with
  | arr hitems =>
    dsimp only
    rw [hitems.length_eq]
    split
    · exact .some (.listed hitems)
    · exact .none
  | obj hmembers hperm => exact .some (.named hmembers hperm)
  | _ => exact .none

/-! ## Texts and the values that they denote -/

namespace Document

mutual

/-- Whether no object of a document has two members of one name. -/
def namesDiffer : Document → Bool
  | .arr items => itemsDiffer items
  | .obj members => (members.map (·.1)).Nodup && membersDiffer members
  | _ => true

def itemsDiffer : List Document → Bool
  | [] => true
  | d :: rest => namesDiffer d && itemsDiffer rest

def membersDiffer : List (Option String × Document) → Bool
  | [] => true
  | m :: rest => namesDiffer m.2 && membersDiffer rest

end

end Document

namespace Document

/-! ### Denotation part by part -/

/-- The items of an array denote the values of its value. -/
lemma forall₂_itemValues? {room : Nat} {items : List Document} {vs : List Json}
    (h : itemValues? room items = some vs) :
    List.Forall₂ (fun d v => value? room d = some v) items vs := by
  induction items generalizing vs with
  | nil =>
    rw [itemValues?, Option.some.injEq] at h
    subst h
    exact .nil
  | cons d rest ih =>
    rw [itemValues?] at h
    obtain ⟨v, hv, h⟩ := Option.bind_eq_some_iff.1 h
    obtain ⟨vs', hvs', h⟩ := Option.bind_eq_some_iff.1 h
    obtain rfl := Option.some.inj h
    exact .cons hv (ih hvs')

/-- The members of an object denote names and values. -/
lemma forall₂_memberValues? {room : Nat} {members : List (Option String × Document)}
    {vs : List (String × Json)} (h : memberValues? room members = some vs) :
    List.Forall₂ (fun m v => m.1 = some v.1 ∧ value? room m.2 = some v.2) members vs := by
  induction members generalizing vs with
  | nil =>
    rw [memberValues?, Option.some.injEq] at h
    subst h
    exact .nil
  | cons m rest ih =>
    obtain ⟨name, d⟩ := m
    rw [memberValues?] at h
    obtain ⟨k, hk, h⟩ := Option.bind_eq_some_iff.1 h
    obtain ⟨v, hv, h⟩ := Option.bind_eq_some_iff.1 h
    obtain ⟨vs', hvs', h⟩ := Option.bind_eq_some_iff.1 h
    obtain rfl := Option.some.inj h
    exact .cons ⟨hk, hv⟩ (ih hvs')

mutual

/-- More room does not change what a document denotes. -/
theorem value?_of_le {room room' : Nat} (hle : room ≤ room') :
    (d : Document) → (v : Json) → value? room d = some v → value? room' d = some v
  | .null, _, h => h
  | .bool _, _, h => h
  | .num _, _, h => h
  | .str _, _, h => h
  | .arr items, v, h => by
    cases room with
    | zero => cases h
    | succ room =>
      obtain ⟨room', rfl⟩ : ∃ n, room' = n + 1 := ⟨room' - 1, by omega⟩
      rw [value?] at h ⊢
      obtain ⟨vs, hvs, hv⟩ := Option.map_eq_some_iff.1 h
      rw [itemValues?_of_le (Nat.le_of_succ_le_succ hle) items vs hvs, Option.map_some, hv]
  | .obj members, v, h => by
    cases room with
    | zero => cases h
    | succ room =>
      obtain ⟨room', rfl⟩ : ∃ n, room' = n + 1 := ⟨room' - 1, by omega⟩
      rw [value?] at h ⊢
      obtain ⟨vs, hvs, hv⟩ := Option.map_eq_some_iff.1 h
      rw [memberValues?_of_le (Nat.le_of_succ_le_succ hle) members vs hvs, Option.map_some, hv]

theorem itemValues?_of_le {room room' : Nat} (hle : room ≤ room') :
    (items : List Document) → (vs : List Json) → itemValues? room items = some vs →
      itemValues? room' items = some vs
  | [], _, h => h
  | d :: rest, vs, h => by
    rw [itemValues?] at h ⊢
    obtain ⟨v, hv, h⟩ := Option.bind_eq_some_iff.1 h
    obtain ⟨vs', hvs', h⟩ := Option.bind_eq_some_iff.1 h
    rw [value?_of_le hle d v hv, itemValues?_of_le hle rest vs' hvs']
    exact h

theorem memberValues?_of_le {room room' : Nat} (hle : room ≤ room') :
    (members : List (Option String × Document)) → (vs : List (String × Json)) →
      memberValues? room members = some vs → memberValues? room' members = some vs
  | [], _, h => h
  | (name, d) :: rest, vs, h => by
    rw [memberValues?] at h ⊢
    obtain ⟨k, hk, h⟩ := Option.bind_eq_some_iff.1 h
    obtain ⟨v, hv, h⟩ := Option.bind_eq_some_iff.1 h
    obtain ⟨vs', hvs', h⟩ := Option.bind_eq_some_iff.1 h
    rw [hk, Option.bind_eq_bind, Option.bind_some, value?_of_le hle d v hv,
      memberValues?_of_le hle rest vs' hvs']
    exact h

end

end Document

/-- A part of a text denotes a value, if it is not nested too deeply, and repeats no name. -/
def Denotes (n : Nested) (v : Json) : Prop :=
  n.document.namesDiffer = true ∧ n.document.value? n.room = some v

namespace Nested

/-- The items of an array denote their values. -/
lemma denotes_of_forall₂ {room : Nat} {items : List Document}
    (hdiffer : Document.itemsDiffer items = true) {vs : List Json}
    (h : List.Forall₂ (fun d v => d.value? room = some v) items vs) :
    List.Forall₂ Denotes (items.map (⟨·, room⟩)) vs := by
  induction h with
  | nil => exact .nil
  | cons hd _ ih =>
    rw [Document.itemsDiffer, Bool.and_eq_true] at hdiffer
    exact .cons ⟨hdiffer.1, hd⟩ (ih hdiffer.2)

/-- The members of an object are read part by part as they denote names and values. -/
lemma members?_of_forall₂ {room : Nat} {members : List (Option String × Document)}
    (hdiffer : Document.membersDiffer members = true) {vs : List (String × Json)}
    (h : List.Forall₂ (fun m v => m.1 = some v.1 ∧ m.2.value? room = some v.2) members vs) :
    ∃ ms, members? room members = some ms ∧
      List.Forall₂ (fun m n => m.1 = n.1 ∧ Denotes m.2 n.2) ms vs := by
  induction h with
  | nil => exact ⟨[], rfl, .nil⟩
  | @cons m v rest vs hm _ ih =>
    obtain ⟨name, d⟩ := m
    rw [Document.membersDiffer, Bool.and_eq_true] at hdiffer
    obtain ⟨ms, hms, hrel⟩ := ih hdiffer.2
    obtain ⟨hname, hvalue⟩ := hm
    refine ⟨(v.1, ⟨d, room⟩) :: ms, ?_, .cons ⟨rfl, hdiffer.1, hvalue⟩ hrel⟩
    dsimp only at hname
    rw [members?, hname, hms]
    rfl

end Nested

/-- The members of an object denote members of different names if their own names differ. -/
lemma nodup_names {room : Nat} {members : List (Option String × Document)}
    {vs : List (String × Json)} (hnames : (members.map (·.1)).Nodup)
    (h : List.Forall₂ (fun m v => m.1 = some v.1 ∧ m.2.value? room = some v.2) members vs) :
    (vs.map (·.1)).Nodup := by
  have hmap : members.map (·.1) = (vs.map (·.1)).map some := by
    clear hnames
    induction h with
    | nil => rfl
    | cons hm _ ih => rw [List.map_cons, List.map_cons, List.map_cons, hm.1, ih]
  rw [hmap] at hnames
  exact hnames.of_map

/-- A text that repeats no name is read like the value that it denotes. -/
theorem alike_denotes : Alike Denotes where
  value h := h.2
  layer {n v} h := by
    obtain ⟨d, room⟩ := n
    obtain ⟨hdiffer, hvalue⟩ := h
    dsimp only at hdiffer hvalue
    cases d with
    | null =>
      obtain rfl := Option.some.inj hvalue
      exact ⟨_, _, rfl, rfl, .null⟩
    | bool b =>
      obtain rfl := Option.some.inj hvalue
      exact ⟨_, _, rfl, rfl, .bool b⟩
    | num x =>
      obtain ⟨x, rfl, rfl⟩ := Option.map_eq_some_iff.1 hvalue
      exact ⟨_, _, rfl, rfl, .num x⟩
    | str s =>
      obtain ⟨s, rfl, rfl⟩ := Option.map_eq_some_iff.1 hvalue
      exact ⟨_, _, rfl, rfl, .str s⟩
    | arr items =>
      cases room with
      | zero => cases hvalue
      | succ room =>
        rw [Document.value?] at hvalue
        obtain ⟨vs, hvs, rfl⟩ := Option.map_eq_some_iff.1 hvalue
        rw [Document.namesDiffer] at hdiffer
        have hitems := Nested.denotes_of_forall₂ hdiffer (Document.forall₂_itemValues? hvs)
        exact ⟨_, _, rfl, rfl, .arr hitems⟩
    | obj members =>
      cases room with
      | zero => cases hvalue
      | succ room =>
        rw [Document.value?] at hvalue
        obtain ⟨vs, hvs, rfl⟩ := Option.map_eq_some_iff.1 hvalue
        rw [Document.namesDiffer, Bool.and_eq_true, decide_eq_true_eq] at hdiffer
        have hdenoted := Document.forall₂_memberValues? hvs
        obtain ⟨ms, hms, hrel⟩ := Nested.members?_of_forall₂ hdiffer.2 hdenoted
        have hperm : vs.Perm (OrderedMap.ofList vs).entries :=
          (OrderedMap.entries_ofList_perm (nodup_names hdiffer.1 hdenoted)).symm
        have hlayer : Source.layer? (⟨.obj members, room + 1⟩ : Nested) = some (.obj ms) := by
          show (Nested.members? room members).map Layer.obj = _
          rw [hms]
          rfl
        exact ⟨_, _, hlayer, rfl, .obj hrel hperm⟩

end TraceTimeline
