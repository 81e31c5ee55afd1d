/-!
# Finite maps in key order

A finite map is the list of its bindings in strictly ascending order of their keys.  The order is
part of the type, so that a map has one representation: two maps with the same bindings are equal,
and writing a map out always gives the same text.

`OrderedMap.ext_get?` is that statement; `get?_insert`, `get?_erase` and `get?_filterKeys` say
what the updates do to a look-up.
-/

namespace TraceTimeline

/-- A finite map from `K` to `V`, held as its bindings in strictly ascending key order. -/
structure OrderedMap (K V : Type) [LT K] where
  /-- The bindings, in ascending order. -/
  entries : List (K × V)
  /-- The keys ascend strictly. -/
  ascending : entries.Pairwise (fun a b => a.1 < b.1)
deriving DecidableEq

namespace OrderedMap

variable {K V W : Type}

/-! ## Bindings as a list -/

/-- The value bound to a key in a list of bindings: that of the first binding of the key. -/
def lookup [DecidableEq K] (k : K) : List (K × V) → Option V
  | [] => none
  | (k', v) :: rest => if k = k' then some v else lookup k rest

/-- The bindings with `k` bound to `v`, at the place of `k` in ascending order. -/
def place [DecidableEq K] [LT K] [DecidableLT K] (k : K) (v : V) : List (K × V) → List (K × V)
  | [] => [(k, v)]
  | (k', v') :: rest =>
    if k < k' then (k, v) :: (k', v') :: rest
    else if k = k' then (k, v) :: rest
    else (k', v') :: place k v rest

theorem lookup_filter [DecidableEq K] (k : K) (p : K → Bool) (l : List (K × V)) :
    lookup k (l.filter fun e => p e.1) = if p k then lookup k l else none := by
  induction l with
  | nil => simp [lookup]
  | cons hd tl ih => obtain ⟨k₁, v₁⟩ := hd; grind [lookup]

theorem lookup_place [DecidableEq K] [LT K] [DecidableLT K] (k k' : K) (v : V)
    (l : List (K × V)) :
    lookup k' (place k v l) = if k' = k then some v else lookup k' l := by
  induction l with
  | nil => simp [place, lookup]
  | cons hd tl ih => obtain ⟨k₁, v₁⟩ := hd; grind [place, lookup]

theorem eq_or_mem_of_mem_place [DecidableEq K] [LT K] [DecidableLT K] {k : K} {v : V} {e : K × V}
    {l : List (K × V)} (h : e ∈ place k v l) : e = (k, v) ∨ e ∈ l := by
  induction l with
  | nil => simpa [place] using h
  | cons hd tl ih => obtain ⟨k', v'⟩ := hd; grind [place]

theorem pairwise_place [DecidableEq K] [LT K] [DecidableLT K] [LE K] [Std.IsLinearOrder K]
    [Std.LawfulOrderLT K] (k : K) (v : V) {l : List (K × V)}
    (h : l.Pairwise (fun a b => a.1 < b.1)) : (place k v l).Pairwise (fun a b => a.1 < b.1) := by
  induction l with
  | nil => simp [place]
  | cons hd tl ih =>
    obtain ⟨k', v'⟩ := hd
    rw [List.pairwise_cons] at h
    rw [place]
    split
    · next hlt =>
      refine List.pairwise_cons.2 ⟨fun e he => ?_, List.pairwise_cons.2 h⟩
      rcases List.mem_cons.1 he with rfl | he
      · exact hlt
      · exact Std.lt_trans hlt (h.1 e he)
    · next hlt =>
      split
      · next heq => subst heq; exact List.pairwise_cons.2 h
      · next hne =>
        refine List.pairwise_cons.2 ⟨fun e he => ?_, ih h.2⟩
        rcases eq_or_mem_of_mem_place he with rfl | he
        · rcases Std.lt_trichotomy k k' with h1 | h1 | h1
          · exact absurd h1 hlt
          · exact absurd h1 hne
          · exact h1
        · exact h.1 e he

/-! ## Maps -/

section

variable [LT K]

def empty : OrderedMap K V := ⟨[], .nil⟩

instance : Inhabited (OrderedMap K V) := ⟨empty⟩

def size (m : OrderedMap K V) : Nat := m.entries.length

def isEmpty (m : OrderedMap K V) : Bool := m.entries.isEmpty

/-- The keys, in ascending order. -/
def keys (m : OrderedMap K V) : List K := m.entries.map (·.1)

/-- The binding of every key put through `f`. -/
def mapValues (f : V → W) (m : OrderedMap K V) : OrderedMap K W :=
  ⟨m.entries.map fun e => (e.1, f e.2), by
    rw [List.pairwise_map]; exact m.ascending⟩

/-- The bindings whose key satisfies `p`. -/
def filterKeys (p : K → Bool) (m : OrderedMap K V) : OrderedMap K V :=
  ⟨m.entries.filter fun e => p e.1, m.ascending.filter _⟩

variable [DecidableEq K]

def get? (m : OrderedMap K V) (k : K) : Option V := lookup k m.entries

def erase (m : OrderedMap K V) (k : K) : OrderedMap K V := m.filterKeys (· ≠ k)

variable [DecidableLT K] [LE K] [Std.IsLinearOrder K] [Std.LawfulOrderLT K]

/-- The map with `k` bound to `v`, whatever it was bound to before. -/
def insert (m : OrderedMap K V) (k : K) (v : V) : OrderedMap K V :=
  ⟨place k v m.entries, pairwise_place k v m.ascending⟩

/-- The map of a list of bindings; of two bindings of one key the later one counts. -/
def ofList (l : List (K × V)) : OrderedMap K V := l.foldl (fun m e => m.insert e.1 e.2) empty

end

/-! ## Look-ups after an update -/

@[simp] theorem get?_empty [LT K] [DecidableEq K] (k : K) :
    (empty : OrderedMap K V).get? k = none := rfl

/-- A look-up after an insertion. -/
theorem get?_insert [LT K] [DecidableEq K] [DecidableLT K] [LE K] [Std.IsLinearOrder K]
    [Std.LawfulOrderLT K] (m : OrderedMap K V) (k k' : K) (v : V) :
    (m.insert k v).get? k' = if k' = k then some v else m.get? k' :=
  lookup_place k k' v m.entries

/-- A look-up after a selection of keys. -/
theorem get?_filterKeys [LT K] [DecidableEq K] (m : OrderedMap K V) (p : K → Bool) (k : K) :
    (m.filterKeys p).get? k = if p k then m.get? k else none :=
  lookup_filter k p m.entries

theorem lookup_map [DecidableEq K] (k : K) (f : V → W) (l : List (K × V)) :
    lookup k (l.map fun e => (e.1, f e.2)) = (lookup k l).map f := by
  induction l with
  | nil => rfl
  | cons hd tl ih => obtain ⟨k₁, v₁⟩ := hd; grind [lookup]

/-- A look-up among bindings that are made of the items of a list. -/
theorem lookup_map_eq_find? {A : Type} [DecidableEq K] (k : K) (key : A → K) (f : A → V)
    (l : List A) :
    lookup k (l.map fun a => (key a, f a)) = (l.find? (key · = k)).map f := by
  induction l with
  | nil => rfl
  | cons a rest ih =>
    rw [List.map_cons, lookup, List.find?_cons, ih]
    by_cases hk : k = key a
    · simp [hk]
    · simp [hk, Ne.symm hk]

/-- A look-up after a change of the values. -/
theorem get?_mapValues [LT K] [DecidableEq K] (m : OrderedMap K V) (f : V → W) (k : K) :
    (m.mapValues f).get? k = (m.get? k).map f :=
  lookup_map k f m.entries

/-- A look-up after a removal. -/
theorem get?_erase [LT K] [DecidableEq K] (m : OrderedMap K V) (k k' : K) :
    (m.erase k).get? k' = if k' = k then none else m.get? k' := by
  rw [erase, get?_filterKeys]
  by_cases h : k' = k <;> simp [h]

/-! ## Keys -/

theorem isSome_lookup [DecidableEq K] (k : K) (l : List (K × V)) :
    (lookup k l).isSome ↔ k ∈ l.map (·.1) := by
  induction l with
  | nil => simp [lookup]
  | cons hd tl ih => obtain ⟨k₁, v₁⟩ := hd; grind [lookup]

/-- The keys are what a look-up finds something for. -/
theorem mem_keys [LT K] [DecidableEq K] {m : OrderedMap K V} {k : K} :
    k ∈ m.keys ↔ (m.get? k).isSome :=
  (isSome_lookup k m.entries).symm

/-- A map that is not empty binds some key. -/
theorem isEmpty_eq_false_iff [LT K] [DecidableEq K] {m : OrderedMap K V} :
    m.isEmpty = false ↔ ∃ k, (m.get? k).isSome := by
  simp only [← mem_keys]
  obtain ⟨entries, ascending⟩ := m
  cases entries with
  | nil => simp [isEmpty, keys]
  | cons e rest => simp [isEmpty, keys]

/-- The keys of a map are different. -/
theorem nodup_keys [LT K] [Std.Irrefl fun a b : K => a < b] (m : OrderedMap K V) :
    (m.entries.map (·.1)).Nodup := by
  refine List.pairwise_map.2 (m.ascending.imp fun hlt heq => ?_)
  exact Std.lt_irrefl (heq ▸ hlt)

/-! ## Extensionality -/

/-- Two maps with the same list of bindings are equal. -/
theorem ext_entries [LT K] {m₁ m₂ : OrderedMap K V} (h : m₁.entries = m₂.entries) : m₁ = m₂ := by
  obtain ⟨e₁, a₁⟩ := m₁
  obtain ⟨e₂, a₂⟩ := m₂
  cases h
  rfl

theorem lookup_eq_none_of_lt [LT K] [DecidableEq K] [Std.Irrefl fun a b : K => a < b] {k : K}
    {l : List (K × V)} (h : ∀ e ∈ l, k < e.1) : lookup k l = none := by
  induction l with
  | nil => rfl
  | cons hd tl ih =>
    obtain ⟨k₁, v₁⟩ := hd
    have hlt : k < k₁ := h _ (List.mem_cons_self ..)
    have hne : k ≠ k₁ := fun he => Std.lt_irrefl (he ▸ hlt)
    rw [lookup, if_neg hne]
    exact ih fun e he => h e (List.mem_cons_of_mem _ he)

section

variable [LT K] [DecidableEq K] [LE K] [Std.IsLinearOrder K] [Std.LawfulOrderLT K]

theorem lookup_eq_none_of_lt_head {k k₁ : K} {v₁ : V} {l : List (K × V)}
    (h : ((k₁, v₁) :: l).Pairwise (fun a b => a.1 < b.1)) (hlt : k < k₁) :
    lookup k ((k₁, v₁) :: l) = none :=
  lookup_eq_none_of_lt fun e he => by
    rcases List.mem_cons.1 he with rfl | he
    · exact hlt
    · exact Std.lt_trans hlt ((List.pairwise_cons.1 h).1 e he)

theorem entries_eq_of_lookup {l₁ l₂ : List (K × V)}
    (h₁ : l₁.Pairwise (fun a b => a.1 < b.1)) (h₂ : l₂.Pairwise (fun a b => a.1 < b.1))
    (h : ∀ k, lookup k l₁ = lookup k l₂) : l₁ = l₂ := by
  induction l₁ generalizing l₂ with
  | nil =>
    cases l₂ with
    | nil => rfl
    | cons hd tl => simpa [lookup] using h hd.1
  | cons hd tl ih =>
    obtain ⟨k₁, v₁⟩ := hd
    cases l₂ with
    | nil => simpa [lookup] using h k₁
    | cons hd₂ tl₂ =>
      obtain ⟨k₂, v₂⟩ := hd₂
      -- the smaller of two different first keys would be bound in one of the lists only
      have key : k₁ = k₂ := by
        rcases Std.lt_trichotomy k₁ k₂ with hlt | heq | hlt
        · have := (h k₁).trans (lookup_eq_none_of_lt_head h₂ hlt)
          simp [lookup] at this
        · exact heq
        · have := (h k₂).symm.trans (lookup_eq_none_of_lt_head h₁ hlt)
          simp [lookup] at this
      subst key
      have val : v₁ = v₂ := by simpa [lookup] using h k₁
      subst val
      rw [List.pairwise_cons] at h₁ h₂
      refine congrArg _ (ih h₁.2 h₂.2 fun k => ?_)
      by_cases hk : k = k₁
      · subst hk
        rw [lookup_eq_none_of_lt h₁.1, lookup_eq_none_of_lt h₂.1]
      · simpa [lookup, hk] using h k

/-- Two maps in which every look-up agrees are equal. -/
theorem ext_get? {m₁ m₂ : OrderedMap K V} (h : ∀ k, m₁.get? k = m₂.get? k) : m₁ = m₂ :=
  ext_entries (entries_eq_of_lookup m₁.ascending m₂.ascending h)

end

/-! ## Maps of a list -/

/-- Where a binding was placed there is a binding. -/
theorem place_ne_nil [DecidableEq K] [LT K] [DecidableLT K] (k : K) (v : V) (l : List (K × V)) :
    place k v l ≠ [] := by
  unfold place
  split
  · exact List.cons_ne_nil _ _
  · split
    · exact List.cons_ne_nil _ _
    · split <;> exact List.cons_ne_nil _ _

/-- A key that is not there yet is placed among the bindings, which stay what they are. -/
theorem place_perm [DecidableEq K] [LT K] [DecidableLT K] {k : K} (v : V) {l : List (K × V)}
    (h : k ∉ l.map (·.1)) : (place k v l).Perm ((k, v) :: l) := by
  induction l with
  | nil => exact .refl _
  | cons hd tl ih =>
    obtain ⟨k₁, v₁⟩ := hd
    have hne : k ≠ k₁ := fun heq => h (heq ▸ List.mem_cons_self ..)
    have htl : k ∉ tl.map (·.1) := fun hmem => h (List.mem_cons_of_mem _ hmem)
    rw [place, if_neg hne]
    split
    · exact .refl _
    · exact ((ih htl).cons _).trans (.swap ..)

section

variable [LT K] [DecidableEq K] [DecidableLT K] [LE K] [Std.IsLinearOrder K] [Std.LawfulOrderLT K]

theorem entries_foldl_insert_perm {l : List (K × V)} {m : OrderedMap K V}
    (h : ((m.entries ++ l).map (·.1)).Nodup) :
    (l.foldl (fun m e => m.insert e.1 e.2) m).entries.Perm (m.entries ++ l) := by
  induction l generalizing m with
  | nil => simp
  | cons e rest ih =>
    have hmove : (m.entries ++ e :: rest).Perm (e :: m.entries ++ rest) := List.perm_middle
    have hnodup : ((e :: m.entries ++ rest).map (·.1)).Nodup :=
      (hmove.map _).nodup_iff.1 h
    have hnew : e.1 ∉ m.entries.map (·.1) := by
      intro hmem
      rw [List.cons_append, List.map_cons, List.nodup_cons, List.map_append] at hnodup
      exact hnodup.1 (List.mem_append_left _ hmem)
    have hplaced : (m.insert e.1 e.2).entries.Perm (e :: m.entries) := place_perm e.2 hnew
    have hall := hplaced.append_right rest
    exact (ih ((hall.map _).nodup_iff.2 hnodup)).trans (hall.trans hmove.symm)

/-- A map of bindings of different keys holds these bindings. -/
theorem entries_ofList_perm {l : List (K × V)} (h : (l.map (·.1)).Nodup) :
    (ofList l).entries.Perm l :=
  entries_foldl_insert_perm (l := l) (m := empty) h

/-- A map is the map of its bindings. -/
@[simp] theorem ofList_entries (m : OrderedMap K V) : ofList m.entries = m := by
  have hperm : (ofList m.entries).entries.Perm m.entries := entries_ofList_perm m.nodup_keys
  refine ext_entries ?_
  refine hperm.eq_of_pairwise (fun a b _ _ hab hba => ?_) (ofList m.entries).ascending m.ascending
  exact absurd (Std.lt_trans hab hba) Std.lt_irrefl

theorem mem_of_get?_foldl_insert {l : List (K × V)} {m : OrderedMap K V} {k : K} {v : V}
    (h : (l.foldl (fun m e => m.insert e.1 e.2) m).get? k = some v) :
    (k, v) ∈ l ∨ m.get? k = some v := by
  induction l generalizing m with
  | nil => exact .inr h
  | cons e rest ih =>
    rcases ih h with hmem | hget
    · exact .inl (List.mem_cons_of_mem _ hmem)
    · rw [get?_insert] at hget
      split at hget
      · next heq =>
        cases hget
        exact .inl (heq ▸ List.mem_cons_self ..)
      · exact .inr hget

theorem mem_of_mem_foldl_insert {l : List (K × V)} {m : OrderedMap K V} {e : K × V}
    (h : e ∈ (l.foldl (fun m e => m.insert e.1 e.2) m).entries) : e ∈ l ∨ e ∈ m.entries := by
  induction l generalizing m with
  | nil => exact .inr h
  | cons b rest ih =>
    rcases ih h with hmem | hmem
    · exact .inl (List.mem_cons_of_mem _ hmem)
    · rcases eq_or_mem_of_mem_place hmem with rfl | hmem
      · exact .inl (List.mem_cons_self ..)
      · exact .inr hmem

/-- The bindings of the map of a list stand in the list. -/
theorem mem_of_mem_ofList {l : List (K × V)} {e : K × V} (h : e ∈ (ofList l).entries) : e ∈ l :=
  (mem_of_mem_foldl_insert (m := empty) h).resolve_right List.not_mem_nil

theorem foldl_insert_ne_nil (l : List (K × V)) {m : OrderedMap K V} (h : m.entries ≠ []) :
    (l.foldl (fun m e => m.insert e.1 e.2) m).entries ≠ [] := by
  induction l generalizing m with
  | nil => exact h
  | cons e rest ih => exact ih (place_ne_nil e.1 e.2 m.entries)

/-- The map of a list has no bindings only if the list has none. -/
theorem ofList_eq_empty_iff {l : List (K × V)} : ofList l = empty ↔ l = [] := by
  constructor
  · intro h
    cases l with
    | nil => rfl
    | cons e rest =>
      exact absurd (congrArg entries h) (foldl_insert_ne_nil rest (place_ne_nil e.1 e.2 []))
  · rintro rfl
    rfl

/-- What the map of a list binds stands in the list. -/
theorem mem_of_get?_ofList {l : List (K × V)} {k : K} {v : V} (h : (ofList l).get? k = some v) :
    (k, v) ∈ l := by
  rcases mem_of_get?_foldl_insert (m := empty) h with hmem | hget
  · exact hmem
  · cases hget

end

end OrderedMap

end TraceTimeline
