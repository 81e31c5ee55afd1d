import Mathlib
import TraceTimeline.Timeline.Store

/-!
# Chronicles

A chronicle is a run as far as it is known: its steps in strictly ascending order of their numbers,
hence at most one step for each number.  It is what a store would be if it had no capacity, and the
properties of stores are stated by comparing a store with a chronicle.

A step that becomes known takes the place of the step with its number (`Chronicle.note`).  A
chronicle is determined by its look-ups (`Chronicle.ext_find?`), so the order in which steps become
known matters only for steps of one number, where the last one counts (`Chronicle.find?_ofList`).
-/

namespace TraceTimeline

/-- A run as far as it is known. -/
structure Chronicle where
  /-- The steps, in ascending order of their numbers. -/
  steps : List Step
  /-- The numbers ascend strictly. -/
  ascending : steps.Pairwise (fun a b => a.id < b.id)

namespace Chronicle

def empty : Chronicle := ⟨[], .nil⟩

/-- The steps below a number, a step of that number, and the steps above it still ascend. -/
lemma ascending_around (c : Chronicle) (x : Step) :
    (c.steps.filter (·.id < x.id) ++ x :: c.steps.filter (x.id < ·.id)).Pairwise
      (fun a b => a.id < b.id) := by
  refine List.pairwise_append.2 ⟨c.ascending.filter _, ?_, ?_⟩
  · refine List.pairwise_cons.2 ⟨fun y hy => ?_, c.ascending.filter _⟩
    simpa using (List.mem_filter.1 hy).2
  · intro y hy z hz
    have hyx : y.id < x.id := by simpa using (List.mem_filter.1 hy).2
    rcases List.mem_cons.1 hz with rfl | hz
    · exact hyx
    · have hxz : x.id < z.id := by simpa using (List.mem_filter.1 hz).2
      exact Std.lt_trans hyx hxz

/-- The chronicle after a step became known; it takes the place of the step with its number. -/
def note (c : Chronicle) (x : Step) : Chronicle :=
  ⟨c.steps.filter (·.id < x.id) ++ x :: c.steps.filter (x.id < ·.id), c.ascending_around x⟩

/-- The chronicle of steps that became known one after another. -/
def ofList (l : List Step) : Chronicle := l.foldl note empty

/-- The step with a number. -/
def find? (c : Chronicle) (id : StepId) : Option Step := c.steps.find? (·.id = id)

/-- The steps up to a number. -/
def upTo (c : Chronicle) (id : StepId) : List Step := c.steps.filter (·.id ≤ id)

/-- All but the last `n` steps. -/
def early (c : Chronicle) (n : Nat) : List Step := c.steps.take (c.steps.length - n)

/-- The last `n` steps. -/
def recent (c : Chronicle) (n : Nat) : List Step := c.steps.drop (c.steps.length - n)

/-! ## Membership and look-ups -/

variable {c d : Chronicle}

lemma nodup_ids (c : Chronicle) : (c.steps.map (·.id)).Nodup :=
  List.pairwise_map.2 (c.ascending.imp fun h => UInt64.ne_of_lt h)

lemma nodup_steps (c : Chronicle) : c.steps.Nodup := c.nodup_ids.of_map

lemma length_le_of_steps_subset {l : List Step} (h : c.steps ⊆ l) : c.steps.length ≤ l.length :=
  (c.nodup_steps.subperm h).length_le

lemma eq_of_id_eq {x y : Step} (hx : x ∈ c.steps) (hy : y ∈ c.steps) (h : x.id = y.id) : x = y :=
  List.inj_on_of_nodup_map c.nodup_ids hx hy h

/-- A chronicle is determined by the steps in it. -/
lemma ext_mem (h : ∀ x, x ∈ c.steps ↔ x ∈ d.steps) : c = d := by
  obtain ⟨l, hl⟩ := c
  obtain ⟨m, hm⟩ := d
  have hperm : l.Perm m :=
    (List.perm_ext_iff_of_nodup (List.Nodup.of_map _ (nodup_ids ⟨l, hl⟩))
      (List.Nodup.of_map _ (nodup_ids ⟨m, hm⟩))).2 h
  have heq : l = m := hperm.eq_of_pairwise
    (fun a b _ _ hab hba => absurd (Std.lt_trans hab hba) Std.lt_irrefl) hl hm
  subst heq
  rfl

@[simp] lemma steps_empty : empty.steps = [] := rfl

/-- The last step is the one of the greatest number. -/
lemma getLast?_eq_some_iff {y : Step} :
    c.steps.getLast? = some y ↔ y ∈ c.steps ∧ ∀ z ∈ c.steps, z.id ≤ y.id := by
  have hlast {y : Step} (h : c.steps.getLast? = some y) :
      y ∈ c.steps ∧ ∀ z ∈ c.steps, z.id ≤ y.id := by
    obtain ⟨front, hsplit⟩ := List.getLast?_eq_some_iff.1 h
    have hasc := c.ascending
    rw [hsplit] at hasc ⊢
    refine ⟨by simp, fun z hz => ?_⟩
    rcases List.mem_append.1 hz with hz | hz
    · exact Std.le_of_lt ((List.pairwise_append.1 hasc).2.2 z hz y (by simp))
    · rw [List.mem_singleton.1 hz]
      exact Std.le_refl _
  refine ⟨hlast, fun ⟨hy, hmax⟩ => ?_⟩
  cases heq : c.steps.getLast? with
  | none => exact absurd hy (by simp [List.getLast?_eq_none_iff.1 heq])
  | some z =>
    obtain ⟨hz, hmaxz⟩ := hlast heq
    rw [eq_of_id_eq hz hy (Std.le_antisymm (hmax z hz) (hmaxz y hy))]

/-- What is known after a step became known: that step, and all others of different numbers. -/
lemma mem_note {x y : Step} : y ∈ (c.note x).steps ↔ y = x ∨ y ∈ c.steps ∧ y.id ≠ x.id := by
  simp only [note, List.mem_append, List.mem_cons, List.mem_filter, decide_eq_true_eq]
  constructor
  · rintro (⟨hy, hlt⟩ | rfl | ⟨hy, hlt⟩)
    · exact .inr ⟨hy, fun he => Std.lt_irrefl (he ▸ hlt)⟩
    · exact .inl rfl
    · exact .inr ⟨hy, fun he => Std.lt_irrefl (he ▸ hlt)⟩
  · rintro (rfl | ⟨hy, hne⟩)
    · exact .inr (.inl rfl)
    · rcases Std.lt_trichotomy y.id x.id with hlt | heq | hgt
      · exact .inl ⟨hy, hlt⟩
      · exact absurd heq hne
      · exact .inr (.inr ⟨hy, hgt⟩)

lemma mem_note_self (c : Chronicle) (x : Step) : x ∈ (c.note x).steps := mem_note.2 (.inl rfl)

lemma exists_mem_note {y : Step} (hy : y ∈ c.steps) (x : Step) :
    ∃ z ∈ (c.note x).steps, z.id = y.id := by
  by_cases hid : y.id = x.id
  · exact ⟨x, mem_note_self c x, hid.symm⟩
  · exact ⟨y, mem_note.2 (.inr ⟨hy, hid⟩), rfl⟩

/-- All numbers are up to another one after a step became known if they were before and the step's
number is. -/
lemma forall_mem_note_le_iff {x : Step} {id : StepId} :
    (∀ y ∈ (c.note x).steps, y.id ≤ id) ↔ x.id ≤ id ∧ ∀ y ∈ c.steps, y.id ≤ id := by
  constructor
  · intro h
    refine ⟨h x (mem_note_self c x), fun y hy => ?_⟩
    obtain ⟨z, hz, hid⟩ := exists_mem_note hy x
    rw [← hid]
    exact h z hz
  · rintro ⟨hx, hall⟩ y hy
    rcases mem_note.1 hy with rfl | ⟨hy, -⟩
    · exact hx
    · exact hall y hy

/-- A look-up finds the step with the number. -/
lemma find?_eq_some_iff {id : StepId} {x : Step} :
    c.find? id = some x ↔ x ∈ c.steps ∧ x.id = id := by
  constructor
  · intro h
    exact ⟨List.mem_of_find?_eq_some h, by simpa using List.find?_some h⟩
  · rintro ⟨hx, rfl⟩
    cases hf : c.find? x.id with
    | none => exact absurd (List.find?_eq_none.1 hf x hx) (by simp)
    | some y =>
      have hid : y.id = x.id := by simpa using List.find?_some hf
      rw [eq_of_id_eq (List.mem_of_find?_eq_some hf) hx hid]

lemma ext_find? (h : ∀ id, c.find? id = d.find? id) : c = d := by
  refine ext_mem fun x => ?_
  have hc : x ∈ c.steps ↔ c.find? x.id = some x := by simp [find?_eq_some_iff]
  have hd : x ∈ d.steps ↔ d.find? x.id = some x := by simp [find?_eq_some_iff]
  rw [hc, hd, h]

/-- A look-up after a step became known. -/
lemma find?_note (c : Chronicle) (x : Step) (id : StepId) :
    (c.note x).find? id = if id = x.id then some x else c.find? id := by
  refine Option.ext fun y => ?_
  by_cases hid : id = x.id
  · rw [if_pos hid, find?_eq_some_iff, mem_note, Option.some.injEq]
    constructor
    · rintro ⟨rfl | ⟨-, hne⟩, hy⟩
      · rfl
      · exact absurd (hy.trans hid) hne
    · rintro rfl
      exact ⟨.inl rfl, hid.symm⟩
  · rw [if_neg hid, find?_eq_some_iff, find?_eq_some_iff, mem_note]
    constructor
    · rintro ⟨rfl | ⟨hy, -⟩, hyid⟩
      · exact absurd hyid.symm hid
      · exact ⟨hy, hyid⟩
    · rintro ⟨hy, rfl⟩
      exact ⟨.inr ⟨hy, hid⟩, rfl⟩

/-! ## What becomes of the list -/

/-- Noting a step that is known changes nothing. -/
lemma note_of_mem {x : Step} (hx : x ∈ c.steps) : c.note x = c := by
  refine ext_mem fun y => ?_
  rw [mem_note]
  constructor
  · rintro (rfl | ⟨hy, -⟩)
    · exact hx
    · exact hy
  · intro hy
    by_cases hid : y.id = x.id
    · exact .inl (eq_of_id_eq hy hx hid)
    · exact .inr ⟨hy, hid⟩

/-- The numbers that are known after a step was noted: its own and those from before. -/
lemma ids_note_perm (c : Chronicle) (x : Step) :
    ((c.note x).steps.map (·.id)).Perm ((c.steps.map (·.id)).insert x.id) := by
  refine (List.perm_ext_iff_of_nodup (c.note x).nodup_ids c.nodup_ids.insert).2 fun id => ?_
  rw [List.mem_insert_iff, List.mem_map, List.mem_map]
  constructor
  · rintro ⟨y, hy, rfl⟩
    rcases mem_note.1 hy with rfl | ⟨hold, -⟩
    · exact .inl rfl
    · exact .inr ⟨y, hold, rfl⟩
  · rintro (rfl | ⟨y, hy, rfl⟩)
    · exact ⟨x, c.mem_note_self x, rfl⟩
    · exact exists_mem_note hy x

lemma length_note_of_mem {x : Step} (hx : x.id ∈ c.steps.map (·.id)) :
    (c.note x).steps.length = c.steps.length := by
  simpa [List.insert_of_mem hx] using (c.ids_note_perm x).length_eq

lemma length_note_of_notMem {x : Step} (hx : x.id ∉ c.steps.map (·.id)) :
    (c.note x).steps.length = c.steps.length + 1 := by
  simpa [List.insert_of_not_mem hx] using (c.ids_note_perm x).length_eq

/-- The step that was noted is the first one if none is below it. -/
lemma head?_note_eq_some_iff (c : Chronicle) (x : Step) :
    (c.note x).steps.head? = some x ↔ ∀ y ∈ c.steps, x.id ≤ y.id := by
  have hnone : c.steps.filter (·.id < x.id) = [] ↔ ∀ y ∈ c.steps, x.id ≤ y.id := by
    simp [List.filter_eq_nil_iff]
  show (c.steps.filter (·.id < x.id) ++ x :: c.steps.filter (x.id < ·.id)).head? = some x ↔ _
  rw [← hnone]
  cases hbelow : c.steps.filter (·.id < x.id) with
  | nil => simp
  | cons y rest =>
    have hy : y ∈ c.steps.filter (·.id < x.id) := hbelow ▸ List.mem_cons_self ..
    have hlt : y.id < x.id := by simpa using (List.mem_filter.1 hy).2
    have hne : y ≠ x := fun heq => Std.lt_irrefl (heq ▸ hlt)
    simp [hne]

/-! ## Steps that become known one after another -/

/-- Of the steps that become known with one number the last one counts, and what was known before
counts where there is none. -/
lemma find?_foldl_note (l : List Step) (c : Chronicle) (id : StepId) :
    (l.foldl note c).find? id = (l.reverse.find? (·.id = id)).or (c.find? id) := by
  induction l generalizing c with
  | nil => simp
  | cons x rest ih =>
    rw [List.foldl_cons, ih, find?_note, List.reverse_cons, List.find?_append, Option.or_assoc]
    congr 1
    by_cases hid : id = x.id
    · simp [hid]
    · simp [hid, Ne.symm hid]

lemma find?_ofList (l : List Step) (id : StepId) :
    (ofList l).find? id = l.reverse.find? (·.id = id) := by
  rw [ofList, find?_foldl_note]
  simp [find?]

lemma mem_of_mem_ofList {l : List Step} {x : Step} (h : x ∈ (ofList l).steps) : x ∈ l := by
  have hfind : (ofList l).find? x.id = some x := find?_eq_some_iff.2 ⟨h, rfl⟩
  rw [find?_ofList] at hfind
  exact List.mem_reverse.1 (List.mem_of_find?_eq_some hfind)

/-- Under every number that became known at some time a step is known in the end. -/
lemma exists_mem_ofList {l : List Step} {x : Step} (hx : x ∈ l) :
    ∃ y ∈ (ofList l).steps, y.id = x.id := by
  have hfind : (l.reverse.find? (·.id = x.id)).isSome :=
    List.find?_isSome.2 ⟨x, List.mem_reverse.2 hx, by simp⟩
  rw [← find?_ofList] at hfind
  obtain ⟨y, hy⟩ := Option.isSome_iff_exists.1 hfind
  exact ⟨y, find?_eq_some_iff.1 hy⟩

/-- Steps that are always the same under one number are all known in the end, whatever the order
and however often they became known. -/
lemma mem_ofList {l : List Step} (h : ∀ x ∈ l, ∀ y ∈ l, x.id = y.id → x = y) {x : Step} :
    x ∈ (ofList l).steps ↔ x ∈ l := by
  refine ⟨mem_of_mem_ofList, fun hx => ?_⟩
  obtain ⟨y, hknown, hid⟩ := exists_mem_ofList hx
  rwa [← h y (mem_of_mem_ofList hknown) x hx hid]

lemma mem_ofList_of_nodup {l : List Step} (h : (l.map (·.id)).Nodup) {x : Step} :
    x ∈ (ofList l).steps ↔ x ∈ l :=
  mem_ofList fun _ hx _ hy hid => List.inj_on_of_nodup_map h hx hy hid

lemma ofList_eq_of_perm {l m : List Step} (hperm : l.Perm m) (h : (l.map (·.id)).Nodup) :
    ofList l = ofList m := by
  have hm : (m.map (·.id)).Nodup := (hperm.map _).nodup_iff.1 h
  refine ext_mem fun x => ?_
  rw [mem_ofList_of_nodup h, mem_ofList_of_nodup hm, hperm.mem_iff]

/-! ## Early and recent steps -/

@[simp] lemma early_empty (n : Nat) : empty.early n = [] := List.take_nil

@[simp] lemma recent_empty (n : Nat) : empty.recent n = [] := List.drop_nil

lemma early_append_recent (c : Chronicle) (n : Nat) : c.early n ++ c.recent n = c.steps :=
  List.take_append_drop ..

lemma length_recent_le (c : Chronicle) (n : Nat) : (c.recent n).length ≤ n := by
  rw [recent, List.length_drop]
  omega

/-- When any step is early, there are `n` recent ones. -/
lemma early_eq_nil_or (c : Chronicle) (n : Nat) : c.early n = [] ∨ (c.recent n).length = n := by
  by_cases h : c.steps.length ≤ n
  · left
    rw [early, Nat.sub_eq_zero_of_le h, List.take_zero]
  · right
    rw [recent, List.length_drop]
    omega

/-- All early steps are up to a number if there are none, or if the last of them is. -/
lemma forall_mem_early_iff (c : Chronicle) (n : Nat) (id : StepId) :
    (∀ y ∈ c.early n, y.id ≤ id) ↔ c.steps.length ≤ n ∨
      ∃ x, c.steps[c.steps.length - n - 1]? = some x ∧ x.id ≤ id := by
  rw [early]
  constructor
  · intro h
    by_cases hlen : c.steps.length ≤ n
    · exact .inl hlen
    · have hlast : c.steps.length - n - 1 < c.steps.length := by omega
      have hmem : c.steps[c.steps.length - n - 1] ∈ c.steps.take (c.steps.length - n) :=
        List.mem_take_iff_getElem.2 ⟨_, by omega, rfl⟩
      exact .inr ⟨_, List.getElem?_eq_getElem hlast, h _ hmem⟩
  · rintro (hlen | ⟨x, hx, hle⟩) y hy
    · rw [Nat.sub_eq_zero_of_le hlen, List.take_zero] at hy
      exact absurd hy List.not_mem_nil
    · obtain ⟨i, hi, rfl⟩ := List.mem_take_iff_getElem.1 hy
      obtain ⟨hlast, rfl⟩ := List.getElem?_eq_some_iff.1 hx
      -- the last of the early steps has the greatest number
      have hi' : i ≤ c.steps.length - n - 1 := by omega
      rcases Nat.lt_or_eq_of_le hi' with hlt | rfl
      · have hbelow := List.pairwise_iff_getElem.1 c.ascending i _ (by omega) hlast hlt
        exact Std.le_trans (Std.le_of_lt hbelow) hle
      · exact hle

/-- The early steps of a chronicle that is given in two parts, the second of which is long enough
to hold all recent ones. -/
lemma early_of_append {l m : List Step} {n : Nat} (h : c.steps = l ++ m)
    (hlen : l = [] ∨ n ≤ m.length) : c.early n = l ++ m.take (m.length - n) := by
  rcases hlen with rfl | hn
  · rw [early, h, List.nil_append]
    rfl
  · rw [early, h, List.length_append, Nat.add_sub_assoc hn, List.take_length_add_append]

lemma recent_of_append {l m : List Step} {n : Nat} (h : c.steps = l ++ m)
    (hlen : l = [] ∨ n ≤ m.length) : c.recent n = m.drop (m.length - n) := by
  rcases hlen with rfl | hn
  · rw [recent, h, List.nil_append]
  · rw [recent, h, List.length_append, Nat.add_sub_assoc hn, List.drop_length_add_append]

lemma steps_note_of_below {x : Step} {l : List Step} (h : c.steps = l ++ d.steps)
    (hl : ∀ y ∈ l, y.id < x.id) : (c.note x).steps = l ++ (d.note x).steps := by
  have hbelow : l.filter (·.id < x.id) = l := List.filter_eq_self.2 (by simpa using hl)
  have habove : l.filter (x.id < ·.id) = [] :=
    List.filter_eq_nil_iff.2 fun y hy => by simpa using Std.le_of_lt (hl y hy)
  simp only [note, h, List.filter_append, hbelow, habove, List.nil_append, List.append_assoc]

/-- The chronicle after a step became known, when it is clear where the step belongs. -/
lemma steps_note_of_append {l m r : List Step} {x : Step} (h : c.steps = l ++ m ++ r)
    (hl : ∀ y ∈ l, y.id < x.id) (hm : ∀ y ∈ m, y.id = x.id) (hr : ∀ y ∈ r, x.id < y.id) :
    (c.note x).steps = l ++ x :: r := by
  have hsplit (p : Step → Bool) :
      c.steps.filter p = l.filter p ++ m.filter p ++ r.filter p := by
    rw [h, List.filter_append, List.filter_append]
  have below : c.steps.filter (·.id < x.id) = l := by
    rw [hsplit, List.filter_eq_self.2 (by simpa using hl),
      List.filter_eq_nil_iff.2 fun y hy => by simp [hm y hy],
      List.filter_eq_nil_iff.2 fun y hy => by simpa using Std.le_of_lt (hr y hy),
      List.append_nil, List.append_nil]
  have above : c.steps.filter (x.id < ·.id) = r := by
    rw [hsplit, List.filter_eq_nil_iff.2 fun y hy => by simpa using Std.le_of_lt (hl y hy),
      List.filter_eq_nil_iff.2 fun y hy => by simp [hm y hy],
      List.filter_eq_self.2 (by simpa using hr), List.nil_append, List.nil_append]
  calc (c.note x).steps
      = c.steps.filter (·.id < x.id) ++ x :: c.steps.filter (x.id < ·.id) := rfl
    _ = l ++ x :: r := by rw [below, above]

end Chronicle

end TraceTimeline
