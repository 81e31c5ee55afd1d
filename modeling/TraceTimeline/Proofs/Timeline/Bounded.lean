import Mathlib
import TraceTimeline.Proofs.Timeline.Retained

/-!
# The store as a bounded map

To a user of the store its steps are a finite map from numbers to steps (`Store.bindings`) with room
for as many bindings as the capacity says.  Putting a step into the store binds its number to it; if
there is no room left the binding of the least number is dropped, its step is folded into the
baseline, and its number becomes the horizon.  Nothing is said of positions: the bisection, the
insertion in the middle and the loop that evicts do together what one insertion into a map and at
most one removal do (`Store.upsert_refines_map`).
-/

namespace TraceTimeline

namespace Chronicle

/-- A chronicle as a map: every number is bound to the step of that number. -/
def bindings (c : Chronicle) : OrderedMap StepId Step :=
  ⟨c.steps.map fun y => (y.id, y), List.pairwise_map.2 c.ascending⟩

lemma entries_bindings (c : Chronicle) : c.bindings.entries = c.steps.map fun y => (y.id, y) := rfl

lemma keys_bindings (c : Chronicle) : c.bindings.keys = c.steps.map (·.id) := by
  simp [OrderedMap.keys, entries_bindings]

@[simp] lemma size_bindings (c : Chronicle) : c.bindings.size = c.steps.length := List.length_map ..

@[simp] lemma get?_bindings (c : Chronicle) (id : StepId) : c.bindings.get? id = c.find? id := by
  have hfind := OrderedMap.lookup_map_eq_find? id (·.id) (fun y : Step => y) c.steps
  rwa [Option.map_id'] at hfind

lemma bindings_note (c : Chronicle) (x : Step) :
    (c.note x).bindings = c.bindings.insert x.id x := by
  refine OrderedMap.ext_get? fun id => ?_
  rw [OrderedMap.get?_insert, get?_bindings, get?_bindings, find?_note]

end Chronicle

namespace Store

variable {s : Store} {x y : Step} {evicted kept : List Step}

/-! ## Evicting what is too much -/

lemma Layout.evictOverflow_of_le (h : s.Layout evicted kept)
    (hroom : kept.length ≤ s.capacity) : s.evictOverflow = s := by
  have hsize : s.steps.size ≤ s.capacity := by rwa [← Array.length_toList, h.steps]
  rw [Store.evictOverflow, Nat.sub_eq_zero_of_le hsize]
  rfl

/-- One step too much is one step to evict, the oldest. -/
lemma Layout.evictOverflow_of_cons (h : s.Layout evicted (y :: kept))
    (hfull : kept.length = s.capacity) :
    s.evictOverflow.steps.toList = kept ∧ s.evictOverflow.horizon = some y.id ∧
      s.evictOverflow.baseline = some ((s.baseline.getD Scope.initial).apply s.policy y) := by
  have hsize : s.steps.size - s.capacity = 1 := by
    rw [← Array.length_toList, h.steps, List.length_cons, hfull, Nat.add_sub_cancel_left]
  have hfirst : s.steps[0]? = some y := by
    rw [← Array.getElem?_toList, h.steps]
    rfl
  have honce : s.evictOverflow = s.evictOldest := by
    rw [Store.evictOverflow, hsize]
    rfl
  rw [honce]
  refine ⟨h.evictOldest.steps, ?_, ?_⟩
  · rw [Store.evictOldest, hfirst]
  · rw [Store.evictOldest, hfirst]

/-! ## One insertion, at most one removal -/

lemma Sound.size_le (h : s.Sound) : s.size ≤ s.capacity := h.wellFormed.size_le

/-- There is no room for a step if its number is new and the store is full. -/
lemma Sound.capacity_lt_iff (h : s.Sound) :
    s.capacity < (h.retained.note x).steps.length ↔
      x.id ∉ h.retained.steps.map (·.id) ∧ s.size = s.capacity := by
  have hsize : h.retained.steps.length = s.size := Array.length_toList
  have hle := h.size_le
  by_cases hmem : x.id ∈ h.retained.steps.map (·.id)
  · rw [Chronicle.length_note_of_mem hmem, hsize]
    simp [hmem, hle]
  · rw [Chronicle.length_note_of_notMem hmem, hsize]
    simp only [hmem, not_false_eq_true, true_and]
    omega

/-- With room for a step, it is noted among the retained ones, and nothing else changes. -/
lemma Sound.upsert_of_room (h : s.Sound) (hx : s.isPast x.id = false)
    (hroom : (h.retained.note x).steps.length ≤ s.capacity) :
    (s.upsert x).1.steps.toList = (h.retained.note x).steps ∧
      (s.upsert x).1.horizon = s.horizon ∧ (s.upsert x).1.baseline = s.baseline := by
  obtain ⟨t, evicted, hupsert, hstance, hhorizon, hbaseline, hlayout⟩ := h.upsert_layout hx
  have hcap : t.capacity = s.capacity := congrArg (·.1) hstance
  rw [hupsert, hlayout.evictOverflow_of_le (hcap ▸ hroom)]
  exact ⟨hlayout.steps, hhorizon, hbaseline⟩

/-- Without room, the least of the retained steps and the new one is evicted. -/
lemma Sound.upsert_of_full (h : s.Sound) (hx : s.isPast x.id = false)
    (hfull : s.capacity < (h.retained.note x).steps.length) :
    ∃ oldest, (h.retained.note x).steps = oldest :: (s.upsert x).1.steps.toList ∧
      (s.upsert x).1.horizon = some oldest.id ∧
      (s.upsert x).1.baseline =
        some ((s.baseline.getD Scope.initial).apply s.policy oldest) := by
  obtain ⟨t, evicted, hupsert, hstance, -, hbaseline, hlayout⟩ := h.upsert_layout hx
  have hcap : t.capacity = s.capacity := congrArg (·.1) hstance
  have hpolicy : t.policy = s.policy := congrArg (·.2.1) hstance
  obtain ⟨hnew, hsize⟩ := h.capacity_lt_iff.1 hfull
  have hlen : (h.retained.note x).steps.length = t.capacity + 1 := by
    rw [Chronicle.length_note_of_notMem hnew, hcap, ← hsize]
    rfl
  obtain ⟨oldest, rest, hsplit⟩ := List.exists_cons_of_length_eq_add_one hlen
  rw [hsplit] at hlayout hlen ⊢
  obtain ⟨hsteps, hhorizon, hfolded⟩ :=
    hlayout.evictOverflow_of_cons (Nat.add_right_cancel hlen)
  rw [hupsert, hsteps, hhorizon, hfolded, hbaseline, hpolicy]
  exact ⟨oldest, rfl, rfl, rfl⟩

/-- A step is retained, unless it is the least one and there is no room for it. -/
lemma Sound.mem_upsert_self_iff (h : s.Sound) (hx : s.isPast x.id = false) :
    x ∈ (s.upsert x).1.steps ↔
      ¬ (s.capacity < (h.retained.note x).steps.length ∧ ∀ y ∈ s.steps, x.id ≤ y.id) := by
  have hknown := h.retained.mem_note_self x
  rw [← Array.mem_toList_iff]
  by_cases hfull : s.capacity < (h.retained.note x).steps.length
  · obtain ⟨oldest, hsplit, -, -⟩ := h.upsert_of_full hx hfull
    have hnodup := (h.retained.note x).nodup_steps
    have hleast := h.retained.head?_note_eq_some_iff x
    rw [hsplit] at hknown hnodup hleast
    have hleast : oldest = x ↔ ∀ y ∈ s.steps, x.id ≤ y.id := by
      simpa [Sound.retained] using hleast
    rw [← hleast, and_iff_right hfull]
    constructor
    · rintro hmem rfl
      exact (List.nodup_cons.1 hnodup).1 hmem
    · intro hne
      exact (List.mem_cons.1 hknown).resolve_left (Ne.symm hne)
  · obtain ⟨hsteps, -, -⟩ := h.upsert_of_room hx (Nat.le_of_not_lt hfull)
    rw [hsteps]
    exact iff_of_true hknown fun hevicted => hfull hevicted.1

/-! ## The map of the store -/

/-- The steps of a store as a map: every number is bound to the retained step of that number. -/
def bindings (s : Store) : OrderedMap StepId Step :=
  OrderedMap.ofList (s.steps.toList.map fun y => (y.id, y))

lemma Sound.bindings_eq (h : s.Sound) : s.bindings = h.retained.bindings :=
  OrderedMap.ofList_entries h.retained.bindings

lemma Sound.entries_bindings (h : s.Sound) :
    s.bindings.entries = s.steps.toList.map fun y => (y.id, y) := by
  rw [h.bindings_eq, Chronicle.entries_bindings]
  rfl

lemma Sound.mem_keys_iff (h : s.Sound) {id : StepId} :
    id ∈ s.bindings.keys ↔ ∃ y ∈ s.steps, y.id = id := by
  rw [h.bindings_eq, Chronicle.keys_bindings, List.mem_map]
  exact exists_congr fun y => and_congr_left' Array.mem_toList_iff

lemma Sound.size_bindings (h : s.Sound) : s.bindings.size = s.size := by
  rw [h.bindings_eq, Chronicle.size_bindings]
  exact Array.length_toList

lemma Sound.get?_bindings (h : s.Sound) (id : StepId) : s.bindings.get? id = s.get? id := by
  rw [h.bindings_eq, Chronicle.get?_bindings, h.get?_eq_find?]
  rfl

lemma Sound.insert_bindings (h : s.Sound) (x : Step) :
    s.bindings.insert x.id x = (h.retained.note x).bindings := by
  rw [h.bindings_eq, Chronicle.bindings_note]

/-! ## What happened to the step -/

lemma Sound.snd_upsert_keys (h : s.Sound) (hx : s.isPast x.id = false) :
    (s.upsert x).2 = if x.id ∈ s.bindings.keys then .replaced
      else if ∀ id ∈ s.bindings.keys, id < x.id then .appended else .inserted := by
  simp only [h.snd_upsert hx, h.mem_keys_iff, forall_exists_index, and_imp,
    forall_apply_eq_imp_iff₂]

lemma Sound.snd_upsert_eq_replaced_iff (h : s.Sound) (hx : s.isPast x.id = false) :
    (s.upsert x).2 = .replaced ↔ x.id ∈ s.bindings.keys := by
  rw [h.snd_upsert_keys hx]
  split_ifs <;> simp_all

lemma Sound.snd_upsert_eq_appended_iff (h : s.Sound) (hx : s.isPast x.id = false) :
    (s.upsert x).2 = .appended ↔ x.id ∉ s.bindings.keys ∧ ∀ id ∈ s.bindings.keys, id < x.id := by
  rw [h.snd_upsert_keys hx]
  split_ifs <;> simp_all

/-- A step above the horizon is inserted if its number is not bound, and some greater one is. -/
lemma Sound.snd_upsert_eq_inserted_iff (h : s.Sound) (hx : s.isPast x.id = false) :
    (s.upsert x).2 = .inserted ↔ x.id ∉ s.bindings.keys ∧ ∃ id ∈ s.bindings.keys, x.id < id := by
  have hgreater (hnew : x.id ∉ s.bindings.keys) :
      (∃ id ∈ s.bindings.keys, x.id < id) ↔ ¬ ∀ id ∈ s.bindings.keys, id < x.id := by
    simp only [not_forall, exists_prop, Std.not_lt]
    refine exists_congr fun id => and_congr_right fun hid => ⟨Std.le_of_lt, fun hle => ?_⟩
    exact Std.lt_of_le_of_ne hle fun heq => hnew (heq ▸ hid)
  rw [h.snd_upsert_keys hx]
  by_cases hmem : x.id ∈ s.bindings.keys
  · simp [hmem]
  · rw [if_neg hmem, hgreater hmem]
    split_ifs <;> simp_all

/-- The least number is inserted into a full store, which has steps above it. -/
lemma Sound.no_room_and_least_iff (h : s.Sound) (hx : s.isPast x.id = false) :
    (s.capacity < (h.retained.note x).steps.length ∧ ∀ y ∈ s.steps, x.id ≤ y.id) ↔
      (s.upsert x).2 = .inserted ∧ s.bindings.size = s.capacity ∧
        ∀ id ∈ s.bindings.keys, x.id < id := by
  have hkeys : s.bindings.keys = h.retained.steps.map (·.id) := by
    rw [h.bindings_eq, Chronicle.keys_bindings]
  have hleast (hnew : x.id ∉ s.bindings.keys) :
      (∀ y ∈ s.steps, x.id ≤ y.id) ↔ ∀ id ∈ s.bindings.keys, x.id < id := by
    constructor
    · intro hle id hid
      obtain ⟨y, hy, rfl⟩ := h.mem_keys_iff.1 hid
      exact Std.lt_of_le_of_ne (hle y hy) fun heq => hnew (heq ▸ hid)
    · intro hlt y hy
      exact Std.le_of_lt (hlt y.id (h.mem_keys_iff.2 ⟨y, hy, rfl⟩))
  rw [h.capacity_lt_iff, h.size_bindings, ← hkeys, h.snd_upsert_eq_inserted_iff hx]
  constructor
  · rintro ⟨⟨hnew, hfull⟩, hle⟩
    have hlt := (hleast hnew).1 hle
    obtain ⟨c, hc⟩ := h.holds
    -- a full store is not empty, so the step is below some other
    have hpos : 0 < s.steps.size := hc.capacity_pos.trans_eq hfull.symm
    obtain ⟨y, hy⟩ := Array.exists_mem_of_size_pos hpos
    have hid : y.id ∈ s.bindings.keys := h.mem_keys_iff.2 ⟨y, hy, rfl⟩
    exact ⟨⟨hnew, y.id, hid, hlt y.id hid⟩, hfull, hlt⟩
  · rintro ⟨⟨hnew, -⟩, hfull, hlt⟩
    exact ⟨⟨hnew, hfull⟩, (hleast hnew).2 hlt⟩

/-- Putting a step into a store that came about through any updates does to the map of the store,
its horizon and its baseline what one insertion and at most one removal do to a bounded map.  A step
at or below the horizon changes nothing.  Any other is bound to its number; if there are then more
bindings than the capacity, the least one goes, which may be the new one itself.  The outcome tells
how the number compares with those that were bound, and cursor and follow mode stay. -/
theorem upsert_refines_map (capacity : Nat) (policy : CarryPolicy) (ops : List Operation)
    (x : Step) :
    let s := (new capacity policy).run ops
    let t := (s.upsert x).1
    let outcome := (s.upsert x).2
    let known := s.bindings.keys
    let bound := s.bindings.insert x.id x
    (s.bindings.entries = s.steps.toList.map fun y => (y.id, y)) ∧
      (∀ id, s.bindings.get? id = s.get? id) ∧
      (∀ horizon, s.horizon = some horizon → x.id ≤ horizon → s.upsert x = (s, .stale)) ∧
      ((∀ horizon, s.horizon = some horizon → horizon < x.id) →
        (bound.size ≤ s.capacity →
          t.bindings = bound ∧ t.horizon = s.horizon ∧ t.baseline = s.baseline) ∧
        (s.capacity < bound.size →
          ∃ oldest, bound.entries = (oldest.id, oldest) :: t.bindings.entries ∧
            t.horizon = some oldest.id ∧
            t.baseline = some ((s.baseline.getD Scope.initial).apply s.policy oldest)) ∧
        (outcome = .replaced ↔ x.id ∈ known) ∧
        (outcome = .appended ↔ x.id ∉ known ∧ ∀ id ∈ known, id < x.id) ∧
        (outcome = .inserted ↔ x.id ∉ known ∧ ∃ id ∈ known, x.id < id) ∧
        (x ∈ t.steps ↔
          ¬ (outcome = .inserted ∧ s.bindings.size = s.capacity ∧ ∀ id ∈ known, x.id < id))) ∧
      t.cursor = s.cursor ∧ t.follow = s.follow := by
  intro s t outcome known bound
  have h : s.Sound := (Sound.new capacity policy).run ops
  -- noting the step in the chronicle and binding it in the map are the same
  have hbound : bound = (h.retained.note x).bindings := h.insert_bindings x
  have hentries := (h.upsert x).entries_bindings
  refine ⟨h.entries_bindings, h.get?_bindings, fun horizon hhorizon hle => ?_, fun habove => ?_,
    cursor_upsert s x, follow_upsert s x⟩
  · exact upsert_of_isPast (by rw [isPast, hhorizon]; simpa using hle)
  have hx : s.isPast x.id = false := by
    rw [isPast, Option.any_eq_false]
    intro horizon hhorizon
    simpa using habove horizon hhorizon
  refine ⟨fun hroom => ?_, fun hfull => ?_, h.snd_upsert_eq_replaced_iff hx,
    h.snd_upsert_eq_appended_iff hx, h.snd_upsert_eq_inserted_iff hx, ?_⟩
  · rw [hbound, Chronicle.size_bindings] at hroom
    obtain ⟨hsteps, hhorizon, hbaseline⟩ := h.upsert_of_room hx hroom
    refine ⟨OrderedMap.ext_entries ?_, hhorizon, hbaseline⟩
    rw [hentries, hsteps, hbound, Chronicle.entries_bindings]
  · rw [hbound, Chronicle.size_bindings] at hfull
    obtain ⟨oldest, hsplit, hhorizon, hbaseline⟩ := h.upsert_of_full hx hfull
    refine ⟨oldest, ?_, hhorizon, hbaseline⟩
    rw [hentries, hbound, Chronicle.entries_bindings, hsplit, List.map_cons]
  · rw [h.mem_upsert_self_iff hx, h.no_room_and_least_iff hx]

/-- A step below all of a full store is inserted and evicted at once: the map stays what it was, and
the horizon becomes the number of the step. -/
theorem upsert_refines_map_evicted_at_once :
    let s := (new 2 .sticky).run [.upsert (Step.ofLine 2 4), .upsert (Step.ofLine 3 5)]
    let x := Step.ofLine 1 4
    let t := (s.upsert x).1
    s.horizon = none ∧ s.capacity < (s.bindings.insert x.id x).size ∧
      (s.upsert x).2 = .inserted ∧ t.bindings.entries = s.bindings.entries ∧
      t.horizon = some 1 ∧ x ∉ t.steps := by
  intro s x t
  have hhorizon : s.horizon = none := by decide +kernel
  have hcapacity : s.bindings.size = s.capacity := by decide +kernel
  have hfull : s.capacity < (s.bindings.insert x.id x).size := by decide +kernel
  have hentries : (s.bindings.insert x.id x).entries = (x.id, x) :: s.bindings.entries := by
    decide +kernel
  have hkeys : s.bindings.keys = [2, 3] := by decide +kernel
  have hleast : ∀ id ∈ s.bindings.keys, x.id < id := by
    simp only [hkeys, List.forall_mem_cons, List.not_mem_nil]
    exact ⟨by decide, by decide, nofun⟩
  have hbetween : x.id ∉ s.bindings.keys ∧ ∃ id ∈ s.bindings.keys, x.id < id := by
    decide +kernel
  obtain ⟨-, -, -, hfresh, -⟩ :=
    upsert_refines_map 2 .sticky [.upsert (Step.ofLine 2 4), .upsert (Step.ofLine 3 5)] x
  obtain ⟨-, hevict, -, -, hinserted, hkept⟩ := hfresh fun horizon heq => by
    cases hhorizon.symm.trans heq
  obtain ⟨oldest, hsplit, hmoved, -⟩ := hevict hfull
  obtain ⟨holdest, hrest⟩ := List.cons_eq_cons.1 (hentries.symm.trans hsplit)
  have houtcome : (s.upsert x).2 = .inserted := hinserted.2 hbetween
  refine ⟨hhorizon, hfull, houtcome, hrest.symm, ?_, fun hmem => ?_⟩
  · rw [hmoved, ← (Prod.mk.inj holdest).1]
    rfl
  · exact hkept.1 hmem ⟨houtcome, hcapacity, hleast⟩

end Store

end TraceTimeline
