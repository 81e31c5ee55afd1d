import Mathlib
import TraceTimeline.Proofs.Timeline.Arrival

/-!
# Well-formed stores

`Store.WellFormed` lists what can be relied on in every store that comes about through updates,
whichever and in whichever order.  It follows from one invariant: every update turns a store that
holds some chronicle into one that holds some chronicle (`Store.Sound.perform`).  Updates that do
not replace the history move the horizon upwards only.
-/

namespace TraceTimeline

namespace Store

/-- What can be relied on in a store. -/
structure WellFormed (s : Store) : Prop where
  /-- The numbers of the retained steps ascend strictly. -/
  ascending : s.steps.toList.Pairwise (fun a b => a.id < b.id)
  capacity_pos : 1 ≤ s.capacity
  size_le : s.size ≤ s.capacity
  /-- What is retained is above what was evicted. -/
  above_horizon : ∀ id, s.horizon = some id → ∀ x ∈ s.steps, id < x.id
  baseline_iff : s.baseline.isSome ↔ s.horizon.isSome
  /-- Nothing is evicted as long as there is room. -/
  full : s.horizon.isSome → s.size = s.capacity
  /-- The line index holds the retained steps that have a line, and has no line without steps. -/
  lines : s.lines.Lists s.steps.toList
  pinned : s.follow = .pinned → s.cursor.isSome

/-- The invariant of all updates: the store holds some chronicle, and it is not pinned to nothing.
-/
structure Sound (s : Store) : Prop where
  holds : ∃ c, s.Holds c
  pinned : s.follow = .pinned → s.cursor.isSome

/-- The horizon of a store is not below that of another. -/
def HorizonLE (s t : Store) : Prop :=
  ∀ id, s.horizon = some id → ∃ id', t.horizon = some id' ∧ id ≤ id'

/-- An update that drops the history. -/
def Operation.isReset : Operation → Bool
  | .replaceAll _ _ => true
  | .clear => true
  | _ => false

/-! ## The invariant -/

namespace Holds

variable {s : Store} {c : Chronicle} {x : Step}

/-- Which chronicle a store holds has nothing to do with its cursor. -/
lemma moveCursor (h : s.Holds c) (cursor : Option StepId) (follow : FollowMode) :
    { s with cursor := cursor, follow := follow }.Holds c where
  capacity_pos := h.capacity_pos
  layout := {
    steps := h.layout.steps
    horizon := h.layout.horizon
    baseline := h.layout.baseline
    lines := h.layout.lines
    ascending := h.layout.ascending }

lemma isSome_horizon (h : s.Holds c) : s.horizon.isSome ↔ c.early s.capacity ≠ [] := by
  rw [h.layout.horizon, Option.isSome_map, List.getLast?_isSome]

lemma exists_mem_early (h : s.Holds c) {id : StepId} (hid : s.horizon = some id) :
    ∃ y ∈ c.early s.capacity, y.id = id := by
  rw [h.layout.horizon, Option.map_eq_some_iff] at hid
  obtain ⟨y, hy, rfl⟩ := hid
  exact ⟨y, List.mem_of_getLast? hy, rfl⟩

/-- A store that holds a chronicle is well-formed, if it is not pinned to nothing. -/
lemma wellFormed (h : s.Holds c) (hpinned : s.follow = .pinned → s.cursor.isSome) :
    s.WellFormed where
  ascending := h.layout.ascending_retained
  capacity_pos := h.capacity_pos
  size_le := by
    rw [size, ← Array.length_toList, h.layout.steps]
    exact c.length_recent_le s.capacity
  above_horizon id hid x hx := by
    obtain ⟨y, hy, rfl⟩ := h.exists_mem_early hid
    have hx : x ∈ c.recent s.capacity := by
      rw [← h.layout.steps]
      exact hx.val
    exact (List.pairwise_append.1 h.layout.ascending).2.2 y hy x hx
  baseline_iff := by
    rw [h.isSome_horizon, h.layout.baseline, Scope.folded]
    by_cases hearly : c.early s.capacity = [] <;> simp [hearly]
  full hsome := by
    rw [size, ← Array.length_toList, h.layout.steps]
    exact (c.early_eq_nil_or s.capacity).resolve_left (h.isSome_horizon.1 hsome)
  lines := by
    rw [h.layout.steps]
    exact h.layout.lines
  pinned := hpinned

end Holds

namespace Sound

variable {s : Store}

lemma new (capacity : Nat) (policy : CarryPolicy) : (new capacity policy).Sound where
  holds := ⟨_, holds_new capacity policy⟩
  pinned h := absurd h (by simp [Store.new])

/-- Whatever arrives, the store holds a chronicle, and cursor and follow mode stay. -/
lemma upsert (h : s.Sound) (x : Step) : (s.upsert x).1.Sound := by
  obtain ⟨⟨c, hc⟩, hpinned⟩ := h
  constructor
  · cases hpast : s.isPast x.id with
    | true => exact ⟨c, by rw [upsert_of_isPast hpast]; exact hc⟩
    | false => exact ⟨_, hc.upsert hpast⟩
  · have hstance := s.stance_upsert x
    simp only [stance, Prod.mk.injEq] at hstance
    obtain ⟨-, -, hcursor, hfollow⟩ := hstance
    rw [hcursor, hfollow]
    exact hpinned

lemma upsertAll (h : s.Sound) (l : List Step) : (s.upsertAll l).Sound := by
  induction l generalizing s with
  | nil => exact h
  | cons x rest ih => exact ih (h.upsert x)

lemma replaceAll (h : s.Sound) (l : List Step) (cursor : Option StepId) :
    (s.replaceAll l cursor).Sound := by
  obtain ⟨⟨c, hc⟩, -⟩ := h
  exact ⟨⟨_, (hc.clear.upsertAll (inOrder l)).moveCursor cursor .live⟩, fun h => nomatch h⟩

/-- Every update keeps the invariant. -/
theorem perform (h : s.Sound) (op : Operation) : (s.perform op).Sound := by
  -- the layout does not look at the cursor
  have moved (cursor : Option StepId) (follow : FollowMode)
      (hpinned : follow = .pinned → cursor.isSome) :
      { s with cursor := cursor, follow := follow }.Sound := by
    obtain ⟨⟨c, hc⟩, -⟩ := h
    exact ⟨⟨c, hc.moveCursor cursor follow⟩, hpinned⟩
  cases op with
  | upsert x => exact h.upsert x
  | replaceAll l cursor => exact h.replaceAll l cursor
  | clear =>
    obtain ⟨⟨c, hc⟩, -⟩ := h
    exact ⟨⟨_, hc.clear⟩, fun h => nomatch h⟩
  | advanceLive id =>
    show (s.advanceLive id).1.Sound
    unfold advanceLive
    split
    · exact h
    · exact moved (some id) s.follow fun _ => rfl
  | pin id =>
    show (s.pin id).1.Sound
    unfold pin
    split
    · exact moved (some id) .pinned fun _ => rfl
    · exact h
  | followLive => exact moved _ .live fun h => nomatch h

lemma wellFormed (h : s.Sound) : s.WellFormed := by
  obtain ⟨c, hc⟩ := h.holds
  exact hc.wellFormed h.pinned

lemma run (h : s.Sound) (ops : List Operation) : (s.run ops).Sound := by
  induction ops generalizing s with
  | nil => exact h
  | cons op rest ih => exact ih (h.perform op)

end Sound

/-! ## The horizon -/

namespace HorizonLE

variable {s t u : Store}

lemma refl (s : Store) : s.HorizonLE s := fun id hid => ⟨id, hid, Std.le_refl id⟩

lemma trans (h : s.HorizonLE t) (h' : t.HorizonLE u) : s.HorizonLE u := by
  intro id hid
  obtain ⟨id', hid', hle⟩ := h id hid
  obtain ⟨id'', hid'', hle'⟩ := h' id' hid'
  exact ⟨id'', hid'', Std.le_trans hle hle'⟩

/-- Putting a step into the store evicts further steps, if any, which are above those evicted
before. -/
lemma upsert (h : s.Sound) (x : Step) : s.HorizonLE (s.upsert x).1 := by
  obtain ⟨⟨c, hc⟩, -⟩ := h
  cases hpast : s.isPast x.id with
  | true =>
    rw [upsert_of_isPast hpast]
    exact refl s
  | false =>
    obtain ⟨t, retained, hupsert, -, hlayout, -, -⟩ := hc.upsert_layout hpast
    have hevicted := hlayout.evictOverflow
    intro id hid
    obtain ⟨y, hy, rfl⟩ := hc.exists_mem_early hid
    have hpast : t.evictOverflow.isPast y.id = true :=
      hevicted.isPast_iff.2 ⟨y, List.mem_append_left _ hy, Std.le_refl _⟩
    rw [isPast, Option.any_eq_true] at hpast
    rw [hupsert]
    simpa using hpast

/-- An update that does not drop the history does not lower the horizon. -/
lemma perform (h : s.Sound) {op : Operation} (hop : op.isReset = false) :
    s.HorizonLE (s.perform op) := by
  cases op with
  | upsert x => exact upsert h x
  | replaceAll l cursor => exact absurd hop (by simp [Operation.isReset])
  | clear => exact absurd hop (by simp [Operation.isReset])
  | advanceLive id =>
    show s.HorizonLE (s.advanceLive id).1
    unfold advanceLive
    split <;> exact refl s
  | pin id =>
    show s.HorizonLE (s.pin id).1
    unfold pin
    split <;> exact refl s
  | followLive => exact refl s

/-- Updates that do not drop the history do not lower the horizon. -/
lemma run (h : s.Sound) {ops : List Operation} (hops : ∀ op ∈ ops, op.isReset = false) :
    s.HorizonLE (s.run ops) := by
  induction ops generalizing s with
  | nil => exact refl s
  | cons op rest ih =>
    have hfirst := perform h (hops op (List.mem_cons_self ..))
    exact hfirst.trans (ih (h.perform op) fun op' hop' => hops op' (List.mem_cons_of_mem _ hop'))

end HorizonLE

/-- Every store that comes about through updates of a new one is well-formed, and further updates
lower its horizon only by dropping the history. -/
theorem wellFormed_run (capacity : Nat) (policy : CarryPolicy) (ops : List Operation) :
    let s := (new capacity policy).run ops
    s.WellFormed ∧
      ∀ later : List Operation, (∀ op ∈ later, op.isReset = false) → s.HorizonLE (s.run later) := by
  intro s
  have hsound : s.Sound := (Sound.new capacity policy).run ops
  obtain ⟨c, hc⟩ := hsound.holds
  exact ⟨hc.wellFormed hsound.pinned, fun later hlater => HorizonLE.run hsound hlater⟩

end Store

end TraceTimeline
