import Mathlib
import TraceTimeline.Proofs.Timeline.Reconstruction
import TraceTimeline.Proofs.Timeline.Retained

/-!
# The newest step and the cursor

The newest step is never evicted, so that the last retained number is the greatest one of the whole
chronicle (`Store.Holds.isNewest_lastId`).  What becomes of it when a step arrives or the history is
replaced follows from what becomes of the chronicle.

A cursor has its place relative to the newest step and to the horizon (`Store.Moored`).  As long as
the store follows live, the cursor is at the newest step; once it is pinned, it is at a number that
is retained or past, hence not above the newest step.  Every update of a store leaves the cursor
there, unless it is a history that comes with another selection than its newest step.
-/

namespace TraceTimeline

/-! ## The newest of some steps -/

/-- A selection among steps is the newest one: the greatest of their numbers, and nothing if there
are no steps. -/
def IsNewest (l : List Step) : Option StepId → Prop
  | none => l = []
  | some id => (∃ x ∈ l, x.id = id) ∧ ∀ x ∈ l, x.id ≤ id

instance (l : List Step) : (selected : Option StepId) → Decidable (IsNewest l selected)
  | none => inferInstanceAs (Decidable (l = []))
  | some id => inferInstanceAs (Decidable ((∃ x ∈ l, x.id = id) ∧ ∀ x ∈ l, x.id ≤ id))

namespace IsNewest

variable {l m : List Step} {a b : Option StepId} {id : StepId}

/-- There is one newest step at most. -/
lemma unique (ha : IsNewest l a) (hb : IsNewest l b) : a = b := by
  cases a with
  | none =>
    cases b with
    | none => rfl
    | some id =>
      obtain ⟨⟨x, hx, -⟩, -⟩ := hb
      rw [show l = [] from ha] at hx
      exact absurd hx List.not_mem_nil
  | some id =>
    obtain ⟨⟨x, hx, rfl⟩, hmax⟩ := ha
    cases b with
    | none =>
      rw [show l = [] from hb] at hx
      exact absurd hx List.not_mem_nil
    | some id =>
      obtain ⟨⟨y, hy, rfl⟩, hmax'⟩ := hb
      rw [Std.le_antisymm (hmax' x hx) (hmax y hy)]

/-- The newest of some steps is that of others with the same numbers. -/
lemma congr (h : IsNewest l a) (hlm : ∀ x ∈ l, ∃ y ∈ m, y.id = x.id)
    (hml : ∀ y ∈ m, ∃ x ∈ l, x.id = y.id) : IsNewest m a := by
  cases a with
  | none =>
    refine List.eq_nil_iff_forall_not_mem.2 fun y hy => ?_
    obtain ⟨x, hx, -⟩ := hml y hy
    rw [show l = [] from h] at hx
    exact List.not_mem_nil hx
  | some id =>
    obtain ⟨⟨x, hx, rfl⟩, hmax⟩ := h
    refine ⟨hlm x hx, fun y hy => ?_⟩
    obtain ⟨z, hz, hid⟩ := hml y hy
    rw [← hid]
    exact hmax z hz

lemma exists_ge (h : IsNewest l a) {x : Step} (hx : x ∈ l) : ∃ id, a = some id ∧ x.id ≤ id := by
  cases a with
  | none =>
    rw [show l = [] from h] at hx
    exact absurd hx List.not_mem_nil
  | some id => exact ⟨id, rfl, h.2 x hx⟩

end IsNewest

/-- The newest step of a chronicle is its last one. -/
lemma Chronicle.isNewest_getLast? (c : Chronicle) :
    IsNewest c.steps (c.steps.getLast?.map (·.id)) := by
  cases hlast : c.steps.getLast? with
  | none => exact List.getLast?_eq_none_iff.1 hlast
  | some y =>
    obtain ⟨hy, hmax⟩ := getLast?_eq_some_iff.1 hlast
    exact ⟨⟨y, hy, rfl⟩, hmax⟩

/-- The newest step after another became known is that one, unless it is not above the newest so
far. -/
lemma Chronicle.isNewest_note {c : Chronicle} {newest : Option StepId} (h : IsNewest c.steps newest)
    (x : Step) :
    IsNewest (c.note x).steps (if newest.any (x.id ≤ ·) then newest else some x.id) := by
  cases newest with
  | none =>
    have hnil : c.steps = [] := h
    refine ⟨⟨x, mem_note_self c x, rfl⟩, forall_mem_note_le_iff.2 ⟨Std.le_refl _, ?_⟩⟩
    rw [hnil]
    exact fun y hy => absurd hy List.not_mem_nil
  | some id =>
    obtain ⟨⟨y, hy, rfl⟩, hmax⟩ := h
    by_cases hle : x.id ≤ y.id
    · rw [if_pos (by simpa using hle)]
      exact ⟨exists_mem_note hy x, forall_mem_note_le_iff.2 ⟨hle, hmax⟩⟩
    · have hlt : y.id < x.id := Std.not_le.1 hle
      rw [if_neg (by simpa using hle)]
      refine ⟨⟨x, mem_note_self c x, rfl⟩,
        forall_mem_note_le_iff.2 ⟨Std.le_refl _, fun z hz => ?_⟩⟩
      exact Std.le_trans (hmax z hz) (Std.le_of_lt hlt)

namespace Store

variable {s : Store} {c : Chronicle} {x : Step} {id : StepId}

/-! ## The last number -/

/-- The last retained number is the newest one of the chronicle. -/
lemma Holds.isNewest_lastId (h : s.Holds c) : IsNewest c.steps s.lastId := by
  have hlast : s.lastId = c.steps.getLast?.map (·.id) := by
    have hpos := h.capacity_pos
    rw [lastId, ← Array.getLast?_toList, h.layout.steps, Chronicle.recent, List.getLast?_drop]
    split
    · next hlen =>
      have hnil : c.steps = [] := List.eq_nil_of_length_eq_zero (by omega)
      rw [hnil]
      rfl
    · rfl
  rw [hlast]
  exact c.isNewest_getLast?

lemma Sound.isNewest_lastId (h : s.Sound) : IsNewest s.steps.toList s.lastId := by
  rw [lastId, ← Array.getLast?_toList]
  exact h.retained.isNewest_getLast?

lemma lastId_eq_none_iff : s.lastId = none ↔ s.size = 0 := by
  simp [lastId, size]

lemma Sound.lastId_upsert (h : s.Sound) (hx : s.isPast x.id = false) :
    (s.upsert x).1.lastId = if s.lastId.any (x.id ≤ ·) then s.lastId else some x.id := by
  obtain ⟨c, hc⟩ := h.holds
  exact (hc.upsert hx).isNewest_lastId.unique (Chronicle.isNewest_note hc.isNewest_lastId x)

/-- The last number of a history that took the place of another one. -/
lemma Sound.lastId_replaceAll (h : s.Sound) {l : List Step} {cursor : Option StepId}
    (hcursor : IsNewest l cursor) : (s.replaceAll l cursor).lastId = cursor := by
  refine (h.holds_replaceAll l cursor).isNewest_lastId.unique (hcursor.congr ?_ ?_)
  · intro x hx
    exact Chronicle.exists_mem_ofList hx
  · intro y hy
    exact ⟨y, Chronicle.mem_of_mem_ofList hy, rfl⟩

/-- A number that is retained or past is not above the last one. -/
lemma Sound.exists_lastId_ge (h : s.Sound) (hid : s.contains id = true ∨ s.isPast id = true) :
    ∃ newest, s.lastId = some newest ∧ id ≤ newest := by
  obtain ⟨c, hc⟩ := h.holds
  obtain ⟨y, hy, hle⟩ : ∃ y ∈ c.steps, id ≤ y.id := by
    rcases hid with hcontains | hpast
    · obtain ⟨y, hy, rfl⟩ := h.contains_iff.1 hcontains
      exact ⟨y, hc.mem_of_mem_steps hy, Std.le_refl _⟩
    · obtain ⟨y, hy, hle⟩ := hc.layout.isPast_iff.1 hpast
      exact ⟨y, List.mem_of_mem_take hy, hle⟩
  obtain ⟨newest, hnewest, hge⟩ := hc.isNewest_lastId.exists_ge hy
  exact ⟨newest, hnewest, Std.le_trans hle hge⟩

/-! ## The place of the cursor -/

/-- The cursor is where it ought to be: at the newest step if the store follows live, and at a
number that is retained or past if it is pinned. -/
structure Moored (s : Store) : Prop where
  live : s.follow = .live → s.cursor = s.lastId
  pinned : s.follow = .pinned →
    ∃ id, s.cursor = some id ∧ (s.contains id = true ∨ s.isPast id = true)

namespace Moored

lemma new (capacity : Nat) (policy : CarryPolicy) : (new capacity policy).Moored where
  live _ := rfl
  pinned h := nomatch h

lemma clear (s : Store) : s.clear.Moored where
  live _ := rfl
  pinned h := nomatch h

lemma replaceAll (h : s.Sound) {l : List Step} {cursor : Option StepId}
    (hcursor : IsNewest l cursor) : (s.replaceAll l cursor).Moored where
  live _ := (h.lastId_replaceAll hcursor).symm
  pinned h := nomatch h

/-- A live cursor follows an arriving step if that is the newest one.  A pinned cursor stays, and if
its step is evicted, it is past. -/
lemma advanceLive_upsert (hmoored : s.Moored) (h : s.Sound) (hx : s.isPast x.id = false) :
    ((s.upsert x).1.advanceLive x.id).1.Moored := by
  rw [advanceLive_eq, reaches, follow_upsert, cursor_upsert]
  cases hfollow : s.follow with
  | live =>
    have hcursor := hmoored.live hfollow
    have hlast := h.lastId_upsert hx
    rw [← hcursor] at hlast
    -- the cursor stands at the newest step, so it follows just if the arriving one is newer
    by_cases hreached : s.cursor.any (x.id ≤ ·)
    · rw [if_neg (by simp [hreached])]
      rw [if_pos hreached] at hlast
      refine ⟨fun _ => ?_, fun hpinned => ?_⟩
      · rw [cursor_upsert, hlast]
      · rw [follow_upsert, hfollow] at hpinned
        cases hpinned
    · rw [if_pos ⟨rfl, by simpa using hreached⟩]
      rw [if_neg hreached] at hlast
      exact ⟨fun _ => hlast.symm, fun hpinned => nomatch hpinned⟩
  | pinned =>
    obtain ⟨id, hcursor, hknown⟩ := hmoored.pinned hfollow
    rw [if_neg (by simp)]
    refine ⟨fun hlive => ?_, fun _ => ⟨id, ?_, (h.continues_upsert x).contains_or_isPast hknown⟩⟩
    · rw [follow_upsert, hfollow] at hlive
      cases hlive
    · rw [cursor_upsert, hcursor]

lemma pin (hmoored : s.Moored) (id : StepId) : (s.pin id).1.Moored := by
  unfold Store.pin
  split
  · next hcontains => exact ⟨fun hlive => (nomatch hlive), fun _ => ⟨id, rfl, .inl hcontains⟩⟩
  · exact hmoored

/-- Following live again the cursor goes to the newest step. -/
lemma followLive (hmoored : s.Moored) (h : s.Sound) : s.followLive.Moored where
  live _ := by
    show s.lastId.or s.cursor = s.lastId
    cases hlast : s.lastId with
    | some newest => rfl
    | none =>
      -- a store without steps is not pinned
      rw [Option.none_or]
      cases hfollow : s.follow with
      | live => exact (hmoored.live hfollow).trans hlast
      | pinned =>
        obtain ⟨id, -, hknown⟩ := hmoored.pinned hfollow
        obtain ⟨newest, hnewest, -⟩ := h.exists_lastId_ge hknown
        rw [hlast] at hnewest
        cases hnewest
  pinned h := nomatch h

/-- There is no scope at the cursor only in a store without steps and below the horizon. -/
lemma currentScope_eq_none_iff (hmoored : s.Moored) (h : s.Sound) :
    s.currentScope = none ↔
      s.size = 0 ∨ ∃ id bound, s.cursor = some id ∧ s.horizon = some bound ∧ id < bound := by
  obtain ⟨c, hc⟩ := h.holds
  have hscope (id : StepId) :
      s.scopeAt id = none ↔ s.size = 0 ∨ ∃ bound, s.horizon = some bound ∧ id < bound := by
    rw [hc.scopeAt]
    simp [Option.any_eq_true, or_iff_not_imp_left]
  rw [currentScope]
  cases hcursor : s.cursor with
  | some id => simp [hscope]
  | none =>
    refine iff_of_true rfl (.inl (lastId_eq_none_iff.1 ?_))
    cases hfollow : s.follow with
    | live => exact (hmoored.live hfollow).symm.trans hcursor
    | pinned =>
      obtain ⟨id, hat, -⟩ := hmoored.pinned hfollow
      rw [hcursor] at hat
      cases hat

end Moored

end Store

end TraceTimeline
