import Mathlib
import TraceTimeline.Proofs.Timeline.Newest

/-!
# Scopes by number and by position

The scope at a number is the fold over the retained steps up to it, from the baseline.  A scope can
also be asked for by the position of a step, where a position past the end stands for the last one.
Both fold a first part of the retained steps, so that they give the same scope whenever the parts
are the same (`Store.scopeAt_eq_of_take`).  At the number of a retained step, above the last one,
and in the gaps between them, `Store.scopeAt_eq_deriveFrom` says which position or number gives the
scope.

A fold may be interrupted after any step and taken up again from the scope that was reached
(`Scope.deriveFrom_split`).
-/

namespace TraceTimeline

namespace Scope

/-- The scope at a position is that at an earlier one, with the steps in between folded onto it. -/
lemma deriveFrom_split (policy : CarryPolicy) (baseline : Option Scope) (steps : List Step)
    {k position : Nat} (hk : 1 ≤ k) (hposition : k ≤ position) :
    deriveFrom policy baseline steps (some position) =
      deriveFrom policy (deriveFrom policy baseline steps (some (k - 1))) (steps.drop k)
        (some (position - k)) := by
  have hfirst : k - 1 + 1 = k := by omega
  have hall : position + 1 = k + (position - k + 1) := by omega
  simp only [deriveFrom, Option.getD_some, hfirst, ← applyAll_append]
  rw [hall, List.take_add]

end Scope

namespace Store

variable {s : Store} {id : StepId} {position : Nat}

/-! ## The first part of the retained steps -/

/-- If the retained steps are split where their numbers exceed a bound, the first part is what is
retained up to the bound. -/
lemma stepsUpTo_of_append {before after : List Step} (hsplit : s.steps.toList = before ++ after)
    (hbefore : ∀ y ∈ before, y.id ≤ id) (hafter : ∀ y ∈ after, id < y.id) :
    s.stepsUpTo id = before := by
  have hnone : after.takeWhile (·.id ≤ id) = [] := by
    cases after with
    | nil => rfl
    | cons y rest =>
      have hy : ¬ y.id ≤ id := Std.not_le.2 (hafter y (List.mem_cons_self ..))
      rw [List.takeWhile_cons_of_neg (by simpa using hy)]
  rw [stepsUpTo, hsplit, List.takeWhile_append_of_pos (by simpa using hbefore), hnone,
    List.append_nil]

/-- Up to the number of a retained step, these are the steps up to its position. -/
lemma Sound.stepsUpTo_of_positionOf (h : s.Sound) (hposition : s.positionOf id = some position) :
    s.stepsUpTo id = s.steps.toList.take (position + 1) := by
  have hstands := search_stands h.ascending id
  unfold positionOf at hposition
  generalize s.search id = found at hstands hposition
  cases hstands with
  | gap before after => cases hposition
  | found before y after hsplit hsame hbelow habove =>
    cases hposition
    have hsplit : s.steps.toList = (before ++ [y]) ++ after := by simpa using hsplit
    have hupto : s.stepsUpTo id = before ++ [y] := by
      refine stepsUpTo_of_append hsplit (fun z hz => ?_) habove
      rcases List.mem_append.1 hz with hz | hz
      · exact Std.le_of_lt (hbelow z hz)
      · rw [List.mem_singleton.1 hz, hsame]
        exact Std.le_refl id
    rw [hupto, hsplit, List.take_left' (by simp)]

/-- Up to a number above all retained steps, these are all of them. -/
lemma stepsUpTo_of_above (habove : ∀ y ∈ s.steps.toList, y.id < id)
    (hposition : s.size - 1 ≤ position) :
    s.stepsUpTo id = s.steps.toList.take (position + 1) := by
  have hlen : s.steps.toList.length ≤ position + 1 := by
    rw [Array.length_toList]
    unfold size at hposition
    omega
  rw [List.take_of_length_le hlen]
  have hall : ∀ y ∈ s.steps.toList, y.id ≤ id := fun y hy => Std.le_of_lt (habove y hy)
  exact stepsUpTo_of_append (List.append_nil _).symm hall (by simp)

/-- Up to a number that is not retained, these are the steps up to the greatest number below it, and
none if there is no such number. -/
lemma Sound.stepsUpTo_of_gap (h : s.Sound) (hgap : s.contains id = false) {below : Option StepId}
    (hbelow : IsNewest (s.steps.toList.filter (·.id < id)) below) :
    s.stepsUpTo id = below.elim [] s.stepsUpTo := by
  have hstrict : ∀ y ∈ s.steps.toList, y.id ≤ id ↔ y.id < id := by
    intro y hy
    have hne : y.id ≠ id := by
      rintro rfl
      rw [h.contains_iff.2 ⟨y, Array.mem_toList_iff.1 hy, rfl⟩] at hgap
      cases hgap
    exact ⟨fun hle => Std.lt_of_le_of_ne hle hne, Std.le_of_lt⟩
  have hupto : s.stepsUpTo id = s.steps.toList.filter (·.id < id) := by
    rw [stepsUpTo, takeWhile_eq_filter h.ascending]
    exact List.filter_congr fun y hy => decide_eq_decide.2 (hstrict y hy)
  cases below with
  | none => exact hupto.trans hbelow
  | some last =>
    obtain ⟨⟨z, hz, rfl⟩, hmax⟩ := hbelow
    have hlast : z.id < id := by simpa using (List.mem_filter.1 hz).2
    show s.stepsUpTo id = s.stepsUpTo z.id
    rw [hupto, stepsUpTo, takeWhile_eq_filter h.ascending]
    refine List.filter_congr fun y hy => decide_eq_decide.2 ⟨fun hlt => ?_, fun hle => ?_⟩
    · exact hmax y (List.mem_filter.2 ⟨hy, decide_eq_true hlt⟩)
    · exact Std.lt_of_le_of_lt hle hlast

/-! ## Scopes -/

lemma any_horizon_eq_false (hid : ∀ horizon, s.horizon = some horizon → horizon ≤ id) :
    s.horizon.any (id < ·) = false := by
  rw [Option.any_eq_false]
  intro horizon hhorizon
  simpa using Std.not_lt.2 (hid horizon hhorizon)

lemma scopeAt_eq_of_take (hsome : s.size ≠ 0)
    (hid : ∀ horizon, s.horizon = some horizon → horizon ≤ id)
    (htake : s.stepsUpTo id = s.steps.toList.take (position + 1)) :
    s.scopeAt id = Scope.deriveFrom s.policy s.baseline s.steps.toList (some position) := by
  rw [scopeAt_eq_fold hsome (any_horizon_eq_false hid), htake]
  rfl

lemma Sound.horizon_le (h : s.Sound) {y : Step} (hy : y ∈ s.steps.toList) :
    ∀ horizon, s.horizon = some horizon → horizon ≤ y.id := by
  intro horizon hhorizon
  exact Std.le_of_lt (h.wellFormed.above_horizon horizon hhorizon y (Array.mem_toList_iff.1 hy))

/-- At a number in a gap there is the scope of the greatest retained number below it, or what the
steps are folded onto if there is none. -/
lemma Sound.scopeAt_of_gap (h : s.Sound) (hsome : s.size ≠ 0)
    (hid : ∀ horizon, s.horizon = some horizon → horizon ≤ id) (hgap : s.contains id = false)
    {below : Option StepId} (hbelow : IsNewest (s.steps.toList.filter (·.id < id)) below) :
    s.scopeAt id = below.elim (some (s.baseline.getD Scope.initial)) s.scopeAt := by
  rw [scopeAt_eq_fold hsome (any_horizon_eq_false hid), h.stepsUpTo_of_gap hgap hbelow]
  cases below with
  | none => rfl
  | some last =>
    obtain ⟨⟨y, hy, rfl⟩, -⟩ := hbelow
    have hlast := any_horizon_eq_false (h.horizon_le (List.mem_of_mem_filter hy))
    exact (scopeAt_eq_fold hsome hlast).symm

/-- In every store with steps that updates lead to, the scope at a number that is not below the
horizon is also found by position.  At the number of a retained step it is the scope at the position
of the step.  Above the last number it is that at the last position and at every position past the
end.  At a number that is not retained it is the scope at the greatest retained number below, and
the baseline, or the initial scope, if there is none.  Moreover, a scope by position may be
reconstructed in two parts, split anywhere. -/
theorem scopeAt_eq_deriveFrom (capacity : Nat) (policy : CarryPolicy) (ops : List Operation) :
    let s := (new capacity policy).run ops
    let steps := s.steps.toList
    let scopeAfter := Scope.deriveFrom s.policy s.baseline steps
    (s.size ≠ 0 → ∀ id, (∀ horizon, s.horizon = some horizon → horizon ≤ id) →
      (s.contains id = true →
        (s.positionOf id).isSome ∧ s.scopeAt id = scopeAfter (s.positionOf id)) ∧
      ((∀ y ∈ steps, y.id < id) →
        ∀ position, s.size - 1 ≤ position → s.scopeAt id = scopeAfter (some position)) ∧
      (s.contains id = false →
        ∃ below, IsNewest (steps.filter (·.id < id)) below ∧
          s.scopeAt id = below.elim (some (s.baseline.getD Scope.initial)) s.scopeAt)) ∧
    ∀ (history : List Step) (k position : Nat), 1 ≤ k → k ≤ position →
      Scope.derive policy history (some position) =
        Scope.deriveFrom policy (Scope.derive policy history (some (k - 1))) (history.drop k)
          (some (position - k)) := by
  intro s steps scopeAfter
  have h : s.Sound := (Sound.new capacity policy).run ops
  refine ⟨fun hsome id hid => ⟨fun hretained => ?_, fun habove position hposition => ?_,
    fun hgap => ?_⟩, fun history k position hk hposition => ?_⟩
  · obtain ⟨position, hposition⟩ := Option.isSome_iff_exists.1 hretained
    rw [hposition]
    exact ⟨rfl, scopeAt_eq_of_take hsome hid (h.stepsUpTo_of_positionOf hposition)⟩
  · exact scopeAt_eq_of_take hsome hid (stepsUpTo_of_above habove hposition)
  · have hbelow := Chronicle.isNewest_getLast? ⟨steps.filter (·.id < id), h.ascending.filter _⟩
    exact ⟨_, hbelow, h.scopeAt_of_gap hsome hid hgap hbelow⟩
  · exact Scope.deriveFrom_split policy none history hk hposition

/-- A store for two steps after four have arrived, with gaps between their numbers: the scopes at
the horizon, at a retained number, in a gap and above the last number, and a history of three steps
that is split after the first one. -/
theorem scopeAt_eq_deriveFrom_with_gaps :
    let history := [Step.ofLine 1 4, Step.ofLine 2 4, Step.ofLine 4 5, Step.ofLine 6 5]
    let s := (new 2 .sticky).run (history.map .upsert)
    let scopeAfter := Scope.deriveFrom s.policy s.baseline s.steps.toList
    s.horizon = some 2 ∧ s.scopeAt 2 = some (s.baseline.getD Scope.initial) ∧
      s.scopeAt 4 = scopeAfter (some 0) ∧ s.scopeAt 5 = s.scopeAt 4 ∧
      s.scopeAt 9 = scopeAfter (some 7) ∧
      Scope.derive .sticky history (some 2) =
        Scope.deriveFrom .sticky (Scope.derive .sticky history (some 0)) (history.drop 1)
          (some 1) := by
  intro history s scopeAfter
  have hhorizon : s.horizon = some 2 := by decide +kernel
  have hkept (id : StepId) (hid : 2 ≤ id) : ∀ bound, s.horizon = some bound → bound ≤ id := by
    intro bound hbound
    cases hhorizon.symm.trans hbound
    exact hid
  obtain ⟨hstore, hsplit⟩ := scopeAt_eq_deriveFrom 2 .sticky (history.map .upsert)
  have hat := hstore (by decide +kernel)
  obtain ⟨below, hbelow, hgap⟩ := (hat 2 (hkept 2 (by decide))).2.2 (by decide +kernel)
  obtain rfl : below = none := hbelow.unique (by decide +kernel)
  obtain ⟨below, hbelow, hgap'⟩ := (hat 5 (hkept 5 (by decide))).2.2 (by decide +kernel)
  obtain rfl : below = some 4 := hbelow.unique (by decide +kernel)
  obtain ⟨-, hretained⟩ := (hat 4 (hkept 4 (by decide))).1 (by decide +kernel)
  have hposition : s.positionOf 4 = some 0 := by decide +kernel
  rw [hposition] at hretained
  exact ⟨hhorizon, hgap, hretained, hgap',
    (hat 9 (hkept 9 (by decide))).2.1 (by decide +kernel) 7 (by decide +kernel),
    hsplit history 1 2 (by decide) (by decide)⟩

end Store

end TraceTimeline
