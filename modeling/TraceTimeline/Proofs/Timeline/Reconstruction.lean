import Mathlib
import TraceTimeline.Proofs.Timeline.Arrival

/-!
# Exact reconstruction

A store that holds a chronicle reconstructs the scope at a number from its baseline and the retained
steps.  The result is the fold over all steps of the chronicle up to that number, evicted ones
included (`Store.Holds.scopeAt`): evicted steps are older than every retained one, and they were
folded into the baseline in ascending order, so folding them early changes nothing.  Below the
horizon the steps cannot be told apart any more, and there the store gives no scope.
-/

namespace TraceTimeline

namespace Store

/-- Among ascending steps, those up to a number are a first part. -/
lemma takeWhile_eq_filter {l : List Step} (hasc : l.Pairwise (fun a b => a.id < b.id))
    (id : StepId) : l.takeWhile (·.id ≤ id) = l.filter (·.id ≤ id) := by
  induction l with
  | nil => rfl
  | cons x rest ih =>
    obtain ⟨hfirst, hrest⟩ := List.pairwise_cons.1 hasc
    by_cases hx : x.id ≤ id
    · simp [hx, ih hrest]
    · have hnone : rest.filter (·.id ≤ id) = [] := by
        refine List.filter_eq_nil_iff.2 fun y hy => ?_
        have hlt : id < y.id := Std.lt_trans (Std.not_le.1 hx) (hfirst y hy)
        simpa using hlt
      simp [hx, hnone]

/-- In a store with steps, at and above the horizon, the scope is the fold of the retained steps up
to the number from the baseline. -/
lemma scopeAt_eq_fold {s : Store} {id : StepId} (hsome : s.size ≠ 0)
    (hid : s.horizon.any (id < ·) = false) :
    s.scopeAt id =
      some ((s.baseline.getD Scope.initial).applyAll s.policy (s.stepsUpTo id)) := by
  have hempty : ¬ (s.steps.isEmpty = true ∧ s.baseline.isNone = true) := by
    rintro ⟨hempty, -⟩
    exact hsome (by simpa [size] using hempty)
  rw [scopeAt, if_neg hempty, if_neg (by rw [hid]; exact Bool.false_ne_true)]

namespace Holds

variable {s : Store} {c : Chronicle}

/-- A store without steps holds the empty chronicle, so nothing was evicted from it either. -/
lemma baseline_eq_none_of_size (h : s.Holds c) (hsize : s.size = 0) : s.baseline = none := by
  have hrecent : c.recent s.capacity = [] := by
    rw [← h.layout.steps]
    exact List.eq_nil_of_length_eq_zero hsize
  have hearly : c.early s.capacity = [] := by
    refine (c.early_eq_nil_or s.capacity).resolve_right fun hlen => ?_
    rw [hrecent, List.length_nil] at hlen
    exact absurd h.capacity_pos (by omega)
  rw [h.layout.baseline, hearly]
  rfl

/-- At and above the horizon, the evicted steps and the retained ones up to a number are all steps
of the chronicle up to that number. -/
lemma early_append_stepsUpTo (h : s.Holds c) {id : StepId} (hid : s.horizon.any (id < ·) = false) :
    c.early s.capacity ++ s.stepsUpTo id = c.upTo id := by
  have hearly : ∀ y ∈ c.early s.capacity, y.id ≤ id := by
    intro y hy
    by_contra hlt
    have hpast : s.horizon.any (id < ·) = true :=
      h.layout.any_horizon_lt_iff.2 ⟨y, hy, Std.not_le.1 hlt⟩
    rw [hid] at hpast
    exact Bool.false_ne_true hpast
  have hall : (c.early s.capacity).filter (·.id ≤ id) = c.early s.capacity :=
    List.filter_eq_self.2 fun y hy => decide_eq_true (hearly y hy)
  calc c.early s.capacity ++ s.stepsUpTo id
      = (c.early s.capacity).filter (·.id ≤ id) ++ (c.recent s.capacity).filter (·.id ≤ id) := by
        rw [hall, stepsUpTo, takeWhile_eq_filter h.layout.ascending_retained, h.layout.steps]
    _ = c.upTo id := by
        rw [← List.filter_append, c.early_append_recent]
        rfl

/-- The scope at a number is the fold over all steps of the chronicle up to it, wherever there is a
scope at all. -/
theorem scopeAt (h : s.Holds c) (id : StepId) :
    s.scopeAt id =
      if s.size = 0 ∨ s.horizon.any (id < ·) then none
      else some (Scope.initial.applyAll s.policy (c.upTo id)) := by
  by_cases hsize : s.size = 0
  · have hempty : s.steps.isEmpty = true := by simpa [size] using hsize
    rw [Store.scopeAt, if_pos ⟨hempty, by rw [h.baseline_eq_none_of_size hsize]; rfl⟩,
      if_pos (.inl hsize)]
  · cases hid : s.horizon.any (id < ·) with
    | true => simp [Store.scopeAt, hid]
    | false =>
      rw [scopeAt_eq_fold hsize hid, if_neg (by simp [hsize]), h.layout.baseline,
        Scope.getD_folded, ← Scope.applyAll_append, h.early_append_stepsUpTo hid]

lemma size_eq_zero_iff (h : s.Holds c) : s.size = 0 ↔ c.steps = [] := by
  have hsize : s.size = (c.recent s.capacity).length := by
    rw [← h.layout.steps, Array.length_toList, size]
  have hpos := h.capacity_pos
  rw [hsize, Chronicle.recent, List.length_drop, ← List.length_eq_zero_iff]
  omega

/-- A store has the scope at a number if anything is known and no evicted step is above it. -/
lemma scopeAt_eq_some_iff (h : s.Holds c) {id : StepId} {scope : Scope} :
    s.scopeAt id = some scope ↔ (c.steps ≠ [] ∧ ∀ y ∈ c.early s.capacity, y.id ≤ id) ∧
      Scope.initial.applyAll s.policy (c.upTo id) = scope := by
  have hnone : s.size = 0 ∨ s.horizon.any (id < ·) = true ↔
      ¬ (c.steps ≠ [] ∧ ∀ y ∈ c.early s.capacity, y.id ≤ id) := by
    rw [h.size_eq_zero_iff, h.layout.any_horizon_lt_iff, not_and_or, not_not]
    simp only [not_forall, exists_prop, Std.not_le]
  rw [h.scopeAt]
  split
  · next hlost =>
    refine ⟨fun hscope => ?_, fun hscope => absurd hscope.1 (hnone.1 hlost)⟩
    cases hscope
  · next hkept =>
    rw [hnone, not_not] at hkept
    rw [Option.some.injEq]
    exact ⟨fun hscope => ⟨hkept, hscope⟩, fun hscope => hscope.2⟩

end Holds

/-- **Exact reconstruction under eviction.**  Whatever steps arrived at a new store and in whatever
order, let `known` have for every number the last step of that number that was accepted.  The scope
at a number is the fold over all known steps up to it in ascending order, evicted ones included.
There is no scope only in a store without steps and below the horizon. -/
theorem scopeAt_upsertAll (capacity : Nat) (policy : CarryPolicy) (arrivals : List Step) :
    let fresh := new capacity policy
    let s := fresh.upsertAll arrivals
    let known := Chronicle.ofList (fresh.accepted arrivals)
    (∀ id, known.find? id = (fresh.accepted arrivals).reverse.find? (·.id = id)) ∧
      ∀ id, s.scopeAt id =
        if s.size = 0 ∨ s.horizon.any (id < ·) then none
        else some (Scope.initial.applyAll policy (known.upTo id)) := by
  intro fresh s known
  have hholds : s.Holds known := holds_upsertAll_new capacity policy arrivals
  have hpolicy : s.policy = policy := congrArg (·.2.1) (fresh.stance_upsertAll arrivals)
  refine ⟨fun id => Chronicle.find?_ofList _ id, fun id => ?_⟩
  rw [hholds.scopeAt, hpolicy]

end Store

end TraceTimeline
