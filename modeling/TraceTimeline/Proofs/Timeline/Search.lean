import Mathlib
import TraceTimeline.Timeline.Store

/-!
# Where a number stands

`Stands` says what it means for a position to be that of a number among ascending steps: the steps
before it have smaller numbers, and the steps after it have greater ones.  The bisection of a store
finds such a position (`Store.search_stands`); what is said about updates elsewhere rests on this
alone, and not on how the position is found.
-/

namespace TraceTimeline

/-- A position is where a number stands among steps. -/
inductive Stands (id : StepId) (steps : List Step) : Position → Prop
  /-- It is the number of the step at the position. -/
  | found (before : List Step) (x : Step) (after : List Step)
      (split : steps = before ++ x :: after) (same : x.id = id)
      (below : ∀ y ∈ before, y.id < id) (above : ∀ y ∈ after, id < y.id) :
      Stands id steps (.found before.length)
  /-- It is between the number of the step before the position and that of the step at it. -/
  | gap (before after : List Step) (split : steps = before ++ after)
      (below : ∀ y ∈ before, y.id < id) (above : ∀ y ∈ after, id < y.id) :
      Stands id steps (.gap before.length)

lemma id_lt_of_index_lt {steps : Array Step}
    (hasc : steps.toList.Pairwise (fun a b => a.id < b.id)) {i j : Nat} (hi : i < steps.size)
    (hj : j < steps.size) (h : i < j) : steps[i].id < steps[j].id :=
  List.pairwise_iff_getElem.1 hasc i j hi hj h

/-- Around a step of an ascending list, the numbers are smaller before it and greater after it. -/
lemma below_and_above {before after : List Step} {x : Step}
    (hasc : (before ++ x :: after).Pairwise (fun a b => a.id < b.id)) :
    (∀ y ∈ before, y.id < x.id) ∧ ∀ y ∈ after, x.id < y.id := by
  rw [List.pairwise_append, List.pairwise_cons] at hasc
  obtain ⟨-, ⟨habove, -⟩, hbelow⟩ := hasc
  exact ⟨fun y hy => hbelow y hy x (List.mem_cons_self ..), habove⟩

/-- Steps on one side of an index, told by the index, are on that side of the list. -/
lemma stands_gap {steps : Array Step} {id : StepId} {i : Nat} (hi : i ≤ steps.size)
    (below : ∀ j (hj : j < steps.size), j < i → steps[j].id < id)
    (above : ∀ j (hj : j < steps.size), i ≤ j → id < steps[j].id) :
    Stands id steps.toList (.gap i) := by
  have hlen : (steps.toList.take i).length = i := by simpa using hi
  have hbelow : ∀ y ∈ steps.toList.take i, y.id < id := by
    intro y hy
    obtain ⟨j, hj, rfl⟩ := List.mem_take_iff_getElem.1 hy
    have hji : j < i ∧ j < steps.size := by simpa using hj
    simpa using below j hji.2 hji.1
  have habove : ∀ y ∈ steps.toList.drop i, id < y.id := by
    intro y hy
    obtain ⟨j, hj, rfl⟩ := List.mem_drop_iff_getElem.1 hy
    simpa using above (i + j) (by simpa [Nat.add_comm] using hj) (by omega)
  simpa only [hlen] using Stands.gap _ _ (List.take_append_drop i steps.toList).symm hbelow habove

/-- A step of the number at an index of ascending steps is where the number stands. -/
lemma stands_found {steps : Array Step} (hasc : steps.toList.Pairwise (fun a b => a.id < b.id))
    {id : StepId} {i : Nat} (hi : i < steps.size) (hid : steps[i].id = id) :
    Stands id steps.toList (.found i) := by
  subst hid
  have hlen : (steps.toList.take i).length = i := by simpa using hi.le
  have hsplit : steps.toList = steps.toList.take i ++ steps[i] :: steps.toList.drop (i + 1) := by
    calc steps.toList = steps.toList.take i ++ steps.toList.drop i :=
          (List.take_append_drop i _).symm
      _ = _ := by rw [List.drop_eq_getElem_cons hi]; rfl
  obtain ⟨hbelow, habove⟩ := below_and_above (hsplit ▸ hasc)
  simpa only [hlen] using Stands.found _ _ _ hsplit rfl hbelow habove

namespace Store

/-- The bisection keeps that all steps before its lower bound are below the number, and all steps
from its upper bound on above. -/
lemma searchBetween_stands {steps : Array Step}
    (hasc : steps.toList.Pairwise (fun a b => a.id < b.id)) (id : StepId) (low high : Nat)
    (h : high ≤ steps.size) (hle : low ≤ high)
    (below : ∀ j (hj : j < steps.size), j < low → steps[j].id < id)
    (above : ∀ j (hj : j < steps.size), high ≤ j → id < steps[j].id) :
    Stands id steps.toList (searchBetween steps id low high h) := by
  fun_induction searchBetween steps id low high h with
  | case1 low high h hlt middle candidate heq =>
    exact stands_found hasc _ heq
  | case2 low high h hlt middle candidate hne hsmall ih =>
    -- the middle is below the number, and so is everything before it
    refine ih (by omega) (fun j hj hjm => ?_) above
    rcases Nat.lt_or_eq_of_le (Nat.le_of_lt_succ hjm) with hjm | rfl
    · exact Std.lt_trans (id_lt_of_index_lt hasc hj (by omega) hjm) hsmall
    · exact hsmall
  | case3 low high h hlt middle candidate hne hsmall ih =>
    -- the middle is above the number, and so is everything after it
    have hgreat : id < steps[middle].id := by grind
    refine ih (by omega) below fun j hj hjm => ?_
    rcases Nat.lt_or_eq_of_le hjm with hjm | rfl
    · exact Std.lt_trans hgreat (id_lt_of_index_lt hasc (by omega) hj hjm)
    · exact hgreat
  | case4 low high h hlt =>
    obtain rfl : low = high := by omega
    exact stands_gap h below above

/-- The search among ascending steps finds where a number stands. -/
theorem search_stands {s : Store} (hasc : s.steps.toList.Pairwise (fun a b => a.id < b.id))
    (id : StepId) : Stands id s.steps.toList (s.search id) :=
  searchBetween_stands hasc id 0 s.steps.size _ (Nat.zero_le _)
    (fun j _ hj => absurd hj (Nat.not_lt_zero j)) fun _ hj hle => absurd hj (Nat.not_lt.2 hle)

end Store

end TraceTimeline
