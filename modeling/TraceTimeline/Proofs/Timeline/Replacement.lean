import Mathlib
import TraceTimeline.Proofs.Timeline.Retained

/-!
# A history in place of another one

A store can be given another history, as a list of steps in any order and with several steps of one
number.  What it holds then is told by the list alone (`Store.replaceAll_lastOfEach`): of several
steps of one number the last one counts, the steps that are left are put in ascending order, as many
of them as the capacity allows are retained from the end, and those before are folded into the
baseline.  That the list is put in order before its steps enter the store one by one is what makes
this true: steps of one number are then next to each other, so that the last of them is there before
any of them is evicted.
-/

namespace TraceTimeline

/-- The steps of a list without those that a later step of the same number follows. -/
def lastOfEach : List Step → List Step
  | [] => []
  | x :: rest => if x.id ∈ rest.map (·.id) then lastOfEach rest else x :: lastOfEach rest

/-- Steps are left out, and nothing else. -/
lemma lastOfEach_sublist (l : List Step) : (lastOfEach l).Sublist l := by
  induction l with
  | nil => exact .slnil
  | cons x rest ih =>
    rw [lastOfEach]
    split
    · exact ih.cons x
    · exact ih.cons_cons x

/-- No two of the steps that are left have the same number. -/
lemma nodup_ids_lastOfEach (l : List Step) : ((lastOfEach l).map (·.id)).Nodup := by
  induction l with
  | nil => exact .nil
  | cons x rest ih =>
    rw [lastOfEach]
    split
    · exact ih
    · next hlast =>
      rw [List.map_cons, List.nodup_cons]
      exact ⟨fun hmem => hlast (((lastOfEach_sublist rest).map _).subset hmem), ih⟩

/-- The step that is left of a number is the first one from the end. -/
lemma find?_lastOfEach (l : List Step) (id : StepId) :
    (lastOfEach l).find? (·.id = id) = l.reverse.find? (·.id = id) := by
  induction l with
  | nil => rfl
  | cons x rest ih =>
    have hsome : (rest.reverse.find? (·.id = id)).isSome ↔ id ∈ rest.map (·.id) := by
      simp
    rw [List.reverse_cons, List.find?_append, lastOfEach]
    by_cases hid : x.id = id
    · subst hid
      split
      · next hlater =>
        obtain ⟨y, hy⟩ := Option.isSome_iff_exists.1 (hsome.2 hlater)
        rw [ih, hy, Option.some_or]
      · next hlast =>
        rw [Option.not_isSome_iff_eq_none.1 (mt hsome.1 hlast)]
        simp
    · split <;> simp [hid, ih]

namespace Store

lemma find?_inOrder (l : List Step) (id : StepId) :
    (inOrder l).find? (·.id = id) = l.find? (·.id = id) := by
  rw [← List.head?_filter, filter_inOrder, List.head?_filter]

lemma inOrder_lastOfEach_ascending (l : List Step) :
    (inOrder (lastOfEach l)).Pairwise (fun a b => a.id < b.id) := by
  have hids : ((inOrder (lastOfEach l)).map (·.id)).Nodup :=
    ((inOrder_perm _).map _).nodup_iff.2 (nodup_ids_lastOfEach l)
  refine ((inOrder_ascending _).and (List.pairwise_map.1 hids)).imp fun ⟨hle, hne⟩ => ?_
  exact Std.lt_of_le_of_ne hle hne

/-- The steps that are left, in order, are what is known in the end, if the steps of the list become
known one after another. -/
theorem steps_ofList (l : List Step) :
    (Chronicle.ofList l).steps = inOrder (lastOfEach l) := by
  have heq : Chronicle.ofList l = ⟨inOrder (lastOfEach l), inOrder_lastOfEach_ascending l⟩ := by
    refine Chronicle.ext_find? fun id => ?_
    rw [Chronicle.find?_ofList, ← find?_lastOfEach, ← find?_inOrder]
    rfl
  rw [heq]

/-- A history takes the place of that of any store that came about through updates.  Of the steps
with one number the last one of the list counts.  These steps enter the store in ascending order, so
that none comes too late.  The greatest of them are retained, as many as there is room for; if there
are more, the others are folded into the baseline one after another, and the horizon is the number
of the last of them.  The line index is that of the retained steps, the cursor is the given one, the
store follows live, and nothing else of the store matters but capacity and policy. -/
theorem replaceAll_lastOfEach (capacity : Nat) (policy : CarryPolicy) (ops : List Operation)
    (l : List Step) (cursor : Option StepId) :
    let s := (new capacity policy).run ops
    let t := s.replaceAll l cursor
    let known := inOrder (lastOfEach l)
    let dropped := known.take (known.length - s.capacity)
    .stale ∉ s.clear.outcomes (inOrder l) ∧
      t.steps.toList = known.drop (known.length - s.capacity) ∧
      t.size = min known.length s.capacity ∧
      (known.length ≤ s.capacity → t.horizon = none ∧ t.baseline = none) ∧
      (s.capacity < known.length →
        (∃ last, dropped.getLast? = some last ∧ t.horizon = some last.id) ∧
          t.baseline = some (Scope.initial.applyAll s.policy dropped)) ∧
      t.lines.Lists t.steps.toList ∧ t.cursor = cursor ∧ t.follow = .live ∧
      ∀ other : Store, other.capacity = s.capacity → other.policy = s.policy →
        other.replaceAll l cursor = t := by
  intro s t known dropped
  have h : s.Sound := (Sound.new capacity policy).run ops
  obtain ⟨c, hc⟩ := h.holds
  have hknown : (Chronicle.ofList l).steps = known := steps_ofList l
  have hsettings := s.capacity_and_policy_perform (.replaceAll l cursor)
  have hcap : t.capacity = s.capacity := hsettings.1
  have hpolicy : t.policy = s.policy := hsettings.2
  -- after a replacement the layout is that of the chronicle of the list, whatever was there
  have hlayout : t.Layout dropped (known.drop (known.length - s.capacity)) := by
    have hlayout := (h.holds_replaceAll l cursor).layout
    rwa [Chronicle.early, Chronicle.recent, hknown, hcap] at hlayout
  refine ⟨?_, hlayout.steps, ?_, fun hroom => ?_, fun hfull => ?_, ?_, rfl, rfl, ?_⟩
  · exact hc.clear.stale_notMem_outcomes (inOrder_ascending l) fun _ _ y hy =>
      absurd hy List.not_mem_nil
  · rw [size, ← Array.length_toList, hlayout.steps, List.length_drop]
    omega
  · have hnone : dropped = [] := by
      rw [List.take_eq_nil_iff]
      exact .inl (Nat.sub_eq_zero_of_le hroom)
    rw [hlayout.horizon, hlayout.baseline, hnone]
    exact ⟨rfl, rfl⟩
  · have hlen : dropped.length = known.length - s.capacity := by
      rw [List.length_take]
      omega
    have hsome : dropped ≠ [] := List.ne_nil_of_length_pos (by omega)
    refine ⟨⟨dropped.getLast hsome, List.getLast?_eq_some_getLast hsome, ?_⟩, ?_⟩
    · rw [hlayout.horizon, List.getLast?_eq_some_getLast hsome, Option.map_some]
    · rw [hlayout.baseline, Scope.folded, if_neg hsome, hpolicy]
  · rw [hlayout.steps]
    exact hlayout.lines
  · exact fun other hcapacity hpolicy => replaceAll_eq_of_settings hcapacity hpolicy l cursor

/-- A store for one step is given three, the first and the last of one number.  Of these two the
last is retained, and the third step, of a lower number, is evicted. -/
theorem replaceAll_lastOfEach_evicted :
    let s := (new 1 .sticky).run [.upsert (Step.ofLine 8 8), .upsert (Step.ofLine 9 9)]
    let l := [Step.ofLine 2 4, Step.ofLine 1 4, Step.ofLine 2 5]
    let t := s.replaceAll l none
    s.horizon = some 8 ∧ s.capacity < (inOrder (lastOfEach l)).length ∧
      t.steps.toList = [Step.ofLine 2 5] ∧ t.horizon = some 1 := by
  intro s l t
  have hcapacity (ops : List Operation) : ((new 1 .sticky).run ops).capacity = 1 :=
    capacity_run (new 1 .sticky) ops
  have hleft : lastOfEach l = [Step.ofLine 1 4, Step.ofLine 2 5] := by decide +kernel
  have hknown : inOrder (lastOfEach l) = [Step.ofLine 1 4, Step.ofLine 2 5] := by
    rw [hleft]
    exact List.mergeSort_of_pairwise (by decide +kernel)
  have hfull : s.capacity < (inOrder (lastOfEach l)).length := by
    rw [hknown, hcapacity]
    decide
  obtain ⟨-, hsteps, -, -, hevicted, -⟩ := replaceAll_lastOfEach 1 .sticky
    [.upsert (Step.ofLine 8 8), .upsert (Step.ofLine 9 9)] l none
  obtain ⟨⟨last, hlast, hhorizon⟩, -⟩ := hevicted hfull
  rw [hknown, hcapacity] at hlast hsteps
  refine ⟨by decide +kernel, hfull, hsteps, hhorizon.trans ?_⟩
  cases hlast
  rfl

end Store

end TraceTimeline
