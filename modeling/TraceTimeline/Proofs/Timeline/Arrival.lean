import Mathlib
import TraceTimeline.Proofs.Timeline.View

/-!
# The order of arrival

Steps arrive in any order, and the store evicts while they arrive, so two orders of the same steps
send the store through different states.  They still end in the same store, as long as no step came
too late: the store then holds the chronicle of all steps, and that does not depend on the order
(`Store.upsertAll_perm`).  Steps that arrive in ascending order never come too late
(`Store.Holds.stale_notMem_outcomes`), whatever the capacity, so delivery in order is the measure of
every other order.
-/

namespace TraceTimeline

namespace Store

/-! ## What becomes of arriving steps -/

/-- What happens to each of a list of steps that are put into the store one after another. -/
def outcomes (s : Store) : List Step → List UpsertOutcome
  | [] => []
  | x :: rest => (s.upsert x).2 :: (s.upsert x).1.outcomes rest

/-- The steps of a list that are not discarded when they are put into the store one after
another. -/
def accepted (s : Store) (l : List Step) : List Step :=
  ((l.zip (s.outcomes l)).filter (·.2 ≠ .stale)).map (·.1)

variable {s : Store} {x : Step}

lemma upsert_of_isPast (h : s.isPast x.id = true) : s.upsert x = (s, .stale) := by
  unfold upsert
  rw [if_pos h]

/-- Only a step that is not above the horizon is discarded. -/
lemma snd_upsert_eq_stale_iff : (s.upsert x).2 = .stale ↔ s.isPast x.id = true := by
  constructor
  · intro h
    by_contra hpast
    unfold upsert at h
    rw [if_neg hpast] at h
    split at h
    · simp at h
    · dsimp only at h
      split at h <;> simp at h
  · intro h
    rw [upsert_of_isPast h]

lemma accepted_cons_of_isPast (h : s.isPast x.id = true) (rest : List Step) :
    s.accepted (x :: rest) = s.accepted rest := by
  simp [accepted, outcomes, upsert_of_isPast h]

lemma accepted_cons_of_not_isPast (h : s.isPast x.id = false) (rest : List Step) :
    s.accepted (x :: rest) = x :: (s.upsert x).1.accepted rest := by
  have hne : (s.upsert x).2 ≠ .stale := by
    rw [Ne, snd_upsert_eq_stale_iff, h]
    exact Bool.false_ne_true
  simp [accepted, outcomes, hne]

/-- Without discarded steps, all are accepted. -/
lemma accepted_eq_self {l : List Step} (h : .stale ∉ s.outcomes l) : s.accepted l = l := by
  induction l generalizing s with
  | nil => rfl
  | cons x rest ih =>
    rw [outcomes, List.mem_cons, not_or] at h
    have hpast : s.isPast x.id = false :=
      Bool.eq_false_iff.2 fun hpast => h.1 (snd_upsert_eq_stale_iff.2 hpast).symm
    rw [accepted_cons_of_not_isPast hpast, ih h.2]

/-- After a list of steps was put into the store, it holds what it held before and, in the order
of arrival, the steps that were accepted. -/
theorem Holds.upsertAll {c : Chronicle} (h : s.Holds c) (l : List Step) :
    (s.upsertAll l).Holds ((s.accepted l).foldl Chronicle.note c) := by
  induction l generalizing s c with
  | nil => exact h
  | cons x rest ih =>
    show ((s.upsert x).1.upsertAll rest).Holds _
    cases hpast : s.isPast x.id with
    | true =>
      rw [upsert_of_isPast hpast, accepted_cons_of_isPast hpast]
      exact ih h
    | false =>
      rw [accepted_cons_of_not_isPast hpast, List.foldl_cons]
      exact ih (h.upsert hpast)

lemma holds_upsertAll_new (capacity : Nat) (policy : CarryPolicy) (l : List Step) :
    ((new capacity policy).upsertAll l).Holds
      (Chronicle.ofList ((new capacity policy).accepted l)) :=
  (holds_new capacity policy).upsertAll l

/-! ## Arrival in ascending order -/

lemma inOrder_perm (l : List Step) : (inOrder l).Perm l := List.mergeSort_perm ..

/-- Steps in order ascend, with steps of one number next to each other. -/
lemma inOrder_ascending (l : List Step) : (inOrder l).Pairwise (fun a b => a.id ≤ b.id) := by
  have hsorted : (inOrder l).Pairwise (fun a b => decide (a.id ≤ b.id) = true) := by
    refine List.pairwise_mergeSort (fun a b c hab hbc => ?_) (fun a b => ?_) l
    · simp only [decide_eq_true_eq] at hab hbc ⊢
      exact Std.le_trans hab hbc
    · simpa using Std.le_total
  exact hsorted.imp of_decide_eq_true

/-- Putting steps in order leaves those of one number in their order. -/
lemma filter_inOrder (l : List Step) (id : StepId) :
    (inOrder l).filter (·.id = id) = l.filter (·.id = id) := by
  have hsame : (l.filter (·.id = id)).Pairwise (fun a b => decide (a.id ≤ b.id) = true) := by
    refine List.pairwise_of_forall_mem_list fun a ha b hb => ?_
    have ha : a.id = id := by simpa using (List.mem_filter.1 ha).2
    have hb : b.id = id := by simpa using (List.mem_filter.1 hb).2
    rw [ha, hb]
    exact decide_eq_true (Std.le_refl id)
  have hsub : (l.filter (·.id = id)).Sublist (inOrder l) := by
    refine List.sublist_mergeSort (fun a b c hab hbc => ?_) (fun a b => ?_) hsame
      List.filter_sublist
    · simp only [decide_eq_true_eq] at hab hbc ⊢
      exact Std.le_trans hab hbc
    · simpa using Std.le_total
  have hsub' : (l.filter (·.id = id)).Sublist ((inOrder l).filter (·.id = id)) := by
    simpa only [List.filter_filter, Bool.and_self] using hsub.filter (·.id = id)
  have hlen : ((inOrder l).filter (·.id = id)).length = (l.filter (·.id = id)).length :=
    ((inOrder_perm l).filter _).length_eq
  exact (hsub'.eq_of_length hlen.symm).symm

/-- Putting steps in order before they become known changes nothing. -/
theorem ofList_inOrder (l : List Step) : Chronicle.ofList (inOrder l) = Chronicle.ofList l := by
  have hfind (m : List Step) (id : StepId) :
      (Chronicle.ofList m).find? id = (m.filter (·.id = id)).reverse.head? := by
    rw [Chronicle.find?_ofList, ← List.head?_filter, List.filter_reverse]
  refine Chronicle.ext_find? fun id => ?_
  rw [hfind, hfind, filter_inOrder]

/-- A step that is not below any step known to the store is not past: evicted steps are below
retained ones, and of those there are some as soon as anything was evicted. -/
lemma Holds.isPast_eq_false {c : Chronicle} (h : s.Holds c) (hx : ∀ y ∈ c.steps, y.id ≤ x.id) :
    s.isPast x.id = false := by
  by_contra hpast
  obtain ⟨y, hy, hle⟩ := h.layout.isPast_iff.1 (Bool.eq_true_of_not_eq_false hpast)
  have hlen : (c.recent s.capacity).length = s.capacity :=
    (c.early_eq_nil_or s.capacity).resolve_left (List.ne_nil_of_mem hy)
  obtain ⟨z, hz⟩ := List.exists_mem_of_length_pos (hlen ▸ h.capacity_pos)
  have hyz : y.id < z.id := (List.pairwise_append.1 h.layout.ascending).2.2 y hy z hz
  have hzx : z.id ≤ x.id := hx z (by
    rw [← c.early_append_recent s.capacity]
    exact List.mem_append_right _ hz)
  exact absurd (Std.lt_of_lt_of_le hyz (Std.le_trans hzx hle)) Std.lt_irrefl

/-- Steps that arrive in ascending order are never discarded. -/
theorem Holds.stale_notMem_outcomes {c : Chronicle} (h : s.Holds c) {l : List Step}
    (hl : l.Pairwise (fun a b => a.id ≤ b.id)) (hc : ∀ x ∈ l, ∀ y ∈ c.steps, y.id ≤ x.id) :
    .stale ∉ s.outcomes l := by
  induction l generalizing s c with
  | nil => exact List.not_mem_nil
  | cons x rest ih =>
    obtain ⟨hfirst, hrest⟩ := List.pairwise_cons.1 hl
    have hpast : s.isPast x.id = false := h.isPast_eq_false (hc x (List.mem_cons_self ..))
    rw [outcomes, List.mem_cons, not_or]
    constructor
    · intro hstale
      rw [snd_upsert_eq_stale_iff.1 hstale.symm] at hpast
      exact Bool.false_ne_true hpast.symm
    · refine ih (h.upsert hpast) hrest fun y hy z hz => ?_
      rcases Chronicle.mem_note.1 hz with rfl | ⟨hz, -⟩
      · exact hfirst y hy
      · exact hc y (List.mem_cons_of_mem _ hy) z hz

/-! ## The result does not depend on the order -/

/-- Two orders of steps of distinct numbers, none of which comes too late, lead to one store. -/
lemma upsertAll_eq_of_perm (capacity : Nat) (policy : CarryPolicy) {l m : List Step}
    (hperm : l.Perm m) (hids : (l.map (·.id)).Nodup)
    (hl : .stale ∉ (new capacity policy).outcomes l)
    (hm : .stale ∉ (new capacity policy).outcomes m) :
    (new capacity policy).upsertAll l = (new capacity policy).upsertAll m := by
  have hholds := holds_upsertAll_new capacity policy l
  have hholds' := holds_upsertAll_new capacity policy m
  rw [accepted_eq_self hl, Chronicle.ofList_eq_of_perm hperm hids] at hholds
  rw [accepted_eq_self hm] at hholds'
  exact hholds.eq_of_stance hholds' (by rw [stance_upsertAll, stance_upsertAll])

/-- The order of arrival does not matter.  If the same steps, of distinct numbers, are put into a
new store in two orders, and none is discarded in either, the stores are equal in every respect.  In
ascending order none is ever discarded, so that every order without discarded steps leads to the
store of the delivery in order, whatever the capacity. -/
theorem upsertAll_perm (capacity : Nat) (policy : CarryPolicy) {first second : List Step}
    (hperm : first.Perm second) (hids : (first.map (·.id)).Nodup) :
    let fresh := new capacity policy
    (.stale ∉ fresh.outcomes first → .stale ∉ fresh.outcomes second →
        fresh.upsertAll first = fresh.upsertAll second ∧
          ∀ id, (fresh.upsertAll first).scopeAt id = (fresh.upsertAll second).scopeAt id) ∧
      .stale ∉ fresh.outcomes (inOrder first) ∧
      (.stale ∉ fresh.outcomes first →
        fresh.upsertAll first = fresh.upsertAll (inOrder first)) := by
  intro fresh
  have hordered : .stale ∉ fresh.outcomes (inOrder first) :=
    (holds_new capacity policy).stale_notMem_outcomes (inOrder_ascending first)
      fun _ _ y hy => absurd hy List.not_mem_nil
  refine ⟨fun hfirst hsecond => ?_, hordered, fun hfirst => ?_⟩
  · have heq := upsertAll_eq_of_perm capacity policy hperm hids hfirst hsecond
    exact ⟨heq, fun id => congrArg (·.scopeAt id) heq⟩
  · exact upsertAll_eq_of_perm capacity policy (inOrder_perm first).symm hids hfirst hordered

/-- In a store for two steps the oldest of three is evicted when the last of them arrives, be that
the greatest or the oldest itself. -/
theorem upsertAll_perm_oldest_last :
    let fresh := new 2 .sticky
    let late := [Step.ofLine 2 4, Step.ofLine 3 5, Step.ofLine 1 4]
    let prompt := [Step.ofLine 1 4, Step.ofLine 2 4, Step.ofLine 3 5]
    late.Perm prompt ∧ .stale ∉ fresh.outcomes late ∧ .stale ∉ fresh.outcomes prompt ∧
      (fresh.upsertAll late).horizon = some 1 ∧ fresh.upsertAll late = fresh.upsertAll prompt := by
  intro fresh late prompt
  have hperm : late.Perm prompt := by decide +kernel
  have hids : (late.map (·.id)).Nodup := by decide +kernel
  have hlate : .stale ∉ fresh.outcomes late := by decide +kernel
  have hprompt : .stale ∉ fresh.outcomes prompt := by decide +kernel
  have heq := ((upsertAll_perm 2 .sticky hperm hids).1 hlate hprompt).1
  exact ⟨hperm, hlate, hprompt, by decide +kernel, heq⟩

end Store

end TraceTimeline
