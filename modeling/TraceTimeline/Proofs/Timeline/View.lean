import Mathlib
import TraceTimeline.Proofs.Timeline.Chronicle
import TraceTimeline.Proofs.Timeline.LineIndex
import TraceTimeline.Proofs.Timeline.Search

/-!
# A store as a view of a chronicle

A store does not keep all it was told.  `Store.Holds` says which chronicle it stands for: the recent
steps, as many as the capacity allows, are retained, and the early ones are folded into the
baseline.  A store that holds a chronicle is determined by it up to cursor and follow mode
(`Store.Holds.eq_of_stance`), and putting a step into the store is noting it in the chronicle
(`Store.Holds.upsert`), except for a step at or below the horizon, which changes nothing.

Within an update the capacity may be exceeded for a moment.  `Store.Layout` is the part of `Holds`
that is true at every such moment: it says how the store is laid out from the evicted and the
retained steps, however many they are.
-/

namespace TraceTimeline

/-! ## The scope of evicted steps -/

namespace Scope

/-- The scope that steps are folded into when they are evicted; there is none as long as there are
no such steps. -/
def folded (policy : CarryPolicy) (evicted : List Step) : Option Scope :=
  if evicted = [] then none else some (initial.applyAll policy evicted)

lemma applyAll_append (policy : CarryPolicy) (scope : Scope) (l m : List Step) :
    scope.applyAll policy (l ++ m) = (scope.applyAll policy l).applyAll policy m :=
  List.foldl_append

lemma applyAll_concat (policy : CarryPolicy) (scope : Scope) (l : List Step) (x : Step) :
    scope.applyAll policy (l ++ [x]) = (scope.applyAll policy l).apply policy x :=
  applyAll_append policy scope l [x]

lemma getD_folded (policy : CarryPolicy) (evicted : List Step) :
    (folded policy evicted).getD initial = initial.applyAll policy evicted := by
  unfold folded
  split
  · next h => rw [h]; rfl
  · rfl

lemma folded_append_singleton (policy : CarryPolicy) (evicted : List Step) (x : Step) :
    folded policy (evicted ++ [x]) =
      some (((folded policy evicted).getD initial).apply policy x) := by
  rw [getD_folded, folded, if_neg (by simp), applyAll_concat]

end Scope

namespace Store

/-! ## What updates of the history leave alone -/

/-- Everything about a store but its history. -/
def stance (s : Store) : Nat × CarryPolicy × Option StepId × FollowMode :=
  (s.capacity, s.policy, s.cursor, s.follow)

@[simp] lemma stance_evictOldest (s : Store) : s.evictOldest.stance = s.stance := by
  unfold evictOldest
  split <;> rfl

@[simp] lemma stance_evictOverflow (s : Store) : s.evictOverflow.stance = s.stance := by
  unfold evictOverflow
  induction s.steps.size - s.capacity with
  | zero => rfl
  | succ n ih => rw [Nat.repeat, stance_evictOldest, ih]

/-- Putting a step into the store changes the history only. -/
@[simp] lemma stance_upsert (s : Store) (x : Step) : (s.upsert x).1.stance = s.stance := by
  unfold upsert
  split
  · rfl
  · split
    · rw [stance_evictOverflow]; rfl
    · rw [stance_evictOverflow]; rfl

@[simp] lemma stance_upsertAll (s : Store) (l : List Step) : (s.upsertAll l).stance = s.stance := by
  unfold upsertAll
  induction l generalizing s with
  | nil => rfl
  | cons x rest ih => rw [List.foldl_cons, ih, stance_upsert]

/-- An update changes neither the capacity nor the policy. -/
lemma capacity_and_policy_perform (s : Store) (op : Operation) :
    (s.perform op).capacity = s.capacity ∧ (s.perform op).policy = s.policy := by
  have kept {t : Store} (h : t.stance = s.clear.stance ∨ t.stance = s.stance) :
      t.capacity = s.capacity ∧ t.policy = s.policy := by
    rcases h with h | h <;> exact ⟨congrArg (·.1) h, congrArg (·.2.1) h⟩
  cases op with
  | upsert x => exact kept (.inr (s.stance_upsert x))
  | replaceAll l cursor =>
    exact kept (t := s.clear.upsertAll (inOrder l)) (.inl (stance_upsertAll _ _))
  | clear => exact ⟨rfl, rfl⟩
  | advanceLive id =>
    show (s.advanceLive id).1.capacity = _ ∧ (s.advanceLive id).1.policy = _
    unfold advanceLive
    split <;> exact ⟨rfl, rfl⟩
  | pin id =>
    show (s.pin id).1.capacity = _ ∧ (s.pin id).1.policy = _
    unfold pin
    split <;> exact ⟨rfl, rfl⟩
  | followLive => exact ⟨rfl, rfl⟩

lemma capacity_run (s : Store) (ops : List Operation) : (s.run ops).capacity = s.capacity := by
  unfold run
  induction ops generalizing s with
  | nil => rfl
  | cons op rest ih => rw [List.foldl_cons, ih, (s.capacity_and_policy_perform op).1]

lemma policy_run (s : Store) (ops : List Operation) : (s.run ops).policy = s.policy := by
  unfold run
  induction ops generalizing s with
  | nil => rfl
  | cons op rest ih => rw [List.foldl_cons, ih, (s.capacity_and_policy_perform op).2]

lemma clear_eq_of_settings {s t : Store} (hcapacity : s.capacity = t.capacity)
    (hpolicy : s.policy = t.policy) : s.clear = t.clear := by
  simp [clear, hcapacity, hpolicy]

lemma replaceAll_eq_of_settings {s t : Store} (hcapacity : s.capacity = t.capacity)
    (hpolicy : s.policy = t.policy) (l : List Step) (cursor : Option StepId) :
    s.replaceAll l cursor = t.replaceAll l cursor := by
  unfold replaceAll
  rw [clear_eq_of_settings hcapacity hpolicy]

/-! ## The layout of a store -/

lemma insertIdx_length_append {α : Type} (l m : List α) (a : α) :
    (l ++ m).insertIdx l.length a = l ++ a :: m := by
  induction l with
  | nil => rfl
  | cons b l ih => simp [ih]

/-- A store is laid out from the steps that were evicted and those that are retained. -/
structure Layout (s : Store) (evicted retained : List Step) : Prop where
  steps : s.steps.toList = retained
  /-- The horizon is the number of the last evicted step. -/
  horizon : s.horizon = evicted.getLast?.map (·.id)
  /-- The baseline is the scope after the evicted steps. -/
  baseline : s.baseline = Scope.folded s.policy evicted
  lines : s.lines.Lists retained
  ascending : (evicted ++ retained).Pairwise (fun a b => a.id < b.id)

namespace Layout

variable {s : Store} {evicted retained before after : List Step} {x y : Step}

lemma ascending_retained (h : s.Layout evicted retained) :
    s.steps.toList.Pairwise (fun a b => a.id < b.id) := by
  rw [h.steps]
  exact (List.pairwise_append.1 h.ascending).2.1

/-- The horizon has every property that some evicted number has and that greater numbers keep. -/
lemma any_horizon_iff (h : s.Layout evicted retained) {p : StepId → Bool}
    (hp : ∀ a b, a < b → p a → p b) : s.horizon.any p = true ↔ ∃ y ∈ evicted, p y.id := by
  rw [h.horizon]
  cases hlast : evicted.getLast? with
  | none => simp [List.getLast?_eq_none_iff.1 hlast]
  | some z =>
    obtain ⟨init, rfl⟩ := List.getLast?_eq_some_iff.1 hlast
    have hasc := (List.pairwise_append.1 h.ascending).1
    rw [Option.map_some, Option.any_some]
    constructor
    · intro hz
      exact ⟨z, by simp, hz⟩
    · rintro ⟨y, hy, hpy⟩
      rcases List.mem_append.1 hy with hy | hy
      · exact hp _ _ ((List.pairwise_append.1 hasc).2.2 y hy z (by simp)) hpy
      · rwa [List.mem_singleton.1 hy] at hpy

/-- What is not above the horizon is not above some evicted step. -/
lemma isPast_iff (h : s.Layout evicted retained) {id : StepId} :
    s.isPast id = true ↔ ∃ y ∈ evicted, id ≤ y.id := by
  rw [isPast, h.any_horizon_iff]
  · simp
  · intro a b hab hle
    simp only [decide_eq_true_eq] at hle ⊢
    exact Std.le_trans hle (Std.le_of_lt hab)

/-- What is below the horizon is below some evicted step. -/
lemma any_horizon_lt_iff (h : s.Layout evicted retained) {id : StepId} :
    s.horizon.any (id < ·) = true ↔ ∃ y ∈ evicted, id < y.id := by
  rw [h.any_horizon_iff]
  · simp
  · intro a b hab hlt
    simp only [decide_eq_true_eq] at hlt ⊢
    exact Std.lt_trans hlt hab

/-- The oldest retained step becomes the last evicted one. -/
lemma evictOldest (h : s.Layout evicted (x :: retained)) :
    s.evictOldest.Layout (evicted ++ [x]) retained := by
  have hfirst : s.steps[0]? = some x := by
    rw [← Array.getElem?_toList, h.steps]
    rfl
  have hsize : s.steps.size = retained.length + 1 := by
    rw [← Array.length_toList, h.steps, List.length_cons]
  have hasc : (evicted ++ [x] ++ retained).Pairwise (fun a b => a.id < b.id) := by
    simpa using h.ascending
  have hne : ∀ y ∈ retained, y.id ≠ x.id := by
    intro y hy
    exact (UInt64.ne_of_lt ((List.pairwise_append.1 hasc).2.2 x (by simp) y hy)).symm
  unfold Store.evictOldest
  rw [hfirst]
  exact {
    steps := by simp [h.steps, hsize]
    horizon := by simp
    baseline := by
      rw [Scope.folded_append_singleton, ← h.baseline]
    lines := h.lines.leave (fun _ => List.mem_cons) hne
    ascending := hasc }

/-- Evicting one step after another moves them from the retained to the evicted ones, in order. -/
lemma repeat_evictOldest (h : s.Layout evicted retained) {n : Nat} (hn : n ≤ retained.length) :
    (Nat.repeat Store.evictOldest n s).Layout (evicted ++ retained.take n) (retained.drop n) := by
  induction n with
  | zero => simpa [Nat.repeat] using h
  | succ n ih =>
    have hlt : n < retained.length := hn
    have hdrop : retained.drop n = retained[n] :: retained.drop (n + 1) :=
      List.drop_eq_getElem_cons hlt
    have htake : retained.take (n + 1) = retained.take n ++ [retained[n]] :=
      (List.take_concat_get' retained n hlt).symm
    have ih := ih hlt.le
    rw [hdrop] at ih
    rw [Nat.repeat, htake, ← List.append_assoc]
    exact ih.evictOldest

/-- The steps beyond the capacity are evicted, the oldest first. -/
lemma evictOverflow (h : s.Layout evicted retained) :
    s.evictOverflow.Layout (evicted ++ retained.take (retained.length - s.capacity))
      (retained.drop (retained.length - s.capacity)) := by
  have hsize : s.steps.size = retained.length := by
    rw [← Array.length_toList, h.steps]
  unfold Store.evictOverflow
  rw [hsize]
  exact h.repeat_evictOldest (Nat.sub_le ..)

/-- A step that takes the place of a retained one with its number. -/
lemma replaceAt (h : s.Layout evicted (before ++ y :: after)) (hid : y.id = x.id) :
    (s.replaceAt before.length x).Layout evicted (before ++ x :: after) := by
  have hline : s.steps[before.length]?.bind (·.line) = y.line := by
    rw [← Array.getElem?_toList, h.steps]
    simp
  have hids : (evicted ++ (before ++ y :: after)).map (·.id) =
      (evicted ++ (before ++ x :: after)).map (·.id) := by
    simp [hid]
  have hne : ∀ z ∈ before ++ after, z.id ≠ y.id := by
    obtain ⟨hbelow, habove⟩ := below_and_above (List.pairwise_append.1 h.ascending).2.1
    intro z hz
    rcases List.mem_append.1 hz with hz | hz
    · exact UInt64.ne_of_lt (hbelow z hz)
    · exact (UInt64.ne_of_lt (habove z hz)).symm
  exact {
    steps := by
      show (s.steps.setIfInBounds before.length x).toList = _
      rw [Array.toList_setIfInBounds, h.steps]
      simp
    horizon := h.horizon
    baseline := h.baseline
    lines := by
      unfold Store.replaceAt
      dsimp only
      rw [hline]
      split
      · next hsame => exact h.lines.congr fun p => by simp [hid, hsame]
      · -- the earlier step leaves its line before the new one enters its own
        have hmem (w z : Step) : z ∈ before ++ w :: after ↔ z = w ∨ z ∈ before ++ after := by
          simp only [List.mem_append, List.mem_cons]
          exact or_left_comm
        have hleft := h.lines.leave (hmem y) hne
        rw [hid] at hleft
        exact hleft.enter (hmem x)
    ascending := List.pairwise_map.1 (hids ▸ List.pairwise_map.2 h.ascending) }

/-- A step that stands between the retained ones and above the evicted ones. -/
lemma insertAt (h : s.Layout evicted (before ++ after))
    (hbelow : ∀ y ∈ evicted ++ before, y.id < x.id) (habove : ∀ y ∈ after, x.id < y.id) :
    (s.insertAt before.length x).Layout evicted (before ++ x :: after) where
  steps := by
    have hle : before.length ≤ s.steps.size := by
      rw [← Array.length_toList, h.steps, List.length_append]
      exact Nat.le_add_right ..
    show (s.steps.insertIdxIfInBounds before.length x).toList = _
    rw [Array.insertIdxIfInBounds, dif_pos hle, Array.toList_insertIdx, h.steps]
    exact insertIdx_length_append before after x
  horizon := h.horizon
  baseline := h.baseline
  lines := h.lines.enter fun z => by
    simp only [List.mem_append, List.mem_cons]
    exact or_left_comm
  ascending := by
    have hasc := h.ascending
    rw [← List.append_assoc, List.pairwise_append] at hasc ⊢
    obtain ⟨hfront, hback, hcross⟩ := hasc
    refine ⟨hfront, List.pairwise_cons.2 ⟨habove, hback⟩, fun y hy z hz => ?_⟩
    rcases List.mem_cons.1 hz with rfl | hz
    · exact hbelow y hy
    · exact hcross y hy z hz

end Layout

/-! ## The chronicle that a store holds -/

/-- A store holds a chronicle: it retains the recent steps, and the early ones were evicted. -/
structure Holds (s : Store) (c : Chronicle) : Prop where
  capacity_pos : 1 ≤ s.capacity
  layout : s.Layout (c.early s.capacity) (c.recent s.capacity)

lemma layout_nil (s : Store) : s.clear.Layout [] [] where
  steps := rfl
  horizon := rfl
  baseline := rfl
  lines := LineIndex.Lists.empty
  ascending := .nil

/-- A new store holds the empty chronicle. -/
lemma holds_new (capacity : Nat) (policy : CarryPolicy) :
    (new capacity policy).Holds Chronicle.empty where
  capacity_pos := Nat.le_max_right ..
  layout := by
    -- a new store has nothing to clear
    have hlayout : (new capacity policy).Layout [] [] := layout_nil (new capacity policy)
    simpa using hlayout

/-- A store that is laid out from the steps of a chronicle holds it once the steps beyond the
capacity are evicted, if enough steps are retained to begin with. -/
lemma Layout.holds {s : Store} {c : Chronicle} {evicted retained : List Step}
    (h : s.Layout evicted retained) (hpos : 1 ≤ s.capacity) (hc : c.steps = evicted ++ retained)
    (hlen : evicted = [] ∨ s.capacity ≤ retained.length) : s.evictOverflow.Holds c := by
  have hcap : s.evictOverflow.capacity = s.capacity := congrArg (·.1) s.stance_evictOverflow
  constructor
  · rw [hcap]
    exact hpos
  · rw [hcap, Chronicle.early_of_append hc hlen, Chronicle.recent_of_append hc hlen]
    exact h.evictOverflow

namespace Holds

variable {s t : Store} {c : Chronicle} {x : Step}

/-- Two stores that hold one chronicle differ at most in what is not history. -/
lemma eq_of_stance (h : s.Holds c) (h' : t.Holds c) (hstance : s.stance = t.stance) : s = t := by
  obtain ⟨steps, capacity, policy, baseline, horizon, lines, cursor, follow⟩ := s
  obtain ⟨steps', capacity', policy', baseline', horizon', lines', cursor', follow'⟩ := t
  obtain ⟨rfl, rfl, rfl, rfl⟩ : capacity = capacity' ∧ policy = policy' ∧ cursor = cursor' ∧
      follow = follow' := by simpa [stance] using hstance
  have hsteps : steps = steps' := Array.toList_inj.1 (h.layout.steps.trans h'.layout.steps.symm)
  have hbaseline : baseline = baseline' := h.layout.baseline.trans h'.layout.baseline.symm
  have hhorizon : horizon = horizon' := h.layout.horizon.trans h'.layout.horizon.symm
  have hlines : lines = lines' := h.layout.lines.unique h'.layout.lines
  rw [hsteps, hbaseline, hhorizon, hlines]

lemma clear (h : s.Holds c) : s.clear.Holds Chronicle.empty where
  capacity_pos := h.capacity_pos
  layout := by simpa using layout_nil s

/-- A step above the horizon is above all evicted steps. -/
lemma id_lt_of_not_isPast (h : s.Holds c) (hx : s.isPast x.id = false) :
    ∀ y ∈ c.early s.capacity, y.id < x.id := by
  intro y hy
  by_contra hle
  have hpast : s.isPast x.id = true := h.layout.isPast_iff.2 ⟨y, hy, Std.not_lt.1 hle⟩
  rw [hx] at hpast
  exact Bool.false_ne_true hpast

/-- Putting a step above the horizon into the store adds it to the retained steps, or corrects one
of them, and then evicts what is too much. -/
lemma upsert_layout (h : s.Holds c) (hx : s.isPast x.id = false) :
    ∃ (t : Store) (retained : List Step), (s.upsert x).1 = t.evictOverflow ∧
      t.stance = s.stance ∧ t.Layout (c.early s.capacity) retained ∧
      (c.note x).steps = c.early s.capacity ++ retained ∧
      (c.early s.capacity = [] ∨ s.capacity ≤ retained.length) := by
  have hevicted := h.id_lt_of_not_isPast hx
  have hsteps : c.steps = c.early s.capacity ++ s.steps.toList := by
    rw [h.layout.steps, c.early_append_recent]
  have hlayout := h.layout
  have hlen := c.early_eq_nil_or s.capacity
  rw [← h.layout.steps] at hlayout hlen
  have hstands := search_stands h.layout.ascending_retained x.id
  unfold Store.upsert
  rw [if_neg (by rw [hx]; exact Bool.false_ne_true)]
  generalize s.search x.id = position at hstands
  cases hstands with
  | found before y after hsplit hsame hbelow habove =>
    rw [hsplit] at hlayout hlen hsteps
    refine ⟨_, before ++ x :: after, rfl, rfl, hlayout.replaceAt hsame, ?_, ?_⟩
    · have hparts : c.steps = (c.early s.capacity ++ before) ++ [y] ++ after := by
        simpa using hsteps
      rw [Chronicle.steps_note_of_append hparts (by grind) (by simpa using hsame) habove,
        List.append_assoc]
    · exact hlen.imp_right fun hlen => by simpa using hlen.ge
  | gap before after hsplit hbelow habove =>
    rw [hsplit] at hlayout hlen hsteps
    -- what was evicted is below the step too, which is above the horizon
    have hfront : ∀ y ∈ c.early s.capacity ++ before, y.id < x.id := by grind
    refine ⟨_, before ++ x :: after, rfl, rfl, hlayout.insertAt hfront habove, ?_, ?_⟩
    · have hparts : c.steps = (c.early s.capacity ++ before) ++ [] ++ after := by
        simpa using hsteps
      rw [Chronicle.steps_note_of_append hparts hfront (by simp) habove, List.append_assoc]
    · refine hlen.imp_right fun hlen => ?_
      rw [← hlen]
      simp

/-- Putting a step above the horizon into the store is noting it in the chronicle. -/
theorem upsert (h : s.Holds c) (hx : s.isPast x.id = false) : (s.upsert x).1.Holds (c.note x) := by
  obtain ⟨t, retained, hupsert, hstance, hlayout, hnote, hlen⟩ := h.upsert_layout hx
  have hcap : t.capacity = s.capacity := congrArg (·.1) hstance
  rw [hupsert]
  exact hlayout.holds (hcap ▸ h.capacity_pos) hnote (hcap ▸ hlen)

end Holds

end Store

end TraceTimeline
