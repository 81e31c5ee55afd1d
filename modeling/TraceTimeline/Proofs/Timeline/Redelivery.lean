import Mathlib
import TraceTimeline.Proofs.Timeline.Retained

/-!
# Steps that are delivered again

A step that was delivered is settled (`Store.Settled`): either it is retained, or the horizon has
passed it.  In both cases delivering it again changes nothing, and a settled step stays settled
whatever else arrives, as long as nothing else arrives under its number.  So it does not matter how
often a step is delivered, nor what has become of it in the meantime
(`Store.upsert_delivered_again`): what was folded into the baseline is not folded into it twice.
-/

namespace TraceTimeline

namespace Store

variable {s : Store} {x y : Step}

/-- A step is settled in a store if it is retained or past. -/
def Settled (s : Store) (x : Step) : Prop := x ∈ s.steps ∨ s.isPast x.id = true

/-- Putting a settled step into the store changes nothing. -/
lemma Sound.upsert_of_settled (h : s.Sound) (hx : s.Settled x) : (s.upsert x).1 = s := by
  rcases hx with hmem | hpast
  · obtain ⟨c, hc⟩ := h.holds
    have hafter := hc.upsert (h.isPast_eq_false hmem)
    rw [Chronicle.note_of_mem (hc.mem_of_mem_steps hmem)] at hafter
    exact hafter.eq_of_stance hc (s.stance_upsert x)
  · rw [upsert_of_isPast hpast]

/-- A step that was put into the store is settled, even if it is evicted at once. -/
lemma Sound.settled_upsert_self (h : s.Sound) (x : Step) : (s.upsert x).1.Settled x := by
  cases hpast : s.isPast x.id with
  | true =>
    rw [upsert_of_isPast hpast]
    exact .inr hpast
  | false =>
    obtain ⟨c, hc⟩ := h.holds
    exact (hc.upsert hpast).mem_or_isPast (c.mem_note_self x)

/-- A settled step stays settled when a step is put into the store, unless that is another one of
its number. -/
lemma Settled.upsert (hy : s.Settled y) (h : s.Sound) (hsame : y.id = x.id → y = x) :
    (s.upsert x).1.Settled y := by
  rcases hy with hmem | hpast
  · cases hx : s.isPast x.id with
    | true =>
      rw [upsert_of_isPast hx]
      exact .inl hmem
    | false =>
      obtain ⟨c, hc⟩ := h.holds
      refine (hc.upsert hx).mem_or_isPast (Chronicle.mem_note.2 ?_)
      by_cases hid : y.id = x.id
      · exact .inl (hsame hid)
      · exact .inr ⟨hc.mem_of_mem_steps hmem, hid⟩
  · exact .inr ((HorizonLE.upsert h x).isPast hpast)

/-- It stays settled when steps are put into the store one after another. -/
lemma Settled.upsertAll {l : List Step} (hy : s.Settled y) (h : s.Sound)
    (hsame : ∀ x ∈ l, y.id = x.id → y = x) : (s.upsertAll l).Settled y := by
  induction l generalizing s with
  | nil => exact hy
  | cons x rest ih =>
    have hfirst : (s.upsert x).1.Settled y := hy.upsert h (hsame x (List.mem_cons_self ..))
    exact ih hfirst (h.upsert x) fun z hz => hsame z (List.mem_cons_of_mem _ hz)

/-- Steps that are delivered one after another are all settled in the end, if there is only one for
every number. -/
lemma Sound.settled_upsertAll {l : List Step} (h : s.Sound)
    (hsame : ∀ x ∈ l, ∀ y ∈ l, x.id = y.id → x = y) (hx : x ∈ l) :
    (s.upsertAll l).Settled x := by
  obtain ⟨before, after, rfl⟩ := List.append_of_mem hx
  have hbefore := h.upsertAll before
  have hsplit : s.upsertAll (before ++ x :: after) =
      ((s.upsertAll before).upsert x).1.upsertAll after := List.foldl_append
  rw [hsplit]
  exact (hbefore.settled_upsert_self x).upsertAll (hbefore.upsert x) fun y hy hid =>
    hsame x hx y (by simp [hy]) hid

/-- Delivering steps again is harmless.  In a store that came about through any updates, putting a
step into it twice gives the store that putting it once gives, whether the step is retained, is
evicted at once, or comes too late.  And when steps were put into the store one after another, equal
numbers meaning equal steps, any of them can be put into it once more without any change, then and
at any later time. -/
theorem upsert_delivered_again (capacity : Nat) (policy : CarryPolicy) (ops : List Operation) :
    let s := (new capacity policy).run ops
    (∀ x, ((s.upsert x).1.upsert x).1 = (s.upsert x).1) ∧
      ∀ delivered : List Step,
        (∀ x ∈ delivered, ∀ y ∈ delivered, x.id = y.id → x = y) → ∀ x ∈ delivered,
          ((s.upsertAll delivered).upsert x).1 = s.upsertAll delivered ∧
            ∀ later, s.upsertAll (delivered ++ x :: later) = s.upsertAll (delivered ++ later) := by
  intro s
  have h : s.Sound := (Sound.new capacity policy).run ops
  refine ⟨fun x => ?_, fun delivered hsame x hx => ?_⟩
  · exact (h.upsert x).upsert_of_settled (h.settled_upsert_self x)
  · have hsteady : ((s.upsertAll delivered).upsert x).1 = s.upsertAll delivered :=
      (h.upsertAll delivered).upsert_of_settled (h.settled_upsertAll hsame hx)
    refine ⟨hsteady, fun later => ?_⟩
    calc s.upsertAll (delivered ++ x :: later)
        = ((s.upsertAll delivered).upsert x).1.upsertAll later := List.foldl_append
      _ = (s.upsertAll delivered).upsertAll later := by rw [hsteady]
      _ = s.upsertAll (delivered ++ later) := List.foldl_append.symm

/-- A store for two steps that evicted the last of three deliveries at once: that step is in the
baseline, and delivering it again leaves it there once. -/
theorem upsert_delivered_again_evicted :
    let s := new 2 .sticky
    let delivered := [Step.ofLine 2 4, Step.ofLine 3 5, Step.ofLine 1 4]
    (∀ x ∈ delivered, ∀ y ∈ delivered, x.id = y.id → x = y) ∧
      (s.upsertAll delivered).horizon = some 1 ∧
      ((s.upsertAll delivered).upsert (Step.ofLine 1 4)).1 = s.upsertAll delivered := by
  intro s delivered
  have hsame : ∀ x ∈ delivered, ∀ y ∈ delivered, x.id = y.id → x = y := by decide +kernel
  have hmem : Step.ofLine 1 4 ∈ delivered := by decide +kernel
  have hagain := (upsert_delivered_again 2 .sticky []).2 delivered hsame _ hmem
  exact ⟨hsame, by decide +kernel, hagain.1⟩

end Store

end TraceTimeline
