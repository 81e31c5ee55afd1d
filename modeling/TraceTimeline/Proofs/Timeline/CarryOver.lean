import Mathlib
import TraceTimeline.Proofs.Timeline.View

/-!
# How long a report stays in force

The return value, the error and the traceback of a scope were reported by some step, possibly long
ago.  Which report is in force can be read off the history directly, without folding it
(`Scope.inForce`): the last value of all, or the last report whether it is a value or an explicit
`null`, or the last value since the program came into the stack frame that it is in.

The fold knows the frame of one step only, the one before.  `Scope.lastStay` turns this into a run
of final steps: it is continued by a step in the same frame and begins anew with every other step
(`Scope.lastStay_concat`), also with one that returns to an earlier frame.  The three parts of the
scope are alike (`Scope.Slot`), so that one induction on the history, from its end, serves all of
them (`Scope.Slot.get_applyAll`).
-/

namespace TraceTimeline

namespace Scope

/-! ## What a history reported -/

section

variable {α : Type} (report : Step → Reported α)

/-- The last value that was reported. -/
def lastValue (steps : List Step) : Option α := steps.reverse.findSome? fun x => (report x).value?

/-- The value of the last report, which there is not if the report is an explicit `null`. -/
def lastReport (steps : List Step) : Option α :=
  (steps.reverse.find? fun x => !(report x).isAbsent).bind fun x => (report x).value?

lemma value?_of_isAbsent {reported : Reported α} (h : reported.isAbsent = true) :
    reported.value? = none := by
  cases reported with
  | absent => rfl
  | null => cases h
  | value a => cases h

lemma lastValue_concat (steps : List Step) (x : Step) :
    lastValue report (steps ++ [x]) = (report x).value?.or (lastValue report steps) := by
  rw [lastValue, List.reverse_concat, List.findSome?_cons]
  cases (report x).value? <;> rfl

lemma lastReport_concat (steps : List Step) (x : Step) :
    lastReport report (steps ++ [x]) =
      if (report x).isAbsent then lastReport report steps else (report x).value? := by
  rw [lastReport, List.reverse_concat, List.find?_cons]
  cases (report x).isAbsent <;> rfl

end

/-! ## The last stay in a stack frame -/

/-- The longest run of final steps that are all in the frame of the last one.  To be in no frame
counts as being in a frame of its own. -/
def lastStay (steps : List Step) : List Step :=
  match steps.getLast? with
  | none => []
  | some last => steps.rtakeWhile fun x => x.frame = last.frame

/-- The stay goes on with a step in the same frame, and begins anew with any other. -/
lemma lastStay_concat (steps : List Step) (x : Step) :
    lastStay (steps ++ [x]) =
      (if steps.getLast?.bind (·.frame) = x.frame then lastStay steps else []) ++ [x] := by
  have hstay : lastStay (steps ++ [x]) = steps.rtakeWhile (fun y => y.frame = x.frame) ++ [x] := by
    simp [lastStay, List.rtakeWhile_concat_pos]
  rw [hstay]
  congr 1
  cases steps using List.reverseRecOn with
  | nil => exact (ite_self []).symm
  | append_singleton front y =>
    by_cases hframe : y.frame = x.frame
    · simp [lastStay, hframe]
    · simp [List.rtakeWhile_concat_neg, hframe]

/-- What ends a list and has a property throughout ends the longest such run. -/
lemma suffix_rtakeWhile_iff {p : Step → Bool} {run steps : List Step} :
    run <:+ steps.rtakeWhile p ↔ run <:+ steps ∧ ∀ x ∈ run, p x = true := by
  constructor
  · intro hrun
    exact ⟨hrun.trans (List.rtakeWhile_suffix p steps),
      fun x hx => List.mem_rtakeWhile_imp (hrun.subset hx)⟩
  · rintro ⟨⟨front, rfl⟩, hall⟩
    refine ⟨front.rtakeWhile p, ?_⟩
    have hreverse : ∀ x ∈ run.reverse, p x = true := fun x hx => hall x (List.mem_reverse.1 hx)
    rw [List.rtakeWhile, List.rtakeWhile, List.reverse_append,
      List.takeWhile_append_of_pos hreverse, List.reverse_append, List.reverse_reverse]

/-- No longer run of final steps is in the frame of the last one. -/
lemma suffix_lastStay_iff {run steps : List Step} :
    run <:+ lastStay steps ↔
      run <:+ steps ∧ ∀ x ∈ run, ∀ last, steps.getLast? = some last → x.frame = last.frame := by
  unfold lastStay
  cases hlast : steps.getLast? with
  | none => simp [List.getLast?_eq_none_iff.1 hlast]
  | some last => simp [suffix_rtakeWhile_iff]

/-! ## What is in force -/

/-- What is in force after a history, told by the policy: the last value that was reported, the
value of the last report, or the last value that was reported in the last stay in a frame. -/
def inForce {α : Type} (policy : CarryPolicy) (report : Step → Reported α) (steps : List Step) :
    Option α :=
  match policy with
  | .sticky => lastValue report steps
  | .explicitNullClears => lastReport report steps
  | .frameScoped => lastValue report (lastStay steps)

/-- A part of the scope that is reported by steps and carries over to later ones. -/
structure Slot (α : Type) where
  get : Scope → Option α
  report : Step → Reported α
  get_initial : get initial = none
  get_apply : ∀ policy (scope : Scope) (step : Step),
    get (scope.apply policy step) = carry policy (scope.keep policy step (get scope)) (report step)

namespace Slot

def returned : Slot Json := ⟨Scope.returned, Step.returned, rfl, fun _ _ _ => rfl⟩

def error : Slot Json := ⟨Scope.error, Step.error, rfl, fun _ _ _ => rfl⟩

def traceback : Slot String := ⟨Scope.traceback, Step.traceback, rfl, fun _ _ _ => rfl⟩

end Slot

/-- A value is what is in force from now on; anything else leaves it or ends it. -/
lemma carry_eq {α : Type} (policy : CarryPolicy) (current : Option α) (reported : Reported α) :
    carry policy current reported =
      if policy = .explicitNullClears ∧ ¬ reported.isAbsent then reported.value?
      else reported.value?.or current := by
  cases reported with
  | value a => simp [carry, Reported.value?]
  | null => simp [carry, Reported.value?, Reported.isAbsent]
  | absent => simp [carry, Reported.value?, Reported.isAbsent]

/-- The frame of a scope is that of the last step. -/
lemma frame_applyAll (policy : CarryPolicy) (steps : List Step) :
    (initial.applyAll policy steps).frame = steps.getLast?.bind (·.frame) := by
  cases steps using List.reverseRecOn with
  | nil => rfl
  | append_singleton front x =>
    rw [applyAll_concat, List.getLast?_concat]
    rfl

/-- What a slot holds after a history is what is in force by then. -/
theorem Slot.get_applyAll {α : Type} (slot : Slot α) (policy : CarryPolicy) (steps : List Step) :
    slot.get (initial.applyAll policy steps) = inForce policy slot.report steps := by
  induction steps using List.reverseRecOn with
  | nil =>
    rw [show initial.applyAll policy [] = initial from rfl, slot.get_initial]
    cases policy <;> rfl
  | append_singleton steps x ih =>
    rw [applyAll_concat, slot.get_apply, ih, carry_eq]
    cases policy with
    | sticky =>
      rw [inForce, inForce, lastValue_concat]
      simp [keep, leaves]
    | explicitNullClears =>
      rw [inForce, inForce, lastReport_concat]
      cases habsent : (slot.report x).isAbsent with
      | true => simp [keep, leaves, value?_of_isAbsent habsent]
      | false => simp
    | frameScoped =>
      -- what was in force ends where the last stay does
      rw [inForce, inForce, lastStay_concat, lastValue_concat]
      have hframe := frame_applyAll .frameScoped steps
      by_cases hstays : steps.getLast?.bind (·.frame) = x.frame
      · simp [keep, leaves, hframe, hstays]
      · simp [keep, leaves, hframe, hstays, lastValue]

/-- At any position of any history there is a scope, and its return value, its error and its
traceback are what the steps up to the position put in force.  The last stay, which counts where
reports end with a change of the frame, is the longest run of final steps that are all in the frame
of the last one: what ends the history and is in that frame throughout ends the last stay. -/
theorem derive_inForce (policy : CarryPolicy) (steps : List Step) (position : Nat) :
    let applied := steps.take (position + 1)
    (∀ run, run <:+ lastStay applied ↔ run <:+ applied ∧
      ∀ x ∈ run, ∀ last, applied.getLast? = some last → x.frame = last.frame) ∧
    ∃ scope, derive policy steps (some position) = some scope ∧
      scope.returned = inForce policy (·.returned) applied ∧
      scope.error = inForce policy (·.error) applied ∧
      scope.traceback = inForce policy (·.traceback) applied := by
  intro applied
  exact ⟨fun run => suffix_lastStay_iff, _, rfl, Slot.returned.get_applyAll policy applied,
    Slot.error.get_applyAll policy applied, Slot.traceback.get_applyAll policy applied⟩

-- a return value does not come back with the frame in which it was reported
example :
    let history := [((Step.ofKind 1 .ret).inFrame "a").withReturn (some (.bool true)),
      (Step.ofLine 2 5).inFrame "b", (Step.ofLine 3 4).inFrame "a"]
    inForce .sticky (·.returned) history = some (.bool true) ∧
      inForce .frameScoped (·.returned) history = none := by
  decide +kernel

end Scope

end TraceTimeline
