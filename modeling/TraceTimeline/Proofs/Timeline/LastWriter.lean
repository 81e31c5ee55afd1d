import Mathlib
import TraceTimeline.Proofs.Timeline.View

/-!
# Variables and their last writers

A diff changes the variables that it mentions and no others, so that after a list of diffs the value
of a variable is what the last diff that mentions it made of it (`Diff.decided`).  A change to
`null` sets the variable; a removal is a change too, which only a later one undoes.

The global and the local variables of a scope are changed by diffs of their own, one by one with the
steps (`Scope.variables_applyAll`).  `Scope.deriveFrom_decided` puts this together for the scope at
a position.
-/

namespace TraceTimeline

/-! ## One change and one diff -/

namespace Change

/-- The value that a variable has after a change, if there is still one. -/
def value? : Change → Option Json
  | .set v => some v
  | .delete => none

lemma get?_applyTo (change : Change) (written name : String) (vars : Variables) :
    (change.applyTo written vars).get? name =
      if name = written then change.value? else vars.get? name := by
  cases change with
  | set v => exact OrderedMap.get?_insert vars written name v
  | delete => exact OrderedMap.get?_erase vars written name

end Change

namespace Diff

/-- Changes to different variables, made one after another. -/
lemma get?_foldl_applyTo {changes : List (String × Change)}
    (hasc : changes.Pairwise (fun a b => a.1 < b.1)) (vars : Variables) (name : String) :
    (changes.foldl (fun vars e => e.2.applyTo e.1 vars) vars).get? name =
      (OrderedMap.lookup name changes).elim (vars.get? name) Change.value? := by
  induction changes generalizing vars with
  | nil => rfl
  | cons e rest ih =>
    obtain ⟨written, change⟩ := e
    obtain ⟨hfirst, hrest⟩ := List.pairwise_cons.1 hasc
    rw [List.foldl_cons, ih hrest, Change.get?_applyTo, OrderedMap.lookup]
    by_cases hname : name = written
    · -- no later change of the diff is to this variable
      subst hname
      rw [OrderedMap.lookup_eq_none_of_lt hfirst, if_pos rfl, if_pos rfl]
      rfl
    · rw [if_neg hname, if_neg hname]

lemma get?_applyTo (d : Diff) (vars : Variables) (name : String) :
    (d.applyTo vars).get? name = (d.get? name).elim (vars.get? name) Change.value? :=
  get?_foldl_applyTo d.ascending vars name

/-! ## Diffs one after another -/

/-- Variables after a list of diffs. -/
def applyAll (diffs : List Diff) (vars : Variables) : Variables :=
  diffs.foldl (fun vars d => d.applyTo vars) vars

/-- The last change to a variable, by the last diff that mentions it. -/
def lastChange (diffs : List Diff) (name : String) : Option Change :=
  diffs.reverse.findSome? (·.get? name)

/-- The value of a variable as its last writer decides it: what it was set to, nothing if it was
removed, and the value from before if no diff mentions it. -/
def decided (diffs : List Diff) (before : Variables) (name : String) : Option Json :=
  match lastChange diffs name with
  | some (.set v) => some v
  | some .delete => .none
  | .none => before.get? name

lemma lastChange_concat (diffs : List Diff) (d : Diff) (name : String) :
    lastChange (diffs ++ [d]) name = (d.get? name).or (lastChange diffs name) := by
  rw [lastChange, List.reverse_concat, List.findSome?_cons]
  cases d.get? name <;> rfl

lemma decided_eq (diffs : List Diff) (before : Variables) (name : String) :
    decided diffs before name = (lastChange diffs name).elim (before.get? name) Change.value? := by
  unfold decided
  cases lastChange diffs name with
  | none => rfl
  | some change => cases change <;> rfl

/-- After a list of diffs every variable has the value that its last writer decides. -/
theorem get?_applyAll (diffs : List Diff) (vars : Variables) (name : String) :
    (applyAll diffs vars).get? name = decided diffs vars name := by
  rw [decided_eq]
  induction diffs using List.reverseRecOn with
  | nil => rfl
  | append_singleton diffs d ih =>
    rw [applyAll, List.foldl_concat, get?_applyTo, lastChange_concat]
    cases d.get? name with
    | none => exact ih
    | some change => rfl

end Diff

/-! ## The variables of a scope -/

namespace Scope

lemma variables_applyAll (policy : CarryPolicy) (scope : Scope) (steps : List Step) :
    (scope.applyAll policy steps).globals = Diff.applyAll (steps.map (·.globals)) scope.globals ∧
      (scope.applyAll policy steps).locals = Diff.applyAll (steps.map (·.locals)) scope.locals := by
  induction steps generalizing scope with
  | nil => exact ⟨rfl, rfl⟩
  | cons x rest ih => exact ih (scope.apply policy x)

/-- After a history every variable of a scope has the value that the last step which mentions it
decides, global variables by the diffs for these and local ones by those for them.  There is a value
where that is decided, and nowhere else.  Two histories that agree in one of the two kinds of diffs
lead from baselines that agree in it to the same variables of that kind, however much they differ in
all else.  Where the program is, the last step alone says. -/
theorem deriveFrom_decided (policy : CarryPolicy) (baseline : Option Scope) (steps : List Step)
    (position : Nat) :
    let applied := steps.take (position + 1)
    let start := baseline.getD initial
    ∃ scope, deriveFrom policy baseline steps (some position) = some scope ∧
      (∀ name,
        scope.globals.get? name = Diff.decided (applied.map (·.globals)) start.globals name ∧
        (name ∈ scope.globals.keys ↔
          (Diff.decided (applied.map (·.globals)) start.globals name).isSome)) ∧
      (∀ name,
        scope.locals.get? name = Diff.decided (applied.map (·.locals)) start.locals name ∧
        (name ∈ scope.locals.keys ↔
          (Diff.decided (applied.map (·.locals)) start.locals name).isSome)) ∧
      (∀ policy' baseline' steps',
        ∃ scope', deriveFrom policy' baseline' steps' (some position) = some scope' ∧
          (steps'.map (·.globals) = steps.map (·.globals) →
            (baseline'.getD initial).globals = start.globals → scope'.globals = scope.globals) ∧
          (steps'.map (·.locals) = steps.map (·.locals) →
            (baseline'.getD initial).locals = start.locals → scope'.locals = scope.locals)) ∧
      ∀ last, applied.getLast? = some last →
        scope.event = some last.kind ∧ scope.file = last.file ∧ scope.function = last.function ∧
          scope.frame = last.frame ∧ scope.line = last.line := by
  intro applied start
  have hvariables := variables_applyAll policy start applied
  refine ⟨start.applyAll policy applied, rfl, fun name => ?_, fun name => ?_,
    fun policy' baseline' steps' => ?_, fun last hlast => ?_⟩
  · rw [OrderedMap.mem_keys, hvariables.1, Diff.get?_applyAll]
    exact ⟨rfl, Iff.rfl⟩
  · rw [OrderedMap.mem_keys, hvariables.2, Diff.get?_applyAll]
    exact ⟨rfl, Iff.rfl⟩
  · have hvariables' := variables_applyAll policy' (baseline'.getD initial)
      (steps'.take (position + 1))
    refine ⟨_, rfl, fun hdiffs hstart => ?_, fun hdiffs hstart => ?_⟩
    · rw [hvariables.1, hvariables'.1, hstart, List.map_take, List.map_take, hdiffs]
    · rw [hvariables.2, hvariables'.2, hstart, List.map_take, List.map_take, hdiffs]
  · obtain ⟨front, hsplit⟩ := List.getLast?_eq_some_iff.1 hlast
    rw [hsplit, applyAll_concat]
    exact ⟨rfl, rfl, rfl, rfl, rfl⟩

/-- A variable is set to `null` and removed again while another one is set to `null`.  With changes
of the local variables of the same names, and under another policy, the global ones are the same. -/
theorem deriveFrom_decided_removed :
    let first := (Step.ofLine 1 4).withGlobals (Diff.none.set "x" .null)
    let second := (Step.ofLine 2 5).withGlobals ((Diff.none.delete "x").set "y" .null)
    let busy := [first.withLocals (Diff.none.set "y" (.bool true)),
      second.withLocals (Diff.none.delete "y")]
    ∃ scope scope', deriveFrom .sticky none [first, second] (some 1) = some scope ∧
      scope.globals.get? "x" = none ∧ scope.globals.get? "y" = some .null ∧ scope.line = some 5 ∧
      deriveFrom .frameScoped none busy (some 1) = some scope' ∧
      scope'.globals = scope.globals := by
  intro first second busy
  obtain ⟨scope, hscope, hglobals, -, hothers, hplace⟩ :=
    deriveFrom_decided .sticky none [first, second] 1
  obtain ⟨scope', hscope', hsame, -⟩ := hothers .frameScoped none busy
  have hx : Diff.decided [first.globals, second.globals] OrderedMap.empty "x" = none := by
    decide +kernel
  have hy : Diff.decided [first.globals, second.globals] OrderedMap.empty "y" = some .null := by
    decide +kernel
  exact ⟨scope, scope', hscope, (hglobals "x").1.trans hx, (hglobals "y").1.trans hy,
    (hplace second rfl).2.2.2.2, hscope', hsame rfl rfl⟩

end Scope

end TraceTimeline
