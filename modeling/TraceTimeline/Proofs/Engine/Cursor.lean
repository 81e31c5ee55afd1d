import Mathlib
import TraceTimeline.Proofs.Engine.Highlight
import TraceTimeline.Proofs.Timeline.Newest

/-!
# The cursor along a run

The cursor is moved by steps that arrive, by payloads, and at the operator's request.  If every
payload selects the newest of its steps (`Engine.SelectsNewest`), then no operation sets it down in
a place where it does not belong (`Engine.moored_perform`).  So it is known for every such run where
the cursor is, and when there is no scope at it: `Engine.cursor_moored`.
-/

namespace TraceTimeline

namespace Engine

variable {e : Engine} {op : Operation} {x : Step}

/-- A payload that an operation brings selects the newest of its steps. -/
def SelectsNewest (e : Engine) (op : Operation) : Prop :=
  ∀ p ∈ op.payload? e.generation, IsNewest p.timeline p.cursor

instance (op : Operation) : Decidable (e.SelectsNewest op) :=
  inferInstanceAs (Decidable (∀ p ∈ op.payload? e.generation, IsNewest p.timeline p.cursor))

lemma visible_moored : Visible (·.store.Moored) := by
  intro e e' h hshown
  obtain ⟨hstore, -, -⟩ := shown_eq_iff.1 hshown
  rwa [← hstore]

/-- The cursor stays where it belongs when a step arrives. -/
lemma moored_applyStep (h : e.store.Sound) (hmoored : e.store.Moored) (x : Step) :
    (e.applyStep x).store.Moored := by
  cases hx : e.store.isPast x.id with
  | true => rwa [applyStep_of_isPast hx]
  | false =>
    rw [store_applyStep hx]
    exact hmoored.advanceLive_upsert h hx

/-- The cursor stays where it belongs in every operation, unless it is a payload that selects
something else than the newest of its steps. -/
lemma moored_perform (h : e.store.Sound) (hmoored : e.store.Moored) (hop : e.SelectsNewest op) :
    (e.perform op).1.store.Moored := by
  refine perform_cases visible_moored hmoored ?event ?sync ?selectStep ?followLive ?editNode
    ?backendRestarted
  case event =>
    rintro x -
    exact moored_applyStep h hmoored x
  case sync =>
    intro p hframe
    exact .replaceAll h (hop p (Operation.payload?_of_frame? hframe))
  case selectStep =>
    rintro id -
    rcases selectStep_cases e id with hsame | hselected
    · rwa [hsame]
    · rw [hselected]
      exact hmoored.pin id
  case followLive =>
    rintro -
    exact hmoored.followLive h
  case editNode =>
    rintro line code -
    exact hmoored
  case backendRestarted =>
    rintro -
    exact .clear e.store

/-- A pinned cursor stays when a step arrives. -/
lemma cursor_perform_of_pinned (hpinned : e.store.follow = .pinned)
    (hop : op.step? e.generation = some x) :
    (e.perform op).1.cursor = e.cursor ∧ (e.perform op).1.store.follow = .pinned := by
  obtain ⟨gate, heq⟩ := perform_of_frame? (Operation.frame?_of_step? hop)
  rw [heq]
  show (e.applyStep x).cursor = e.cursor ∧ (e.applyStep x).store.follow = .pinned
  cases hx : e.store.isPast x.id with
  | true =>
    rw [applyStep_of_isPast hx]
    exact ⟨rfl, hpinned⟩
  | false =>
    have hstays : ¬ e.moves x := by simp [moves, hpinned]
    rw [cursor_applyStep hx, store_applyStep hx, advanceLive_upsert, if_neg hstays, if_neg hstays]
    exact ⟨rfl, (e.store.follow_upsert x).trans hpinned⟩

/-- Where the cursor is.  Along every run in which each payload selects the newest of its steps, the
cursor of a store that follows live is at the newest retained step.  A pinned cursor is not above
that step; it is at a retained number or not above the horizon, and no arriving step moves it.
There is no scope at the cursor if the store holds no steps or the cursor is below the horizon, and
in no other case. -/
theorem cursor_moored {settings : EngineSettings} {ops : List Operation}
    (hops : Along SelectsNewest (new settings) ops) :
    let e := ((new settings).run ops).1
    (e.store.follow = .live → IsNewest e.store.steps.toList e.cursor) ∧
      (e.store.follow = .pinned → ∃ id newest, e.cursor = some id ∧
        IsNewest e.store.steps.toList (some newest) ∧ id ≤ newest ∧
        ((∃ y ∈ e.store.steps, y.id = id) ∨ ∃ bound, e.store.horizon = some bound ∧ id ≤ bound) ∧
        ∀ op x, op.step? e.generation = some x →
          (e.perform op).1.cursor = some id ∧ (e.perform op).1.store.follow = .pinned) ∧
      (e.scope = none ↔
        e.store.size = 0 ∨ ∃ id bound, e.cursor = some id ∧ e.store.horizon = some bound ∧
          id < bound) := by
  intro e
  -- the invariant of the run: soundness alone does not say where the cursor may stand
  have hkept := hops.invariant (I := fun e => e.store.Sound ∧ e.store.Moored)
    fun e op ⟨h, hmoored⟩ hop => ⟨sound_perform h op, moored_perform h hmoored hop⟩
  obtain ⟨h, hmoored⟩ : e.store.Sound ∧ e.store.Moored := hkept ⟨.new .., .new ..⟩
  refine ⟨?live, ?pinned, hmoored.currentScope_eq_none_iff h⟩
  case live =>
    intro hlive
    have hcursor : e.cursor = e.store.lastId := hmoored.live hlive
    rw [hcursor]
    exact h.isNewest_lastId
  case pinned =>
    intro hpinned
    obtain ⟨id, hcursor, hknown⟩ := hmoored.pinned hpinned
    obtain ⟨newest, hlast, hle⟩ := h.exists_lastId_ge hknown
    have hnewest := h.isNewest_lastId
    rw [hlast] at hnewest
    refine ⟨id, newest, hcursor, hnewest, hle, ?_, ?_⟩
    · apply hknown.imp h.contains_iff.1
      intro hpast
      simpa [Store.isPast, Option.any_eq_true] using hpast
    · intro op x hop
      obtain ⟨hstays, hfollow⟩ := cursor_perform_of_pinned hpinned hop
      exact ⟨hstays.trans hcursor, hfollow⟩

/-- A step is pinned and evicted later, so that there is no scope at the cursor until it follows
live again. -/
theorem cursor_moored_evicted :
    let ops := [.transport (.connected 1),
      .syncResponse 1 ⟨[], [Step.ofLine 1 7], some 1, none⟩, .frame (.event (Step.ofLine 4 8)),
      .selectStep 1, .frame (.event (Step.ofLine 3 9)), .frame (.event (Step.ofLine 5 7))]
    let e := ((new ⟨2, .sticky, 8, 1000⟩).run ops).1
    let following := ((new ⟨2, .sticky, 8, 1000⟩).run (ops ++ [.followLive])).1
    (e.cursor = some 1 ∧ e.store.horizon = some 3 ∧ e.scope = none ∧
        ∀ op x, op.step? e.generation = some x → (e.perform op).1.cursor = some 1) ∧
      following.cursor = some 5 ∧ following.scope ≠ none := by
  intro ops e following
  have hops : Along SelectsNewest (new ⟨2, .sticky, 8, 1000⟩) ops := by decide +kernel
  have hfollowing : Along SelectsNewest (new ⟨2, .sticky, 8, 1000⟩) (ops ++ [.followLive]) := by
    decide +kernel
  have hcursor : e.cursor = some 1 := by decide +kernel
  have hhorizon : e.store.horizon = some 3 := by decide +kernel
  have hnewest : following.cursor = some 5 := by decide +kernel
  obtain ⟨-, hpinned, hscope⟩ := cursor_moored hops
  obtain ⟨-, -, hscope'⟩ := cursor_moored hfollowing
  obtain ⟨id, newest, hat, -, -, -, hstays⟩ := hpinned (by decide +kernel)
  obtain rfl : id = 1 := Option.some.inj (hat.symm.trans hcursor)
  refine ⟨⟨hcursor, hhorizon, hscope.2 (.inr ⟨1, 3, hcursor, hhorizon, by decide⟩), ?_⟩,
    hnewest, ?_⟩
  · intro op x hop
    exact (hstays op x hop).1
  · intro hnone
    rcases hscope'.1 hnone with hempty | ⟨id, bound, hat, hbound, hlt⟩
    · exact absurd hempty (by decide +kernel)
    · obtain rfl : id = 5 := Option.some.inj (hat.symm.trans hnewest)
      have hbound' : following.store.horizon = some 3 := by decide +kernel
      obtain rfl : bound = 3 := Option.some.inj (hbound.symm.trans hbound')
      exact absurd hlt (by decide)

end Engine

end TraceTimeline
