import Mathlib
import TraceTimeline.Proofs.Engine.Visible
import TraceTimeline.Proofs.Timeline.Retained

/-!
# The highlight and the cursor

The highlighted line ought to be the line of the step under the cursor, if that step is retained
(`Engine.Aligned`).  Selecting a step, following live and applying a payload that selects no node
look the line up.  An arriving step sets the highlight only when the cursor moves to it: if the
cursor is already at its number, the highlight stays as it was.

So whether the two stay together is decided by the steps that are retained under the cursor's own
number (`Engine.aligned_applyStep_iff`).  As long as each of them is at the highlighted line, the
highlight follows the cursor along every run (`Engine.aligned_run`).  A step that comes again at
another line leaves the highlight behind, and so does one that a payload had selected before it came
(`Engine.highlight_left_behind`).
-/

namespace TraceTimeline

namespace Engine

variable {e : Engine} {x : Step}

/-- If the cursor names a retained step, the line of that step is highlighted, or none if the step
has none. -/
def Aligned (e : Engine) : Prop :=
  ∀ y ∈ e.store.steps, e.cursor = some y.id → e.highlighted = y.line

instance : Decidable e.Aligned :=
  inferInstanceAs (Decidable (∀ y ∈ e.store.steps, e.cursor = some y.id → e.highlighted = y.line))

/-- Being aligned is a property of what is shown. -/
lemma visible_aligned : Visible Aligned := by
  intro e e' h hshown
  obtain ⟨hstore, -, hhighlighted⟩ := shown_eq_iff.1 hshown
  intro y hy hcursor
  rw [← hhighlighted]
  rw [← hstore] at hy
  exact h y hy (by rwa [cursor, hstore])

/-! ## Looking the line up -/

lemma aligned_of_lineOf (h : e.store.Sound)
    (hlooked : e.highlighted = e.cursor.bind e.store.lineOf) : e.Aligned := by
  intro y hy hcursor
  rw [hlooked, hcursor, Option.bind_some, h.lineOf_eq hy]

lemma aligned_refreshAnnotations (h : e.store.Sound) : e.refreshAnnotations.Aligned :=
  aligned_of_lineOf (e := e.refreshAnnotations) h rfl

/-- Selecting a step refreshes what is shown, unless the step is not retained. -/
lemma selectStep_cases (e : Engine) (id : StepId) :
    (e.selectStep id).1 = e ∨
      (e.selectStep id).1 = { e with store := (e.store.pin id).1 }.refreshAnnotations := by
  unfold selectStep
  split
  · next store hpin => exact .inr (by rw [hpin])
  · exact .inl rfl

lemma aligned_applySync {p : SyncPayload} (h : e.store.Sound) (hnode : p.nodeId = none) :
    (e.applySync p).Aligned := by
  refine aligned_of_lineOf (sound_perform h (.frame (.sync p))) ?_
  simp [applySync, setHighlight, Engine.cursor, Store.replaceAll, hnode]

/-! ## Steps that arrive -/

lemma ne_of_moves (hmoves : e.moves x) : e.cursor ≠ some x.id := by
  intro hat
  simp [moves, Store.reaches, show e.store.cursor = some x.id from hat] at hmoves

/-- Where the highlight is the cursor's line, it is so after a step arrived if and only if the step,
should it be retained under the number that the cursor was at, is at the highlighted line. -/
lemma aligned_applyStep_iff (h : e.store.Sound) (haligned : e.Aligned) :
    (e.applyStep x).Aligned ↔
      (e.cursor = some x.id → x ∈ (e.applyStep x).store.steps → x.line = e.highlighted) := by
  cases hx : e.store.isPast x.id with
  | true =>
    rw [applyStep_of_isPast hx]
    exact ⟨fun _ hcursor hmem => (haligned x hmem hcursor).symm, fun _ => haligned⟩
  | false =>
    have hcursor := cursor_applyStep hx
    have hhighlighted := highlighted_applyStep hx
    by_cases hmoves : e.moves x
    · -- the cursor moves to the step, and no other retained step has its number
      rw [if_pos hmoves] at hcursor hhighlighted
      refine iff_of_true (fun y hy hat => ?_) fun hat => absurd hat (ne_of_moves hmoves)
      rw [steps_applyStep hx] at hy
      rcases h.mem_upsert hx hy with rfl | ⟨-, hid⟩
      · exact hhighlighted
      · exact absurd (Option.some.inj (hat.symm.trans hcursor)) hid
    · -- the cursor stays, and so does the step under it, unless the arriving one took its place
      rw [if_neg hmoves] at hcursor hhighlighted
      refine ⟨fun hafter hat hmem => ?_, fun hsame y hy hat => ?_⟩
      · rw [← hhighlighted, hafter x hmem (hcursor.trans hat)]
      · rw [hhighlighted]
        have hmem := hy
        rw [steps_applyStep hx] at hmem
        rcases h.mem_upsert hx hmem with rfl | ⟨hold, -⟩
        · exact (hsame (hcursor ▸ hat) hy).symm
        · exact haligned y hold (hcursor ▸ hat)

/-! ## Runs -/

/-- An operation that does not set the highlight apart from the cursor: a payload selects no node,
and a step that is retained under the cursor's number is at the highlighted line. -/
structure Aligning (e : Engine) (op : Operation) : Prop where
  node : ∀ p ∈ op.payload? e.generation, p.nodeId = none
  line : ∀ x ∈ op.step? e.generation, e.cursor = some x.id → x ∈ (e.applyStep x).store.steps →
    x.line = e.highlighted

instance (op : Operation) : Decidable (e.Aligning op) :=
  decidable_of_iff
    ((∀ p ∈ op.payload? e.generation, p.nodeId = none) ∧
      ∀ x ∈ op.step? e.generation, e.cursor = some x.id → x ∈ (e.applyStep x).store.steps →
        x.line = e.highlighted)
    ⟨fun ⟨node, line⟩ => ⟨node, line⟩, fun h => ⟨h.node, h.line⟩⟩

/-- The highlight stays with the cursor in an operation that does not set the two apart. -/
lemma Aligned.perform {op : Operation} (h : e.store.Sound) (haligned : e.Aligned)
    (hop : e.Aligning op) : (e.perform op).1.Aligned := by
  refine perform_cases visible_aligned haligned ?event ?sync ?selectStep ?followLive ?editNode
    ?backendRestarted
  case event =>
    intro x hframe
    exact (aligned_applyStep_iff h haligned).2 (hop.line x (Operation.step?_of_frame? hframe))
  case sync =>
    intro p hframe
    exact aligned_applySync h (hop.node p (Operation.payload?_of_frame? hframe))
  case selectStep =>
    rintro id -
    rcases selectStep_cases e id with hsame | hselected
    · rwa [hsame]
    · rw [hselected]
      have hpinned : (e.store.pin id).1.Sound := h.run [.pin id]
      exact aligned_refreshAnnotations (e := { e with store := (e.store.pin id).1 }) hpinned
  case followLive =>
    rintro -
    exact aligned_refreshAnnotations (e := { e with store := e.store.followLive })
      (sound_perform h .followLive)
  case editNode =>
    rintro line code -
    exact haligned
  case backendRestarted =>
    rintro - y hy
    exact absurd hy (by simp [backendRestarted, Store.clear])

/-- The highlight follows the cursor.  Along every run of which no payload selects a node, and where
each step that is retained under the cursor's own number is at the highlighted line, the line of the
step under the cursor is highlighted as long as that step is retained. -/
theorem aligned_run {settings : EngineSettings} {ops : List Operation}
    (hops : Along Aligning (new settings) ops) : ((new settings).run ops).1.Aligned := by
  have hkept := hops.invariant (I := fun e => e.store.Sound ∧ e.Aligned)
    fun e op ⟨hsound, haligned⟩ hop => ⟨sound_perform hsound op, haligned.perform hsound hop⟩
  exact (hkept ⟨Store.Sound.new .., fun y hy => absurd hy (by simp [new, Store.new])⟩).2

/-- A step comes again at its line, the next one arrives out of order, an earlier one is selected,
and after more steps the cursor follows live again. -/
theorem aligned_run_selecting :
    let ops := [.transport (.connected 1), .frame (.event (Step.ofLine 2 7)),
      .frame (.event ((Step.ofLine 2 7).inFrame "a")), .frame (.event (Step.ofLine 1 8)),
      .selectStep 1, .frame (.event (Step.ofLine 3 9)), .followLive]
    let e := ((new ⟨8, .sticky, 8, 1000⟩).run ops).1
    e.cursor = some 3 ∧ e.highlighted = some 9 ∧ e.Aligned := by
  intro ops e
  have hops : Along Aligning (new ⟨8, .sticky, 8, 1000⟩) ops := by decide +kernel
  exact ⟨by decide +kernel, by decide +kernel, aligned_run hops⟩

/-- The highlight can be left behind.  A step comes again, at another line, when the cursor is at
it; and a step arrives that a payload had selected before. -/
theorem highlight_left_behind :
    let corrected := ((new ⟨8, .sticky, 8, 1000⟩).run [.transport (.connected 1),
      .frame (.event (Step.ofLine 1 7)), .frame (.event (Step.ofLine 1 8))]).1
    let selected := ((new ⟨8, .sticky, 8, 1000⟩).run [.transport (.connected 1),
      .frame (.sync ⟨[], [], some 1, none⟩), .frame (.event (Step.ofLine 1 7))]).1
    (corrected.cursor = some 1 ∧ Step.ofLine 1 8 ∈ corrected.store.steps ∧
        corrected.highlighted = some 7) ∧
      selected.cursor = some 1 ∧ Step.ofLine 1 7 ∈ selected.store.steps ∧
        selected.highlighted = none := by
  decide +kernel

end Engine

end TraceTimeline
