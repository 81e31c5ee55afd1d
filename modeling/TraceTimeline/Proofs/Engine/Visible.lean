import Mathlib
import TraceTimeline.Proofs.Engine.SyncBarrier
import TraceTimeline.Proofs.Timeline.Retained

/-!
# What an engine shows, and what changes it

What an engine shows of a run is its time line, its nodes and the highlighted line.  Of the many
operations only a few change it: those that bring a step or a sync payload, in whichever form it is
delivered, and four requests of the operator or the host.  `Engine.perform_cases` says this once, as
a rule for proving that a property of what is shown survives an operation;
`Engine.perform_frame_cases` is the rule for the output as well.  What an operation makes the host
do is said once, too (`Engine.mem_effects_iff`).

Properties that not all operations keep are stated for runs in which every operation meets a
condition in the engine that it finds (`Engine.Along`).
-/

namespace TraceTimeline

namespace Engine

/-! ## The frame in an operation -/

/-- The frame that an operation brings to an engine whose connection is of a generation: as text, as
it is, or as the answer to a fetch. -/
def Operation.frame? (generation : Option Nat) : Operation → Option Frame
  | .transport (.frame g text) =>
    if generation = some g then (Frame.decode text).toOption else none
  | .frameText text => (Frame.decode text).toOption
  | .frame f => some f
  | .syncResponse g p => if generation = some g then some (.sync p) else none
  | _ => none

/-- The step that an operation brings. -/
def Operation.step? (generation : Option Nat) (op : Operation) : Option Step :=
  match op.frame? generation with
  | some (.event x) => some x
  | _ => none

/-- The steps that a list of operations brings. -/
def Operation.steps (generation : Option Nat) (ops : List Operation) : List Step :=
  ops.filterMap (·.step? generation)

/-- The sync payload that an operation brings. -/
def Operation.payload? (generation : Option Nat) (op : Operation) : Option SyncPayload :=
  match op.frame? generation with
  | some (.sync p) => some p
  | _ => none

lemma Operation.frame?_of_step? {generation : Option Nat} {op : Operation} {x : Step}
    (h : op.step? generation = some x) : op.frame? generation = some (.event x) := by
  unfold Operation.step? at h
  split at h
  · next heq => rw [heq, Option.some.inj h]
  · exact absurd h (by simp)

lemma Operation.step?_of_frame? {generation : Option Nat} {op : Operation} {x : Step}
    (h : op.frame? generation = some (.event x)) : op.step? generation = some x := by
  unfold Operation.step?
  rw [h]

lemma Operation.payload?_of_frame? {generation : Option Nat} {op : Operation} {p : SyncPayload}
    (h : op.frame? generation = some (.sync p)) : op.payload? generation = some p := by
  unfold Operation.payload?
  rw [h]

/-- The text of a frame is applied as the frame that it spells; else it only releases the gate. -/
lemma handleFrame_eq (e : Engine) (text : String) :
    e.handleFrame text =
      (((Frame.decode text).toOption.map e.applyFrame).getD e).shifted e.gate.release 0 := by
  unfold handleFrame
  dsimp only
  cases Frame.decode text with
  | ok f => exact oblivious_applyFrame f e e.gate.release 0
  | error _ => rfl

/-- An operation that brings a frame applies the frame, and beyond that sets the gate at most. -/
lemma perform_of_frame? {e : Engine} {op : Operation} {f : Frame}
    (h : op.frame? e.generation = some f) :
    ∃ gate, (e.perform op).1 = (e.applyFrame f).shifted gate 0 := by
  have htext {text : String} (h : (Frame.decode text).toOption = some f) :
      e.handleFrame text = (e.applyFrame f).shifted e.gate.release 0 := by
    rw [handleFrame_eq, h]
    rfl
  cases op with
  | transport event =>
    cases event with
    | frame g text =>
      obtain ⟨hg, h⟩ := Option.ite_none_right_eq_some.1 h
      refine ⟨e.gate.release, ?_⟩
      show (if e.generation = some g then e.handleFrame text else e) = _
      rw [if_pos hg, htext h]
    | connected g => exact absurd h (by simp [Operation.frame?])
    | disconnected g reason => exact absurd h (by simp [Operation.frame?])
  | frameText text => exact ⟨e.gate.release, htext h⟩
  | frame f' =>
    obtain rfl := Option.some.inj h
    exact ⟨(e.applyFrame f').gate, rfl⟩
  | syncResponse g p =>
    obtain ⟨hg, h⟩ := Option.ite_none_right_eq_some.1 h
    obtain rfl := Option.some.inj h
    refine ⟨(e.applySync p).gate, ?_⟩
    show (if e.generation = some g then e.applySync p else e) = _
    rw [if_pos hg]
    rfl
  | _ => exact absurd h (by simp [Operation.frame?])

/-! ## The effects of an operation -/

/-- How an operation comes to have an effect at an engine: one constructor for each place that
effects come from. -/
inductive Causes (e : Engine) : Operation → Effect → Prop where
  | connected {g : Nat} (hnew : e.generation.any (g < ·) = false) :
    Causes e (.transport (.connected g)) (.fetchSync g)
  | restarted {g up : Nat} (hgeneration : e.generation = some g)
    (hup : e.connection = .connected up) : Causes e .backendRestarted (.fetchSync g)
  | node {line : SourceLine} {id : StepId} (hlatest : e.store.latestOnLine line = some id) :
    Causes e (.selectNode line) (.send (.selectStep id))
  | step {id : StepId} (hpinned : (e.store.pin id).2 = true) :
    Causes e (.selectStep id) (.send (.selectStep id))
  | resume {now : Millis} (hpassed : (e.gate.pass now).2 = true) :
    Causes e (.requestContinue now) (.send .resume)
  | edit {line : SourceLine} {code : String} :
    Causes e (.editNode line code) (.send (.updateCode line code))
  | restart : Causes e .restartBackend .startBackend

lemma causes_of_mem_effects {e : Engine} {op : Operation} {x : Effect} (h : x ∈ (e.perform op).2) :
    e.Causes op x := by
  cases op with
  | transport event =>
    cases event with
    | connected g =>
      change x ∈ (e.handleTransport (.connected g)).2 at h
      unfold handleTransport at h
      dsimp only at h
      split at h
      · exact absurd h List.not_mem_nil
      · next hnew =>
        obtain rfl := List.mem_singleton.1 h
        exact .connected (Bool.eq_false_iff.2 hnew)
    | disconnected g reason => exact absurd h List.not_mem_nil
    | frame g text => exact absurd h List.not_mem_nil
  | selectNode line =>
    change x ∈ (e.selectNode line).2 at h
    unfold selectNode at h
    split at h
    · next id hlatest =>
      obtain rfl := List.mem_singleton.1 h
      exact .node hlatest
    · exact absurd h List.not_mem_nil
  | selectStep id =>
    change x ∈ (e.selectStep id).2 at h
    unfold selectStep at h
    split at h
    · next heq =>
      obtain rfl := List.mem_singleton.1 h
      exact .step (congrArg (·.2) heq)
    · exact absurd h List.not_mem_nil
  | requestContinue now =>
    change x ∈ (if (e.gate.pass now).2 then [.send .resume] else []) at h
    split at h
    · next hpassed =>
      obtain rfl := List.mem_singleton.1 h
      exact .resume hpassed
    · exact absurd h List.not_mem_nil
  | editNode line code =>
    obtain rfl := List.mem_singleton.1 h
    exact .edit
  | restartBackend =>
    obtain rfl := List.mem_singleton.1 h
    exact .restart
  | backendRestarted =>
    change x ∈ e.backendRestarted.2 at h
    unfold backendRestarted at h
    dsimp only at h
    split at h
    · next g up hgeneration hup =>
      obtain rfl := List.mem_singleton.1 h
      exact .restarted hgeneration hup
    · exact absurd h List.not_mem_nil
  | frameText text => exact absurd h List.not_mem_nil
  | frame f => exact absurd h List.not_mem_nil
  | syncResponse g p => exact absurd h List.not_mem_nil
  | followLive => exact absurd h List.not_mem_nil
  | clearOutput => exact absurd h List.not_mem_nil

lemma Causes.mem_effects {e : Engine} {op : Operation} {x : Effect} (h : e.Causes op x) :
    x ∈ (e.perform op).2 := by
  cases h with
  | connected hnew => simp [Engine.perform, handleTransport, hnew]
  | restarted hgeneration hup => simp [Engine.perform, backendRestarted, hgeneration, hup]
  | node hlatest => simp [Engine.perform, selectNode, hlatest]
  | @step id hpinned =>
    show _ ∈ (e.selectStep id).2
    unfold selectStep
    split
    · exact List.mem_singleton.2 rfl
    · next heq => simp [heq] at hpinned
  | resume hpassed => simp [Engine.perform, requestContinue, hpassed]
  | edit => exact List.mem_singleton.2 rfl
  | restart => exact List.mem_singleton.2 rfl

/-- The effects of an operation are those that it is said to cause. -/
theorem mem_effects_iff {e : Engine} {op : Operation} {x : Effect} :
    x ∈ (e.perform op).2 ↔ e.Causes op x :=
  ⟨causes_of_mem_effects, Causes.mem_effects⟩

/-! ## What is shown -/

/-- What an engine shows of a run: the time line, the nodes and the highlighted line. -/
def shown (e : Engine) : Store × List Node × Option SourceLine := (e.store, e.nodes, e.highlighted)

lemma shown_eq_iff {e e' : Engine} : e.shown = e'.shown ↔
    e.store = e'.store ∧ e.nodes = e'.nodes ∧ e.highlighted = e'.highlighted := by
  simp [shown]

/-- A property of an engine that is a property of what it shows. -/
def Visible (P : Engine → Prop) : Prop := ∀ e e' : Engine, P e → e.shown = e'.shown → P e'

/-- What an engine holds apart from its connection and its gate: what it shows, the output and how
often the time line was replaced. -/
def contents (e : Engine) : (Store × List Node × Option SourceLine) × OutputLog × Nat :=
  (e.shown, e.output, e.epoch)

/-- A property of the contents holds after an operation if it holds after the frame in the
operation, if there is one, and after each of the requests that change the contents; all other
operations leave the contents as they are. -/
theorem perform_frame_cases {P : Engine → Prop}
    (hP : ∀ e e' : Engine, P e → e.contents = e'.contents → P e') {e : Engine} {op : Operation}
    (idle : op.frame? e.generation = none → op ≠ .clearOutput → P e)
    (frame : ∀ f, op.frame? e.generation = some f → P (e.applyFrame f))
    (selectStep : ∀ id, op = .selectStep id → P (e.selectStep id).1)
    (followLive : op = .followLive → P e.followLive)
    (editNode : ∀ line code, op = .editNode line code → P (e.editNode line code).1)
    (clearOutput : op = .clearOutput → P e.clearOutput)
    (backendRestarted : op = .backendRestarted → P e.backendRestarted.1) :
    P (e.perform op).1 := by
  cases hframe : op.frame? e.generation with
  | some f =>
    obtain ⟨gate, heq⟩ := perform_of_frame? hframe
    rw [heq]
    exact hP _ _ (frame f hframe) rfl
  | none =>
    have idle : op ≠ .clearOutput → P e := idle hframe
    have htext {text : String} (h : (Frame.decode text).toOption = none) (hidle : P e) :
        P (e.handleFrame text) := by
      rw [handleFrame_eq, h]
      exact hP e _ hidle rfl
    cases op with
    | transport reported =>
      have hidle : P e := idle (by simp)
      cases reported with
      | connected g =>
        show P (e.handleTransport (.connected g)).1
        unfold handleTransport
        dsimp only
        split
        · exact hidle
        · exact hP e _ hidle rfl
      | disconnected g reason =>
        show P (if e.generation = some g then _ else e)
        split
        · exact hP e _ hidle rfl
        · exact hidle
      | frame g text =>
        show P (if e.generation = some g then e.handleFrame text else e)
        split
        · next hg => exact htext (by simpa [Operation.frame?, hg] using hframe) hidle
        · exact hidle
    | frameText text => exact htext hframe (idle (by simp))
    | frame f => exact absurd hframe (by simp [Operation.frame?])
    | syncResponse g p =>
      have hg : e.generation ≠ some g := by
        intro hg
        simp [Operation.frame?, hg] at hframe
      show P (if e.generation = some g then e.applySync p else e)
      rw [if_neg hg]
      exact idle (by simp)
    | selectNode line =>
      have hidle : P e := idle (by simp)
      show P (e.selectNode line).1
      unfold selectNode
      split <;> exact hidle
    | selectStep id => exact selectStep id rfl
    | followLive => exact followLive rfl
    | requestContinue now => exact hP e _ (idle (by simp)) rfl
    | editNode line code => exact editNode line code rfl
    | clearOutput => exact clearOutput rfl
    | restartBackend => exact idle (by simp)
    | backendRestarted => exact backendRestarted rfl

/-- A property of what is shown survives an operation if it survives a step, a sync payload, and the
requests that change what is shown. -/
theorem perform_cases {P : Engine → Prop} (hP : Visible P) {e : Engine} {op : Operation}
    (idle : P e)
    (event : ∀ x, op.frame? e.generation = some (.event x) → P (e.applyStep x))
    (sync : ∀ p, op.frame? e.generation = some (.sync p) → P (e.applySync p))
    (selectStep : ∀ id, op = .selectStep id → P (e.selectStep id).1)
    (followLive : op = .followLive → P e.followLive)
    (editNode : ∀ line code, op = .editNode line code → P (e.editNode line code).1)
    (backendRestarted : op = .backendRestarted → P e.backendRestarted.1) :
    P (e.perform op).1 := by
  refine perform_frame_cases (fun e e' h heq => hP e e' h (congrArg (·.1) heq)) (fun _ _ => idle)
    (fun f hframe => ?_) selectStep followLive editNode (fun _ => hP e _ idle rfl) backendRestarted
  cases f with
  | event x => exact event x hframe
  | sync p => exact sync p hframe
  | chunk channel text => exact hP e _ idle rfl
  | flush channel => exact hP e _ idle rfl

lemma sound_perform {e : Engine} (h : e.store.Sound) (op : Operation) :
    (e.perform op).1.store.Sound := by
  obtain ⟨ops, hops⟩ := storeLeads_perform e op
  rw [← hops]
  exact h.run ops

/-! ## A step that arrives -/

section

variable {e : Engine} {x : Step}

lemma applyStep_of_isPast (hx : e.store.isPast x.id = true) : e.applyStep x = e := by
  rw [applyStep_eq, if_pos (Store.snd_upsert_eq_stale_iff.2 hx)]

/-- Whether the cursor moves to an arriving step. -/
def moves (e : Engine) (x : Step) : Bool := e.store.follow = .live ∧ ¬ e.store.reaches x.id

/-- Putting a step into the store has no bearing on whether the cursor moves to it. -/
lemma advanceLive_upsert (e : Engine) (x : Step) :
    (e.store.upsert x).1.advanceLive x.id =
      if e.moves x then ({ (e.store.upsert x).1 with cursor := some x.id }, true)
      else ((e.store.upsert x).1, false) := by
  have hmoves : ((e.store.upsert x).1.follow = .live ∧ ¬ (e.store.upsert x).1.reaches x.id) ↔
      e.moves x := by
    simp [moves, Store.reaches]
  rw [Store.advanceLive_eq]
  exact if_congr hmoves rfl rfl

/-- A step that is not discarded is put into the store, where the cursor may move to it.  The nodes
are annotated, and if the cursor moves, the step's line is highlighted. -/
lemma applyStep_of_not_isPast (hx : e.store.isPast x.id = false) :
    e.applyStep x =
      let arrived := ((e.store.upsert x).1.advanceLive x.id).1
      let annotated := { e with store := arrived }.annotateStep x (e.store.upsert x).2
      if e.moves x then annotated.setHighlight x.line else annotated := by
  have hne : (e.store.upsert x).2 ≠ .stale := by
    rw [Ne, Store.snd_upsert_eq_stale_iff, hx]
    exact Bool.false_ne_true
  rw [applyStep_eq, if_neg hne, advanceLive_upsert]
  cases e.moves x <;> rfl

lemma store_applyStep (hx : e.store.isPast x.id = false) :
    (e.applyStep x).store = ((e.store.upsert x).1.advanceLive x.id).1 := by
  rw [applyStep_of_not_isPast hx]
  dsimp only
  split <;> simp [setHighlight]

lemma steps_applyStep (hx : e.store.isPast x.id = false) :
    (e.applyStep x).store.steps = (e.store.upsert x).1.steps := by
  rw [store_applyStep hx, Store.steps_advanceLive]

lemma cursor_applyStep (hx : e.store.isPast x.id = false) :
    (e.applyStep x).cursor = if e.moves x then some x.id else e.cursor := by
  rw [cursor, store_applyStep hx, advanceLive_upsert]
  split
  · rfl
  · exact e.store.cursor_upsert x

@[simp] lemma highlighted_annotateStep (e : Engine) (x : Step) (outcome : UpsertOutcome) :
    (e.annotateStep x outcome).highlighted = e.highlighted := by
  unfold annotateStep
  split
  · split <;> rfl
  · rfl

/-- An arriving step is highlighted if the cursor moves to it, and else the highlight stays. -/
lemma highlighted_applyStep (hx : e.store.isPast x.id = false) :
    (e.applyStep x).highlighted = if e.moves x then x.line else e.highlighted := by
  rw [applyStep_of_not_isPast hx]
  dsimp only
  split
  · rfl
  · exact highlighted_annotateStep ..

/-- An arriving step changes what is shown, and nothing else. -/
lemma exists_applyStep_eq (e : Engine) (x : Step) :
    ∃ store nodes line,
      e.applyStep x = { e with store := store, nodes := nodes, highlighted := line } := by
  have hannotated (e : Engine) (outcome : UpsertOutcome) :
      ∃ nodes, e.annotateStep x outcome = { e with nodes := nodes } := by
    unfold annotateStep
    split
    · split <;> exact ⟨_, rfl⟩
    · exact ⟨_, rfl⟩
  cases hx : e.store.isPast x.id with
  | true => exact ⟨_, _, _, applyStep_of_isPast hx⟩
  | false =>
    rw [applyStep_of_not_isPast hx]
    dsimp only
    obtain ⟨nodes, heq⟩ := hannotated { e with store := ((e.store.upsert x).1.advanceLive x.id).1 }
      (e.store.upsert x).2
    rw [heq]
    split <;> exact ⟨_, _, _, rfl⟩

/-- What steps have no bearing on: the output and the connection. -/
def surroundings (e : Engine) : OutputLog × ConnectionState × Option Nat :=
  (e.output, e.connection, e.generation)

lemma surroundings_applyStep (e : Engine) (x : Step) :
    (e.applyStep x).surroundings = e.surroundings := by
  obtain ⟨store, nodes, line, heq⟩ := e.exists_applyStep_eq x
  rw [heq]
  rfl

lemma epoch_applyStep (e : Engine) (x : Step) : (e.applyStep x).epoch = e.epoch := by
  obtain ⟨store, nodes, line, heq⟩ := e.exists_applyStep_eq x
  rw [heq]

lemma sound_applyStep (h : e.store.Sound) (x : Step) : (e.applyStep x).store.Sound :=
  sound_perform h (.frame (.event x))

end

/-! ## Conditions along a run -/

/-- Every operation of a list meets a condition in the engine that it finds. -/
def Along (P : Engine → Operation → Prop) (e : Engine) : List Operation → Prop
  | [] => True
  | op :: ops => P e op ∧ Along P (e.perform op).1 ops

instance (P : Engine → Operation → Prop) [∀ e op, Decidable (P e op)] (e : Engine) :
    (ops : List Operation) → Decidable (Along P e ops)
  | [] => inferInstanceAs (Decidable True)
  | op :: ops =>
    have := instDecidableAlong P (e.perform op).1 ops
    inferInstanceAs (Decidable (P e op ∧ Along P (e.perform op).1 ops))

/-- What every operation keeps that meets a condition is kept along a run of such operations. -/
theorem Along.invariant {P : Engine → Operation → Prop} {I : Engine → Prop}
    (hstep : ∀ e op, I e → P e op → I (e.perform op).1) {e : Engine} {ops : List Operation}
    (h : Along P e ops) (hI : I e) : I (e.run ops).1 := by
  induction ops generalizing e with
  | nil => exact hI
  | cons op rest ih => exact ih h.2 (hstep e op hI h.1)

end Engine

end TraceTimeline
