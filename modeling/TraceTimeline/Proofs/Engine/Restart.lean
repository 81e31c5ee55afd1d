import Mathlib
import TraceTimeline.Engine.Host
import TraceTimeline.Proofs.Engine.Generations

/-!
# Restarts and fetches that are still out

When a new run is started, the engine drops the history and asks for the new one.  Fetches that were
made before may still be out.  Their answers are told from others by the connection for which they
were made, and by nothing else: on the same connection such an answer is applied like any other, and
if it comes last, it puts the old history back (`Host.late_answer_undoes_restart`).

Answers that come before the one for the new run do no harm: with that one, time line, nodes and
highlight are those of the new run's payload, whatever the others did in the meantime, and from then
on only a fetch that is still out can change them (`Host.restart_prevails`).
-/

namespace TraceTimeline

namespace Engine

/-! ## What a payload shows -/

lemma Reachable.shown_applySync {settings : EngineSettings} {e : Engine} (h : Reachable settings e)
    (p : SyncPayload) : (e.applySync p).shown = ((new settings).applySync p).shown := by
  have hstore : e.store.replaceAll p.timeline p.cursor =
      (new settings).store.replaceAll p.timeline p.cursor :=
    Store.replaceAll_eq_of_settings h.capacity_eq h.policy_eq p.timeline p.cursor
  simp only [shown, applySync, setHighlight, hstore]

end Engine

namespace Host

variable {h : Host} {settings : EngineSettings}

/-! ## Fetches that are made -/

@[simp] lemma engine_ask (h : Host) (effects : List Effect) :
    (h.ask effects).engine = h.engine := by
  induction effects generalizing h with
  | nil => rfl
  | cons effect rest ih => cases effect <;> exact ih ..

/-- Fetches are numbered on. -/
lemma asked_le_ask (h : Host) (effects : List Effect) : h.asked ≤ (h.ask effects).asked := by
  induction effects generalizing h with
  | nil => exact Nat.le_refl _
  | cons effect rest ih =>
    cases effect with
    | fetchSync g => exact (Nat.le_succ _).trans (ih (h.fetch g))
    | send request => exact ih h
    | startBackend => exact ih h

/-- Making fetches is nothing to those that were made before. -/
lemma get?_ask (h : Host) (effects : List Effect) {number : Nat} (hnumber : number < h.asked) :
    (h.ask effects).outstanding.get? number = h.outstanding.get? number := by
  induction effects generalizing h with
  | nil => rfl
  | cons effect rest ih =>
    cases effect with
    | fetchSync g =>
      refine (ih (h.fetch g) (hnumber.trans (Nat.lt_succ_self _))).trans ?_
      exact (OrderedMap.get?_insert ..).trans (if_neg (Nat.ne_of_lt hnumber))
    | send request => exact ih h hnumber
    | startBackend => exact ih h hnumber

lemma engine_operate (h : Host) (op : Engine.Operation) :
    (h.operate op).engine = (h.engine.perform op).1 :=
  engine_ask { h with engine := (h.engine.perform op).1 } (h.engine.perform op).2

lemma asked_le_operate (h : Host) (op : Engine.Operation) : h.asked ≤ (h.operate op).asked :=
  asked_le_ask { h with engine := (h.engine.perform op).1 } (h.engine.perform op).2

lemma get?_operate (h : Host) (op : Engine.Operation) {number : Nat} (hnumber : number < h.asked) :
    (h.operate op).outstanding.get? number = h.outstanding.get? number :=
  get?_ask { h with engine := (h.engine.perform op).1 } (h.engine.perform op).2 hnumber

/-! ## Events -/

/-- A host of a new engine leads to this one. -/
def Reachable (settings : EngineSettings) (h : Host) : Prop :=
  ∃ events, (new settings).run events = h

/-- The engine after an event: an operation was carried out, which is no new connection unless the
event is one, or nothing happened to it. -/
lemma engine_react_cases (h : Host) (event : Event) :
    (h.react event).engine = h.engine ∨
      ∃ op, (h.react event).engine = (h.engine.perform op).1 ∧
        (event.isConnect = false → ∀ g, op ≠ .transport (.connected g)) := by
  cases event with
  | happens op hop =>
    refine .inr ⟨op, engine_operate h op, fun hconnect g hop => ?_⟩
    subst hop
    exact absurd hconnect (by simp [Event.isConnect])
  | answered number answer =>
    unfold react
    dsimp only
    split
    · exact .inl rfl
    · next g p _ =>
      exact .inr ⟨.syncResponse g p, engine_operate .., fun _ _ => by simp⟩
    · exact .inl rfl

/-- After an event there are no fewer fetches than before. -/
lemma asked_le_react (h : Host) (event : Event) : h.asked ≤ (h.react event).asked := by
  cases event with
  | happens op hop => exact asked_le_operate h op
  | answered number answer =>
    unfold react
    dsimp only
    split
    · exact Nat.le_refl _
    · exact asked_le_operate { h with outstanding := h.outstanding.erase number } _
    · exact Nat.le_refl _

lemma asked_le_run (h : Host) (events : List Event) : h.asked ≤ (h.run events).asked := by
  induction events generalizing h with
  | nil => exact Nat.le_refl _
  | cons event rest ih => exact (asked_le_react h event).trans (ih (h.react event))

/-- A fetch that was made is out as before after an event, unless the event answers it. -/
lemma get?_react (h : Host) (event : Event) {number : Nat} (hnumber : number < h.asked) :
    (h.react event).outstanding.get? number =
      if event.number? = some number then none else h.outstanding.get? number := by
  cases event with
  | happens op hop =>
    rw [if_neg (by simp [Event.number?])]
    exact get?_operate h op hnumber
  | answered number' answer =>
    -- the fetch is no longer out when its answer is acted on
    let erased : Host := { h with outstanding := h.outstanding.erase number' }
    have herased : erased.outstanding.get? number =
        if Event.number? (.answered number' answer) = some number then none
        else h.outstanding.get? number := by
      simp only [erased, OrderedMap.get?_erase, Event.number?, Option.some.injEq, eq_comm]
    rw [← herased]
    unfold react
    dsimp only
    split
    · next hnone =>
      rw [OrderedMap.get?_erase]
      split
      · next heq => rw [heq, hnone]
      · rfl
    · exact get?_operate erased _ hnumber
    · rfl

/-- A fetch that was made is out as before after a list of events, unless one of them answers it. -/
lemma get?_run (h : Host) (events : List Event) {number : Nat} (hnumber : number < h.asked) :
    (h.run events).outstanding.get? number =
      if ∃ event ∈ events, event.number? = some number then none
      else h.outstanding.get? number := by
  induction events generalizing h with
  | nil => simp [run]
  | cons event rest ih =>
    refine (ih (h.react event) (hnumber.trans_le (asked_le_react h event))).trans ?_
    rw [get?_react h event hnumber]
    simp only [List.mem_cons, exists_eq_or_imp]
    by_cases hrest : ∃ event ∈ rest, event.number? = some number
    · rw [if_pos hrest, if_pos (.inr hrest)]
    · rw [if_neg hrest]
      simp only [hrest, or_false]

/-- The generation stays as long as there is no new connection. -/
lemma generation_run (h : Host) {events : List Event}
    (hevents : ∀ event ∈ events, event.isConnect = false) :
    (h.run events).engine.generation = h.engine.generation := by
  induction events generalizing h with
  | nil => rfl
  | cons event rest ih =>
    have hrest : ∀ event ∈ rest, event.isConnect = false := fun event hevent =>
      hevents event (List.mem_cons_of_mem _ hevent)
    refine (ih (h.react event) hrest).trans ?_
    rcases engine_react_cases h event with hengine | ⟨op, hengine, hop⟩
    · rw [hengine]
    · rw [hengine, h.engine.generation_perform (hop (hevents event (List.mem_cons_self ..)))]

/-- The engine stays reachable. -/
lemma reachable_engine_run (h : Host) (events : List Event)
    (hengine : Engine.Reachable settings h.engine) :
    Engine.Reachable settings (h.run events).engine := by
  induction events generalizing h with
  | nil => exact hengine
  | cons event rest ih =>
    refine ih (h.react event) ?_
    rcases engine_react_cases h event with hsame | ⟨op, hop, -⟩
    · rwa [hsame]
    · rw [hop]
      exact hengine.perform op

lemma react_answered_of_get?_eq_none {number : Nat} (hnumber : h.outstanding.get? number = none)
    (answer : Except TransportError SyncPayload) : h.react (.answered number answer) = h := by
  unfold react
  dsimp only
  rw [hnumber]

lemma engine_react_error (h : Host) (number : Nat) (reason : TransportError) :
    (h.react (.answered number (.error reason))).engine = h.engine := by
  unfold react
  dsimp only
  cases h.outstanding.get? number <;> rfl

/-- A payload that answers a fetch for the current connection is shown. -/
lemma shown_react_answered (hengine : Engine.Reachable settings h.engine) {number g : Nat}
    (hnumber : h.outstanding.get? number = some g) (hgeneration : h.engine.generation = some g)
    (p : SyncPayload) :
    (h.react (.answered number (.ok p))).engine.shown =
      ((Engine.new settings).applySync p).shown := by
  have hanswered : (h.react (.answered number (.ok p))).engine = h.engine.applySync p := by
    unfold react
    dsimp only
    rw [hnumber]
    refine (engine_operate ..).trans ?_
    show (if h.engine.generation = some g then h.engine.applySync p else h.engine) = _
    rw [if_pos hgeneration]
  rw [hanswered, hengine.shown_applySync]

/-! ## A new run -/

/-- While connected, a new run leads to a fetch for the connection. -/
lemma react_restart {g : Nat} (hgeneration : h.engine.generation = some g)
    (hconnected : h.engine.connection = .connected g) :
    h.react .restart = { h with engine := h.engine.backendRestarted.1 }.fetch g := by
  have hfetch : h.engine.backendRestarted.2 = [.fetchSync g] := by
    unfold Engine.backendRestarted
    rw [hgeneration, hconnected]
  show ask { h with engine := h.engine.backendRestarted.1 } h.engine.backendRestarted.2 = _
  rw [hfetch]
  rfl

/-- A new run prevails over fetches that were made before it.  Let a new run be started while the
engine is connected; this leads to one more fetch.  Whatever happens next on this connection: when
the new fetch is answered with a payload, time line, nodes and highlight are exactly those of the
payload, whatever came of answers to earlier fetches.  From then on, whatever else happens, no
answer to an earlier fetch changes the engine, unless it carries a payload and its fetch was still
out when the new one was answered. -/
theorem restart_prevails (hreachable : Reachable settings h) {g : Nat}
    (hgeneration : h.engine.generation = some g) (hconnected : h.engine.connection = .connected g)
    {between : List Event} (hsame : ∀ event ∈ between, event.isConnect = false)
    (hwaits : ∀ event ∈ between, event.number? ≠ some h.asked) (p : SyncPayload) :
    let restarted := h.react .restart
    let renewed := (restarted.run between).react (.answered h.asked (.ok p))
    restarted.outstanding.get? h.asked = some g ∧
      renewed.engine.shown = ((Engine.new settings).applySync p).shown ∧
      ∀ later, ∀ number < h.asked, ∀ answer : Except TransportError SyncPayload,
        (answer.isOk → (restarted.run between).outstanding.get? number = none) →
        ((renewed.run later).react (.answered number answer)).engine =
          (renewed.run later).engine := by
  intro restarted renewed
  have hrestarted : restarted = { h with engine := h.engine.backendRestarted.1 }.fetch g :=
    react_restart hgeneration hconnected
  have hasked : h.asked < restarted.asked := by
    rw [hrestarted]
    exact Nat.lt_succ_self _
  have hfetch : restarted.outstanding.get? h.asked = some g := by
    rw [hrestarted]
    exact (OrderedMap.get?_insert ..).trans (if_pos rfl)
  have hengine : Engine.Reachable settings (restarted.run between).engine := by
    obtain ⟨events, rfl⟩ := hreachable
    have hnew : Engine.Reachable settings (new settings).engine := ⟨[], rfl⟩
    exact reachable_engine_run _ between
      (reachable_engine_run _ [.restart] (reachable_engine_run _ events hnew))
  -- nothing in between answers the new fetch
  have hout : (restarted.run between).outstanding.get? h.asked = some g := by
    rw [get?_run restarted between hasked, if_neg, hfetch]
    rintro ⟨event, hevent, hnumber⟩
    exact hwaits event hevent hnumber
  have hcurrent : (restarted.run between).engine.generation = some g := by
    have hstart : ∀ event ∈ [Event.restart], event.isConnect = false := by
      simp [Event.restart, Event.isConnect]
    rw [generation_run restarted hsame]
    exact (generation_run h hstart).trans hgeneration
  refine ⟨hfetch, shown_react_answered hengine hout hcurrent p, ?_⟩
  intro later number hnumber answer hanswered
  cases answer with
  | error reason => exact engine_react_error _ number reason
  | ok p' =>
    have hasked' : number < (restarted.run between).asked :=
      (hnumber.trans hasked).trans_le (asked_le_run restarted between)
    -- a fetch that is no longer out never is again: numbers are not used twice
    have hgone : (renewed.run later).outstanding.get? number = none := by
      show ((restarted.run between).run (.answered h.asked (.ok p) :: later)).outstanding.get? _ = _
      rw [get?_run _ _ hasked', hanswered rfl, ite_self]
    rw [react_answered_of_get?_eq_none hgone]

/-- The fetch of the connection is answered with an old payload after a new run was started, and the
fetch of the new run after that. -/
theorem restart_prevails_over_slow_answer :
    let old : SyncPayload := ⟨[⟨"2", "", none⟩], [Step.ofLine 7 2], some 7, none⟩
    let fresh : SyncPayload := ⟨[⟨"1", "", none⟩], [Step.ofLine 1 1], some 1, none⟩
    let h := (new ⟨8, .sticky, 8, 1000⟩).run [.happens (.transport (.connected 1)) rfl]
    let slow := (h.react .restart).react (.answered 0 (.ok old))
    let renewed := slow.react (.answered 1 (.ok fresh))
    slow.engine.cursor = some 7 ∧ renewed.engine.cursor = some 1 ∧
      renewed.engine.shown = ((Engine.new ⟨8, .sticky, 8, 1000⟩).applySync fresh).shown ∧
      (renewed.react (.answered 0 (.ok old))).engine = renewed.engine := by
  intro old fresh h slow renewed
  have hreachable : Reachable ⟨8, .sticky, 8, 1000⟩ h := ⟨_, rfl⟩
  let between : List Event := [.answered 0 (.ok old)]
  have hsame : ∀ event ∈ between, event.isConnect = false := by simp [between, Event.isConnect]
  obtain ⟨-, hshown, hlater⟩ := restart_prevails hreachable (g := 1) (by decide +kernel)
    (by decide +kernel) hsame (by decide +kernel) fresh
  have hgone : ((h.react .restart).run between).outstanding.get? 0 = none := by decide +kernel
  exact ⟨by decide +kernel, by decide +kernel, hshown,
    hlater [] 0 (by decide +kernel) (.ok old) fun _ => hgone⟩

/-- Answers to a fetch that was made before a new run do change what is shown after it.  One that
comes before the answer to the new run's fetch shows the old history for the time being, and one
that comes after it puts the old history back. -/
theorem late_answer_undoes_restart :
    let old : SyncPayload := ⟨[], [Step.ofLine 7 2], some 7, none⟩
    let fresh : SyncPayload := ⟨[], [Step.ofLine 1 1], some 1, none⟩
    let restarted := (new ⟨8, .sticky, 8, 1000⟩).run
      [.happens (.transport (.connected 1)) rfl, .restart]
    let early := restarted.react (.answered 0 (.ok old))
    let renewed := restarted.react (.answered 1 (.ok fresh))
    let late := renewed.react (.answered 0 (.ok old))
    restarted.engine.store.steps = #[] ∧ early.engine.store.steps = #[Step.ofLine 7 2] ∧
      renewed.engine.store.steps = #[Step.ofLine 1 1] ∧ renewed.engine.highlighted = some 1 ∧
      late.engine.store.steps = #[Step.ofLine 7 2] ∧ late.engine.highlighted = some 2 := by
  decide +kernel

end Host

end TraceTimeline
