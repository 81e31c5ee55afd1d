import Mathlib
import TraceTimeline.Engine.Basic
import TraceTimeline.Proofs.Timeline.WellFormed

/-!
# Reachable engines

An engine is reachable if a list of operations leads to it from a new engine.  Whatever an operation
of the engine does to the store, it does by updates of the store (`Engine.storeLeads_perform`), so
that everything that holds of all stores holds of the store of a reachable engine
(`Engine.Reachable.sound`), and no operation changes what the engine was set up with.
-/

namespace TraceTimeline

namespace Engine

/-- An engine that operations lead to, from a new engine with some settings. -/
def Reachable (settings : EngineSettings) (e : Engine) : Prop :=
  ∃ ops, ((new settings).run ops).1 = e

/-! ## What an arriving step does -/

/-- An arriving step that is not discarded is put into the store, the cursor may move to it, and
the nodes take note of both. -/
lemma applyStep_eq (e : Engine) (x : Step) :
    e.applyStep x =
      if (e.store.upsert x).2 = .stale then e
      else
        let arrived := (e.store.upsert x).1.advanceLive x.id
        let annotated := { e with store := arrived.1 }.annotateStep x (e.store.upsert x).2
        if arrived.2 then annotated.setHighlight x.line else annotated := by
  unfold applyStep
  obtain ⟨store, outcome⟩ := e.store.upsert x
  cases outcome <;> rfl

@[simp] lemma store_annotateStep (e : Engine) (x : Step) (outcome : UpsertOutcome) :
    (e.annotateStep x outcome).store = e.store := by
  unfold annotateStep
  split
  · split <;> rfl
  · rfl

/-! ## Updates of the store -/

/-- One store comes from another by updates. -/
def StoreLeads (s t : Store) : Prop := ∃ ops, s.run ops = t

lemma StoreLeads.refl (s : Store) : StoreLeads s s := ⟨[], rfl⟩

lemma StoreLeads.single (s : Store) (op : Store.Operation) : StoreLeads s (s.perform op) :=
  ⟨[op], rfl⟩

lemma StoreLeads.trans {s t u : Store} (h : StoreLeads s t) (h' : StoreLeads t u) :
    StoreLeads s u := by
  obtain ⟨ops, rfl⟩ := h
  obtain ⟨ops', rfl⟩ := h'
  exact ⟨ops ++ ops', List.foldl_append⟩

/-- An arriving step is put into the store, and the cursor follows it. -/
lemma storeLeads_applyStep (e : Engine) (x : Step) : StoreLeads e.store (e.applyStep x).store := by
  rw [applyStep_eq]
  split
  · exact .refl _
  · have hstore : StoreLeads e.store ((e.store.upsert x).1.advanceLive x.id).1 :=
      (StoreLeads.single e.store (.upsert x)).trans (.single _ (.advanceLive x.id))
    dsimp only
    split
    · simpa [setHighlight] using hstore
    · simpa using hstore

/-- A frame updates the store if it carries a step or a sync payload. -/
lemma storeLeads_applyFrame (e : Engine) (f : Frame) :
    StoreLeads e.store (e.applyFrame f).store := by
  cases f with
  | event x => exact storeLeads_applyStep e x
  | sync p => exact .single _ (.replaceAll p.timeline p.cursor)
  | chunk channel text => exact .refl _
  | flush channel => exact .refl _

/-- The text of a frame updates the store as the frame does. -/
lemma storeLeads_handleFrame (e : Engine) (text : String) :
    StoreLeads e.store (e.handleFrame text).store := by
  unfold handleFrame
  dsimp only
  split
  · exact storeLeads_applyFrame { e with gate := e.gate.release } _
  · exact .refl _

/-- Whatever an operation does to the store, it does by updates of the store. -/
lemma storeLeads_perform (e : Engine) (op : Operation) :
    StoreLeads e.store (e.perform op).1.store := by
  cases op with
  | transport event =>
    cases event with
    | connected g =>
      show StoreLeads _ (e.handleTransport (.connected g)).1.store
      unfold handleTransport
      dsimp only
      split <;> exact .refl _
    | disconnected g reason =>
      show StoreLeads _ (if e.generation = some g then _ else e).store
      split <;> exact .refl _
    | frame g text =>
      show StoreLeads _ (if e.generation = some g then e.handleFrame text else e).store
      split
      · exact storeLeads_handleFrame e text
      · exact .refl _
  | frameText text => exact storeLeads_handleFrame e text
  | frame f => exact storeLeads_applyFrame e f
  | syncResponse g p =>
    show StoreLeads _ (e.applySyncResponse g p).store
    unfold applySyncResponse
    split
    · exact .single _ (.replaceAll p.timeline p.cursor)
    · exact .refl _
  | selectNode line =>
    show StoreLeads _ (e.selectNode line).1.store
    unfold selectNode
    split <;> exact .refl _
  | selectStep id =>
    have hpin : StoreLeads e.store (e.store.pin id).1 := .single _ (.pin id)
    show StoreLeads _ (e.selectStep id).1.store
    unfold selectStep
    split
    · next store heq => rw [heq] at hpin; exact hpin
    · exact .refl _
  | followLive => exact .single _ .followLive
  | requestContinue now => exact .refl _
  | editNode line code => exact .refl _
  | clearOutput => exact .refl _
  | restartBackend => exact .refl _
  | backendRestarted => exact .single _ .clear

lemma storeLeads_run (e : Engine) (ops : List Operation) :
    StoreLeads e.store (e.run ops).1.store := by
  induction ops generalizing e with
  | nil => exact .refl _
  | cons op rest ih => exact (storeLeads_perform e op).trans (ih (e.perform op).1)

lemma run_append_singleton (e : Engine) (ops : List Operation) (op : Operation) :
    (e.run (ops ++ [op])).1 = ((e.run ops).1.perform op).1 := by
  induction ops generalizing e with
  | nil => rfl
  | cons first rest ih => exact ih (e.perform first).1

/-! ## What holds of reachable engines -/

namespace Reachable

variable {settings : EngineSettings} {e : Engine}

lemma perform (h : Reachable settings e) (op : Operation) :
    Reachable settings (e.perform op).1 := by
  obtain ⟨ops, rfl⟩ := h
  exact ⟨ops ++ [op], run_append_singleton ..⟩

lemma storeLeads (h : Reachable settings e) :
    StoreLeads (Store.new settings.timelineCapacity settings.policy) e.store := by
  obtain ⟨ops, rfl⟩ := h
  exact storeLeads_run (new settings) ops

lemma sound (h : Reachable settings e) : e.store.Sound := by
  obtain ⟨ops, hops⟩ := h.storeLeads
  rw [← hops]
  exact (Store.Sound.new _ _).run ops

lemma capacity_eq (h : Reachable settings e) :
    e.store.capacity = max settings.timelineCapacity 1 := by
  obtain ⟨ops, hops⟩ := h.storeLeads
  rw [← hops, Store.capacity_run]
  rfl

lemma policy_eq (h : Reachable settings e) : e.store.policy = settings.policy := by
  obtain ⟨ops, hops⟩ := h.storeLeads
  rw [← hops, Store.policy_run]
  rfl

end Reachable

end Engine

end TraceTimeline
