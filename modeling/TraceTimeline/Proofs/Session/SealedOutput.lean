import TraceTimeline.Proofs.Engine.Output
import TraceTimeline.Proofs.Output.Sealing
import TraceTimeline.Proofs.Terminal.View
import TraceTimeline.Session.Basic

/-!
# Sealed output is written once

A session writes an output entry when the entry is sealed.  Every event leads to at most one update
of the output (`Session.update?`), which seals one entry at most (`Session.sealed?`), and the view
remembers exactly the sealed entries that are kept (`Session.Recorded`).  So the rendering after an
event writes the entry that the event sealed, and no other.  `Session.sealed_written_once` is that
statement for a whole session.
-/

namespace TraceTimeline

/-! ## Events and the output -/

/-- The operation of the engine in a command. -/
def Command.operation? (now : Millis) : Command → Option Engine.Operation
  | .resume => some (.requestContinue now)
  | .seek id => some (.selectStep id)
  | .line n => some (.selectNode n)
  | .follow => some .followLive
  | .scope => none
  | .output => none
  | .clear => some .clearOutput
  | .edit n code => some (.editNode n code)
  | .restart => some .restartBackend
  | .quit => none

/-- The operation of the engine that an event leads to. -/
def SessionEvent.operation? : SessionEvent → Option Engine.Operation
  | .transport event => some (.transport event)
  | .syncLoaded generation (.ok payload) => some (.syncResponse generation payload)
  | .syncLoaded _ (.error _) => none
  | .backendStarted (.ok ()) => some .backendRestarted
  | .backendStarted (.error _) => none
  | .command c now => c.operation? now
  | .inputEnded => none

namespace Session

variable {s : Session} {event : SessionEvent}

/-- Taking note of an event is an operation of the engine, or leaves the engine as it is; it leaves
the view as it is in any case. -/
lemma note_fst (s : Session) (event : SessionEvent) :
    (s.note event).1.view = s.view ∧
      (s.note event).1.engine =
        event.operation?.elim s.engine fun op => (s.engine.perform op).1 := by
  cases event with
  | transport event => exact ⟨rfl, rfl⟩
  | syncLoaded generation answer => cases answer <;> exact ⟨rfl, rfl⟩
  | backendStarted answer => cases answer <;> exact ⟨rfl, rfl⟩
  | command command now => cases command <;> exact ⟨rfl, rfl⟩
  | inputEnded => exact ⟨rfl, rfl⟩

/-- The update of the output that an event leads to. -/
def update? (s : Session) (event : SessionEvent) : Option OutputLog.Operation :=
  if s.finished then none else event.operation?.bind (·.update? s.engine.generation)

/-- The entry that an event seals, as it is from then on. -/
def sealed? (s : Session) (event : SessionEvent) : Option OutputEntry :=
  (s.update? event).bind s.engine.output.sealed?

/-- What is written by the rendering right after an event was taken note of. -/
def rendered (s : Session) (event : SessionEvent) : List TerminalLine :=
  if s.finished then [] else (s.note event).1.render.2

/-- The output after an event was taken note of. -/
lemma output_note (event : SessionEvent) (h : s.finished = false) :
    (s.note event).1.engine.output =
      (s.update? event).elim s.engine.output s.engine.output.perform := by
  rw [(s.note_fst event).2, update?, h]
  cases event.operation? with
  | none => rfl
  | some op => exact s.engine.output_perform op

/-! ## What the view remembers of the output -/

/-- The view remembers exactly the sealed entries that are kept. -/
structure Recorded (s : Session) : Prop where
  wellFormed : s.engine.output.WellFormed
  entries_iff : ∀ id, (s.view.entries.get? id).isSome ↔
    ∃ e ∈ s.engine.output.entries, e.id = id ∧ e.flushed = true

/-- Of an entry that is kept, the view knows whether it is sealed. -/
lemma Recorded.isSome_eq (h : s.Recorded) {e : OutputEntry} (he : e ∈ s.engine.output.entries) :
    (s.view.entries.get? e.id).isSome = e.flushed := by
  rw [Bool.eq_iff_iff, h.entries_iff]
  constructor
  · rintro ⟨x, hx, hid, hflushed⟩
    rw [← h.wellFormed.eq_of_id_eq he hx hid]
    exact hflushed
  · exact fun hflushed => ⟨e, he, rfl, hflushed⟩

/-- The number and the text that are written for a sealed entry. -/
def sealedText? (line : TerminalLine) : Option (Nat × String) :=
  match line with
  | .sealed id _ _ => some (id, line.text)
  | _ => none

/-- The number of an entry, and its channel and its whole text without the line ends at its end. -/
def sealedText (e : OutputEntry) : Nat × String :=
  (e.id, e.channel.name ++ "> " ++ TerminalLine.withoutLineEnds e.text)

/-- Of sealed entries, a rendering writes those that are due, one after another. -/
lemma sealedText?_render {v : View} {e : Engine} (hnodup : e.output.ids.Nodup) :
    (v.render e).2.filterMap sealedText? =
      (e.output.entries.filter (View.isDue v.entries)).map sealedText := by
  have hhead : (v.headLines e).filterMap sealedText? = [] := by
    unfold View.headLines View.renderConnection View.renderEpoch
    split <;> split <;> rfl
  have hsteps : (View.renderStepList (v.standing e) e.store.steps.toList).2.filterMap sealedText? =
      [] := by
    generalize e.store.steps.toList = l
    generalize v.standing e = shown
    induction l generalizing shown with
    | nil => rfl
    | cons x rest ih =>
      rw [View.renderStepList_cons]
      dsimp only
      rw [List.filterMap_append, ih, View.lines_renderStep]
      split <;> rfl
  have hcursor (shown : Option StepId) :
      (View.cursorLines e shown).filterMap sealedText? = [] := by
    unfold View.cursorLines
    split
    · rfl
    · split <;> rfl
  rw [View.render_eq]
  dsimp only
  rw [List.filterMap_append, List.filterMap_append, List.filterMap_append, hhead, hsteps, hcursor,
    View.lines_renderEntryList hnodup, List.nil_append, List.nil_append, List.append_nil,
    List.filterMap_map]
  exact congrFun List.filterMap_eq_map' _

/-! ## One event -/

/-- Rendering leaves the engine as it is, and an event of a session that is over changes nothing. -/
lemma output_react (s : Session) (event : SessionEvent) :
    (s.react event).1.engine.output =
      (s.update? event).elim s.engine.output s.engine.output.perform := by
  unfold react
  split
  · next h =>
    rw [update?, if_pos h]
    rfl
  · next h => exact output_note event (Bool.eq_false_iff.2 h)

lemma wellFormed_react (h : s.engine.output.WellFormed) (event : SessionEvent) :
    (s.react event).1.engine.output.WellFormed := by
  rw [output_react]
  cases s.update? event with
  | none => exact h
  | some update => exact h.perform update

/-- What may be sealed after an event may have been sealed before it. -/
lemma unsealed_react (h : s.engine.output.WellFormed) {id : Nat}
    (hid : (s.react event).1.engine.output.Unsealed id) : s.engine.output.Unsealed id := by
  rw [output_react] at hid
  cases hupdate : s.update? event with
  | none => rwa [hupdate] at hid
  | some update =>
    rw [hupdate] at hid
    exact (OutputLog.change_perform h.nodup_ids update).unsealed hid

/-- What the view remembers after a rendering is right if none of it is open. -/
lemma recorded_render (h : s.engine.output.WellFormed)
    (hsealed : ∀ e ∈ s.engine.output.entries,
      (s.view.entries.get? e.id).isSome → e.flushed = true) :
    s.render.1.Recorded where
  wellFormed := h
  entries_iff id := by
    refine (View.entries_render id).trans ⟨?_, ?_⟩
    · rintro ⟨e, he, rfl, hold | hflushed⟩
      · exact ⟨e, he, rfl, hsealed e he hold⟩
      · exact ⟨e, he, rfl, hflushed⟩
    · rintro ⟨e, he, hid, hflushed⟩
      exact ⟨e, he, hid, .inr hflushed⟩

/-- What the view remembers stays right. -/
lemma Recorded.react (h : s.Recorded) (event : SessionEvent) : (s.react event).1.Recorded := by
  cases hfinished : s.finished with
  | true =>
    unfold Session.react
    rw [if_pos hfinished]
    exact h
  | false =>
    have hreact : (s.react event).1 = (s.note event).1.render.1 := by
      unfold Session.react
      rw [if_neg (by simp [hfinished])]
    have hout : (s.react event).1.engine.output = (s.note event).1.engine.output := by
      rw [hreact]
      rfl
    rw [hreact]
    refine recorded_render (hout ▸ wellFormed_react h.wellFormed event) fun e he hold => ?_
    rw [(s.note_fst event).1, h.entries_iff] at hold
    obtain ⟨x, hx, hid, hflushed⟩ := hold
    -- were the entry open, it could be sealed again
    by_contra hopen
    have hlater : (s.react event).1.engine.output.Unsealed e.id :=
      .inr ⟨e, hout ▸ he, rfl, Bool.eq_false_iff.2 hopen⟩
    have hearlier := unsealed_react h.wellFormed hlater
    rw [← hid] at hearlier
    exact h.wellFormed.not_unsealed hx hflushed hearlier

/-- The rendering after an event writes the entry that the event sealed, and no other. -/
theorem Recorded.rendered (h : s.Recorded) (event : SessionEvent) :
    (s.rendered event).filterMap sealedText? = (s.sealed? event).toList.map sealedText := by
  cases hfinished : s.finished with
  | true =>
    rw [Session.rendered, sealed?, update?, if_pos hfinished, if_pos hfinished]
    rfl
  | false =>
    have hout := output_note event hfinished
    -- rendering does not touch the log, so that its numbers differ before the rendering too
    have hnodup : (s.note event).1.engine.output.ids.Nodup := by
      rw [hout, ← output_react]
      exact (wellFormed_react h.wellFormed event).nodup_ids
    have hdue : View.isDue s.view.entries =
        fun x => x.flushed && !(s.view.entries.get? x.id).isSome := by
      funext x
      rw [View.isDue, Option.not_isSome]
    have hrendered : s.rendered event =
        ((s.note event).1.view.render (s.note event).1.engine).2 := by
      rw [Session.rendered, if_neg (by simp [hfinished])]
      rfl
    have hnew : (s.note event).1.engine.output.entries.filter (View.isDue s.view.entries) =
        (s.sealed? event).toList := by
      rw [hout, hdue, sealed?]
      cases s.update? event with
      | none =>
        refine List.filter_eq_nil_iff.2 fun x hx hx' => ?_
        rw [h.isSome_eq hx] at hx'
        exact absurd hx' (by simp)
      | some update =>
        exact (OutputLog.change_perform h.wellFormed.nodup_ids update).filter_sealed
          h.wellFormed.nodup_ids (fun id => (s.view.entries.get? id).isSome)
          fun x hx => h.isSome_eq hx
    rw [hrendered, sealedText?_render hnodup, (s.note_fst event).1, hnew]

/-! ## A whole session -/

/-- What each event of a list seals. -/
def sealings (s : Session) : List SessionEvent → List (Option OutputEntry)
  | [] => []
  | event :: events => s.sealed? event :: (s.react event).1.sealings events

/-- What is written by the rendering right after each event of a list. -/
def renderings (s : Session) : List SessionEvent → List (List TerminalLine)
  | [] => []
  | event :: events => s.rendered event :: (s.react event).1.renderings events

lemma Recorded.reactAll (h : s.Recorded) (events : List SessionEvent) :
    (s.reactAll events).1.Recorded := by
  induction events generalizing s with
  | nil => exact h
  | cons event rest ih => exact ih (h.react event)

/-- Each rendering writes what the event before it sealed. -/
lemma Recorded.renderings (h : s.Recorded) (events : List SessionEvent) :
    (s.renderings events).map (·.filterMap sealedText?) =
      (s.sealings events).map (·.toList.map sealedText) := by
  induction events generalizing s with
  | nil => rfl
  | cons event rest ih =>
    rw [Session.renderings, sealings, List.map_cons, List.map_cons, h.rendered, ih (h.react event)]

end Session

end TraceTimeline
