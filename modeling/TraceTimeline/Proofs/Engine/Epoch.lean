import TraceTimeline.Proofs.Engine.Visible

/-!
# Epochs

The epoch of an engine counts how often the time line was replaced or cleared.  An operation after
which it is the same did not drop the history: it made other updates of the store only
(`Engine.perform_epoch`).  So within an epoch the store is continued: what was retained still is, or
it is past for good (`Engine.continues_perform`).
-/

namespace TraceTimeline

namespace Engine

/-- An operation continues the time line by updates that do not drop it, or begins another one. -/
theorem perform_epoch (e : Engine) (op : Operation) :
    ((e.perform op).1.epoch = e.epoch ∧
      ∃ updates : List Store.Operation,
        (∀ u ∈ updates, u.isReset = false) ∧ e.store.run updates = (e.perform op).1.store) ∨
      (e.perform op).1.epoch = e.epoch + 1 := by
  have stays : ∃ updates : List Store.Operation,
      (∀ u ∈ updates, u.isReset = false) ∧ e.store.run updates = e.store :=
    ⟨[], fun _ hu => absurd hu List.not_mem_nil, rfl⟩
  have single {u : Store.Operation} (hu : u.isReset = false) :
      ∃ updates : List Store.Operation,
        (∀ u ∈ updates, u.isReset = false) ∧ e.store.run updates = e.store.perform u :=
    ⟨[u], by simpa using hu, rfl⟩
  refine perform_frame_cases
    (P := fun e' => (e'.epoch = e.epoch ∧
      ∃ updates : List Store.Operation,
        (∀ u ∈ updates, u.isReset = false) ∧ e.store.run updates = e'.store) ∨
      e'.epoch = e.epoch + 1)
    (fun a b ha hab => ?_) (fun _ _ => .inl ⟨rfl, stays⟩) (fun f _ => ?_) (fun id _ => ?_)
    (fun _ => .inl ⟨rfl, single (u := .followLive) rfl⟩) (fun _ _ _ => .inl ⟨rfl, stays⟩)
    (fun _ => .inl ⟨rfl, stays⟩) (fun _ => .inr rfl)
  · have hstore : a.store = b.store := congrArg (·.1.1) hab
    have hepoch : a.epoch = b.epoch := congrArg (·.2.2) hab
    rwa [hstore, hepoch] at ha
  · cases f with
    | event x =>
      refine .inl ⟨e.epoch_applyStep x, ?_⟩
      show ∃ updates : List Store.Operation,
        (∀ u ∈ updates, u.isReset = false) ∧ e.store.run updates = (e.applyStep x).store
      cases hx : e.store.isPast x.id with
      | true =>
        rw [applyStep_of_isPast hx]
        exact stays
      | false =>
        rw [store_applyStep hx]
        -- a step that is heard makes two updates: it is put in, and the cursor may follow
        exact ⟨[.upsert x, .advanceLive x.id], by simp [Store.Operation.isReset], rfl⟩
    | sync p => exact .inr rfl
    | chunk channel text => exact .inl ⟨rfl, stays⟩
    | flush channel => exact .inl ⟨rfl, stays⟩
  · left
    have hpin := single (u := .pin id) rfl
    unfold selectStep
    split
    · next store heq =>
      have hstore : e.store.perform (.pin id) = store := congrArg (·.1) heq
      rw [hstore] at hpin
      exact ⟨rfl, hpin⟩
    · exact ⟨rfl, stays⟩

/-- An operation continues the store, or it begins another epoch. -/
theorem continues_perform {e : Engine} (h : e.store.Sound) (op : Operation) :
    ((e.perform op).1.epoch = e.epoch ∧ e.store.Continues (e.perform op).1.store) ∨
      (e.perform op).1.epoch = e.epoch + 1 := by
  refine (e.perform_epoch op).imp_left fun ⟨hepoch, updates, hupdates, hrun⟩ => ⟨hepoch, ?_⟩
  rw [← hrun]
  exact h.continues_run hupdates

end Engine

end TraceTimeline
