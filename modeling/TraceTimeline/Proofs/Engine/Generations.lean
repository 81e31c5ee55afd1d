import Mathlib
import TraceTimeline.Proofs.Engine.Visible

/-!
# Connections and generations

An engine keeps the state of its connection and the generation of it: its link.  What an operation
does to the link depends on the operation and the link alone, and `Engine.link_perform` says it once
for all operations.  Generations never decrease, a connection is always that of the current
generation, and fetches are made for the connection that is up when they are made.

Word of another connection than the current one is stale (`Engine.Operation.isStale`).  A stale
operation is not merely harmless, it does nothing at all, to no part of the engine, so that a run
may as well be carried out without the stale operations in it (`Engine.run_heeded`).
-/

namespace TraceTimeline

namespace Engine

/-! ## The link -/

/-- The state of the connection and its generation. -/
def link (e : Engine) : ConnectionState × Option Nat := (e.connection, e.generation)

lemma link_applyFrame (e : Engine) (f : Frame) : (e.applyFrame f).link = e.link := by
  cases f with
  | event x => exact congrArg (·.2) (e.surroundings_applyStep x)
  | sync p => rfl
  | chunk channel text => rfl
  | flush channel => rfl

lemma link_handleFrame (e : Engine) (text : String) : (e.handleFrame text).link = e.link := by
  rw [handleFrame_eq]
  cases (Frame.decode text).toOption with
  | none => rfl
  | some f => exact link_applyFrame e f

/-- The link after an operation: a connection that is not older than the current one takes its
place, the end of the current connection is noted, and nothing else matters. -/
lemma link_perform (e : Engine) (op : Operation) :
    (e.perform op).1.link =
      match op with
      | .transport (.connected g) =>
        if e.generation.any (g < ·) then e.link else (.connected g, some g)
      | .transport (.disconnected g _) =>
        if e.generation = some g then (.disconnected, e.generation) else e.link
      | _ => e.link := by
  cases op with
  | transport event =>
    cases event with
    | connected g =>
      show (e.handleTransport (.connected g)).1.link = _
      unfold handleTransport
      dsimp only
      split <;> rfl
    | disconnected g reason =>
      show (if e.generation = some g then _ else e).link = _
      dsimp only
      split <;> rfl
    | frame g text =>
      show (if e.generation = some g then e.handleFrame text else e).link = _
      split
      · exact link_handleFrame e text
      · rfl
  | frameText text => exact link_handleFrame e text
  | frame f => exact link_applyFrame e f
  | syncResponse g p =>
    show (if e.generation = some g then e.applySync p else e).link = _
    split <;> rfl
  | selectNode line =>
    show (e.selectNode line).1.link = _
    unfold selectNode
    split <;> rfl
  | selectStep id =>
    show (e.selectStep id).1.link = _
    unfold selectStep
    split <;> rfl
  | followLive => rfl
  | requestContinue now => rfl
  | editNode line code => rfl
  | clearOutput => rfl
  | restartBackend => rfl
  | backendRestarted => rfl

/-- The generation after an operation. -/
lemma generation_perform_eq (e : Engine) (op : Operation) :
    (e.perform op).1.generation =
      match op with
      | .transport (.connected g) => if e.generation.any (g < ·) then e.generation else some g
      | _ => e.generation := by
  have hlink : (e.perform op).1.generation = (e.perform op).1.link.2 := rfl
  rw [hlink, link_perform]
  cases op with
  | transport event =>
    cases event with
    | connected g =>
      dsimp only
      split <;> rfl
    | disconnected g reason =>
      dsimp only
      split <;> rfl
    | frame g text => rfl
  | _ => rfl

lemma generation_perform (e : Engine) {op : Operation}
    (hop : ∀ g, op ≠ .transport (.connected g)) : (e.perform op).1.generation = e.generation := by
  rw [generation_perform_eq]
  split
  · next g => exact absurd rfl (hop g)
  · rfl

/-- An operation does not decrease the generation. -/
lemma generation_le_perform {e : Engine} {g : Nat} (hg : e.generation = some g) (op : Operation) :
    ∃ g', (e.perform op).1.generation = some g' ∧ g ≤ g' := by
  rw [generation_perform_eq]
  split
  · next new =>
    -- word of an older connection is not heeded
    by_cases holder : new < g
    · refine ⟨g, ?_, Nat.le_refl g⟩
      rw [if_pos (by simpa [hg] using holder), hg]
    · refine ⟨new, ?_, Nat.not_lt.1 holder⟩
      rw [if_neg (by simpa [hg] using holder)]
  · exact ⟨g, hg, Nat.le_refl g⟩

/-- Nor does a list of operations. -/
lemma generation_le_run {e : Engine} {g : Nat} (hg : e.generation = some g)
    (ops : List Operation) : ∃ g', (e.run ops).1.generation = some g' ∧ g ≤ g' := by
  induction ops generalizing e g with
  | nil => exact ⟨g, hg, Nat.le_refl g⟩
  | cons op rest ih =>
    obtain ⟨g', hg', hle⟩ := generation_le_perform hg op
    obtain ⟨g'', hg'', hle'⟩ := ih hg'
    exact ⟨g'', hg'', hle.trans hle'⟩

/-! ## Connections are of the current generation -/

/-- The connection that is up is the one of the current generation, and there was none before the
first generation. -/
structure Linked (e : Engine) : Prop where
  current : ∀ g, e.connection = .connected g → e.generation = some g
  first : e.generation = none → e.connection = .connecting

/-- Whether an engine is linked depends on its link. -/
lemma Linked.congr {e e' : Engine} (h : Linked e) (hlink : e'.link = e.link) : Linked e' := by
  obtain ⟨hconnection, hgeneration⟩ := Prod.mk.inj hlink
  constructor
  · rw [hconnection, hgeneration]
    exact h.current
  · rw [hconnection, hgeneration]
    exact h.first

/-- An engine stays linked, whatever the operation. -/
lemma Linked.perform {e : Engine} (h : Linked e) (op : Operation) : Linked (e.perform op).1 := by
  have hlink := link_perform e op
  -- a new connection, the end of one, or an operation that leaves the link as it is
  split at hlink
  · next g =>
    split at hlink
    · exact h.congr hlink
    · obtain ⟨hconnection, hgeneration⟩ := Prod.mk.inj hlink
      constructor
      · intro g' hg'
        rw [hconnection, ConnectionState.connected.injEq] at hg'
        rw [hgeneration, hg']
      · intro hnone
        rw [hgeneration] at hnone
        exact absurd hnone (by simp)
  · next g reason =>
    split at hlink
    · next hg =>
      obtain ⟨hconnection, hgeneration⟩ := Prod.mk.inj hlink
      constructor
      · intro g' hg'
        rw [hconnection] at hg'
        exact absurd hg' (by simp)
      · intro hnone
        rw [hgeneration, hg] at hnone
        exact absurd hnone (by simp)
    · exact h.congr hlink
  · exact h.congr hlink

/-- Every reachable engine is linked. -/
lemma Reachable.linked {settings : EngineSettings} {e : Engine} (h : Reachable settings e) :
    Linked e := by
  obtain ⟨ops, rfl⟩ := h
  have hnew : Linked (new settings) := ⟨fun g hg => absurd hg (by simp [new]), fun _ => rfl⟩
  generalize new settings = e at hnew
  induction ops generalizing e with
  | nil => exact hnew
  | cons op rest ih => exact ih (e.perform op).1 (hnew.perform op)

/-- A fetch is made for the connection that is up afterwards. -/
lemma Linked.link_of_fetchSync {e : Engine} (h : Linked e) {op : Operation} {g : Nat}
    (hg : .fetchSync g ∈ (e.perform op).2) : (e.perform op).1.link = (.connected g, some g) := by
  rw [link_perform]
  cases mem_effects_iff.1 hg with
  | connected hnew => exact if_neg (by rw [hnew]; exact Bool.false_ne_true)
  | @restarted _ up hgeneration hup =>
    -- the connection that is up is that of the current generation, which the new run fetches for
    obtain rfl : g = up := Option.some.inj (hgeneration.symm.trans (h.current up hup))
    exact Prod.ext hup hgeneration

/-! ## Stale operations -/

/-- Whether an operation is word of another connection than that of the current generation.  Of a
new connection this is said if it is older. -/
def Operation.isStale (generation : Option Nat) : Operation → Bool
  | .transport (.connected g) => generation.any (g < ·)
  | .transport (.disconnected g _) => generation ≠ some g
  | .transport (.frame g _) => generation ≠ some g
  | .syncResponse g _ => generation ≠ some g
  | _ => false

/-- The operations of a list without those that are stale when it is their turn. -/
def heeded (e : Engine) : List Operation → List Operation
  | [] => []
  | op :: ops =>
    if op.isStale e.generation then (e.perform op).1.heeded ops
    else op :: (e.perform op).1.heeded ops

/-- A stale operation does nothing and has no effect. -/
lemma perform_of_isStale {e : Engine} {op : Operation} (h : op.isStale e.generation = true) :
    e.perform op = (e, []) := by
  cases op with
  | transport event =>
    cases event with
    | connected g =>
      have holder : e.generation.any (g < ·) = true := h
      show e.handleTransport (.connected g) = _
      unfold handleTransport
      dsimp only
      rw [if_pos holder]
    | disconnected g reason =>
      have hother : e.generation ≠ some g := by simpa [Operation.isStale] using h
      show ((if e.generation = some g then _ else e), []) = _
      rw [if_neg hother]
    | frame g text =>
      have hother : e.generation ≠ some g := by simpa [Operation.isStale] using h
      show ((if e.generation = some g then e.handleFrame text else e), []) = _
      rw [if_neg hother]
  | syncResponse g p =>
    have hother : e.generation ≠ some g := by simpa [Operation.isStale] using h
    show ((if e.generation = some g then e.applySync p else e), []) = _
    rw [if_neg hother]
  | _ => exact absurd h (by simp [Operation.isStale])

lemma run_cons (e : Engine) (op : Operation) (ops : List Operation) :
    e.run (op :: ops) =
      (((e.perform op).1.run ops).1, (e.perform op).2 ++ ((e.perform op).1.run ops).2) := rfl

/-- Without its stale operations a run leads to the same engine and has the same effects. -/
lemma run_heeded (e : Engine) (ops : List Operation) : e.run (e.heeded ops) = e.run ops := by
  induction ops generalizing e with
  | nil => rfl
  | cons op rest ih =>
    rw [heeded]
    split
    · next hstale =>
      have hidle : e.perform op = (e, []) := perform_of_isStale hstale
      rw [run_cons, hidle, ih e]
      rfl
    · rw [run_cons, run_cons, ih (e.perform op).1]

/-- Stale connections do not interfere.  Take any list of operations of a new engine, with any
generations in any order.  The connection that is up is always that of the current generation, and
before the first generation the engine is still connecting.  Whatever is done next, a fetch is made
only for the generation that is then current, with its connection up.  The generation does not
decrease from then on.  And without what is stale at its time (reports, frames and answers of
another generation than the current one, and new connections of an older one) the list leads to the
same engine in every respect, with the same effects in the same order. -/
theorem stale_operations_inert (settings : EngineSettings) (ops : List Operation) :
    let e := ((new settings).run ops).1
    (∀ g, e.connection = .connected g → e.generation = some g) ∧
      (e.generation = none → e.connection = .connecting) ∧
      (∀ op g, .fetchSync g ∈ (e.perform op).2 →
        (e.perform op).1.generation = some g ∧ (e.perform op).1.connection = .connected g) ∧
      (∀ later g, e.generation = some g → ∃ g', (e.run later).1.generation = some g' ∧ g ≤ g') ∧
      (new settings).run ((new settings).heeded ops) = (new settings).run ops := by
  intro e
  have hlinked : Linked e := Reachable.linked ⟨ops, rfl⟩
  refine ⟨hlinked.current, hlinked.first, fun op g hg => ?_, fun later g hg => ?_, ?_⟩
  · obtain ⟨hconnection, hgeneration⟩ := Prod.mk.inj (hlinked.link_of_fetchSync hg)
    exact ⟨hgeneration, hconnection⟩
  · exact generation_le_run hg later
  · exact run_heeded (new settings) ops

/-- Two connections overlap: the second one comes up before the end of the first is known.  What the
first still reports, sends and answers is passed over, and so is its second coming. -/
theorem stale_operations_inert_overlapping :
    let payload : SyncPayload := ⟨[], [Step.ofLine 7 2], some 7, none⟩
    let ops : List Operation :=
      [.transport (.connected 1), .transport (.connected 2), .transport (.frame 1 "x"),
        .syncResponse 1 payload, .requestContinue 5, .transport (.frame 1 "x"),
        .transport (.disconnected 1 "reset"), .transport (.connected 1),
        .transport (.frame 2 "x"), .requestContinue 6]
    let fresh := new ⟨8, .sticky, 8, 1000⟩
    fresh.heeded ops =
        [.transport (.connected 1), .transport (.connected 2), .requestContinue 5,
          .transport (.frame 2 "x"), .requestContinue 6] ∧
      (fresh.run ops).1.connection = .connected 2 ∧
      (fresh.run ops).2 = [.fetchSync 1, .fetchSync 2, .send .resume, .send .resume] ∧
      fresh.run (fresh.heeded ops) = fresh.run ops ∧
      ((fresh.run ops).1.backendRestarted.2 = [.fetchSync 2] ∧
        (fresh.run ops).1.generation = some 2) := by
  intro payload ops fresh
  obtain ⟨hcurrent, -, -, -, hrun⟩ := stale_operations_inert ⟨8, .sticky, 8, 1000⟩ ops
  have hconnection : (fresh.run ops).1.connection = .connected 2 := by decide +kernel
  exact ⟨by decide +kernel, hconnection, by decide +kernel, hrun, by decide +kernel,
    hcurrent 2 hconnection⟩

end Engine

end TraceTimeline
