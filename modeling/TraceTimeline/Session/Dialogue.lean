import TraceTimeline.Operator.Input
import TraceTimeline.Session.Basic

/-!
# Dialogues

A dialogue is a session together with the operator's input and the answers that the backend will
give when it is asked.  It runs a session as a whole: events are reacted to in the order in which
they arrive, and an answer arrives after all events that were waiting when it was asked for.

An event leads to a bounded number of rounds of answers, its depth.  `settle_succ` says that more
rounds than that change nothing, so `Dialogue.hear` leaves nothing to be answered.
-/

namespace TraceTimeline

/-- The answers that the backend will give, in order.  A request beyond the last one finds no
connection. -/
structure BackendAnswers where
  sync : List (Except TransportError SyncPayload)
  start : List (Except TransportError Unit)

/-- The number of rounds of answers that an event may lead to: a command may ask for a new run, the
answer to that may ask for a sync payload, and the answer to that asks for nothing. -/
def SessionEvent.depth : SessionEvent → Nat
  | .command .. => 2
  | .transport _ => 1
  | .backendStarted _ => 1
  | .syncLoaded .. => 0
  | .inputEnded => 0

/-- The number of rounds of answers that some events may lead to. -/
def SessionEvent.greatestDepth (events : List SessionEvent) : Nat :=
  events.foldr (fun e n => max e.depth n) 0

/-- The number of rounds of answers that an effect leads to, its own answer included. -/
def Effect.depth : Effect → Nat
  | .send _ => 0
  | .fetchSync _ => 1
  | .startBackend => 2

/-- A request to the backend that is not made over the push channel. -/
inductive BackendCall where
  | fetchSync
  | startRun
deriving DecidableEq, Repr

/-- The first of some answers, and the others. -/
def BackendAnswers.next {α : Type} :
    List (Except TransportError α) → Except TransportError α × List (Except TransportError α)
  | [] => (.error .notConnected, [])
  | answer :: rest => (answer, rest)

/-- The state of a dialogue. -/
structure Dialogue where
  session : Session
  input : OperatorInput
  backend : BackendAnswers

/-- What happens in one exchange of a dialogue. -/
structure Exchange where
  /-- What is written to the terminal. -/
  lines : List TerminalLine
  /-- The lines of the operator that were no commands. -/
  mistakes : List CommandError
  /-- What the backend is asked for. -/
  calls : List BackendCall

namespace Dialogue

/-- A dialogue that begins, and what it writes at first. -/
def start (settings : EngineSettings) (backend : BackendAnswers) : Dialogue × Exchange :=
  let (session, lines) := Session.start settings
  (⟨session, OperatorInput.empty, backend⟩, ⟨lines, [], []⟩)

/-- Asks the backend for what effects want of it.  Gives the calls that are made and the events that
answer them.  What is sent over the push channel is not answered. -/
def ask (answers : BackendAnswers) :
    List Effect → BackendAnswers × List BackendCall × List SessionEvent
  | [] => (answers, [], [])
  | .send _ :: effects => ask answers effects
  | .fetchSync generation :: effects =>
    let (answer, sync) := BackendAnswers.next answers.sync
    let (answers, calls, events) := ask { answers with sync := sync } effects
    (answers, .fetchSync :: calls, .syncLoaded generation answer :: events)
  | .startBackend :: effects =>
    let (answer, start) := BackendAnswers.next answers.start
    let (answers, calls, events) := ask { answers with start := start } effects
    (answers, .startRun :: calls, .backendStarted answer :: events)

/-- Reacts to events, then to the answers that the reactions ask for, and so on for a number of
rounds. -/
def settle (d : Dialogue) : Nat → List SessionEvent → Dialogue × Exchange
  | 0, _ => (d, ⟨[], [], []⟩)
  | _ + 1, [] => (d, ⟨[], [], []⟩)
  | rounds + 1, events =>
    let (session, reaction) := d.session.reactAll events
    let (backend, calls, answers) := ask d.backend reaction.effects
    let (d, later) := settle { d with session := session, backend := backend } rounds answers
    (d, ⟨reaction.lines ++ later.lines, [], calls ++ later.calls⟩)

/-- Reacts to events until nothing is left to be answered. -/
def hear (d : Dialogue) (events : List SessionEvent) : Dialogue × Exchange :=
  d.settle (SessionEvent.greatestDepth events + 1) events

/-- The event for something that the operator said. -/
def event? (now : Millis) : Utterance → Option SessionEvent
  | .command c => some (.command c now)
  | .mistake _ => none
  | .ended => some .inputEnded

/-- The mistake in something that the operator said. -/
def mistake? : Utterance → Option CommandError
  | .mistake e => some e
  | _ => none

/-- Reacts to what the operator said. -/
def answer (d : Dialogue) (now : Millis) (heard : List Utterance) : Dialogue × Exchange :=
  let (d, e) := d.hear (heard.filterMap (event? now))
  (d, { e with mistakes := heard.filterMap mistake? })

/-- Reacts to bytes that the operator typed. -/
def type (d : Dialogue) (now : Millis) (bytes : List UInt8) : Dialogue × Exchange :=
  let (input, heard) := d.input.feed bytes
  { d with input := input }.answer now heard

/-- Reacts to the end of the operator's input. -/
def endInput (d : Dialogue) (now : Millis) : Dialogue × Exchange :=
  let (input, heard) := d.input.close
  { d with input := input }.answer now heard

/-- A whole dialogue with an operator whose input is known, and a backend that is not there. -/
def transcript (settings : EngineSettings) (input : List UInt8) : Exchange :=
  let (d, first) := start settings ⟨[], []⟩
  let (typed, heard) := d.input.feed input
  let (_, later) := d.answer 0 (heard ++ typed.close.2)
  ⟨first.lines ++ later.lines, later.mistakes, first.calls ++ later.calls⟩

/-! ## Nothing is left to be answered -/

/-- An operation of the engine asks for nothing beyond the depth of the event behind it. -/
theorem depth_le_of_mem_note {s : Session} {event : SessionEvent} {x : Effect}
    (h : x ∈ (s.note event).2.effects) : x.depth ≤ event.depth := by
  cases event with
  | transport event =>
    cases event with
    | connected g =>
      simp only [Session.note, Session.operate, Engine.perform, Engine.handleTransport] at h
      split at h <;> simp_all [Effect.depth, SessionEvent.depth]
    | disconnected g reason =>
      simp [Session.note, Session.operate, Engine.perform, Engine.handleTransport] at h
    | frame g text =>
      simp [Session.note, Session.operate, Engine.perform, Engine.handleTransport] at h
  | syncLoaded g answer =>
    cases answer <;> simp [Session.note, Session.operate, Engine.perform, Reaction.none] at h
  | backendStarted answer =>
    cases answer with
    | error e => simp [Session.note] at h
    | ok u =>
      simp only [Session.note, Session.operate, Engine.perform, Engine.backendRestarted] at h
      split at h <;> simp_all [Effect.depth, SessionEvent.depth]
  | inputEnded => simp [Session.note, Reaction.none] at h
  | command command now => cases x <;> simp [Effect.depth, SessionEvent.depth]

theorem depth_le_of_mem_react {s : Session} {event : SessionEvent} {x : Effect}
    (h : x ∈ (s.react event).2.effects) : x.depth ≤ event.depth := by
  unfold Session.react at h
  split at h
  · simp [Reaction.none] at h
  · rcases List.mem_append.1 h with h | h
    · exact depth_le_of_mem_note h
    · exact absurd h List.not_mem_nil

theorem depth_le_of_mem_reactAll {s : Session} {events : List SessionEvent} {x : Effect}
    (h : x ∈ (s.reactAll events).2.effects) : x.depth ≤ SessionEvent.greatestDepth events := by
  induction events generalizing s with
  | nil => simp [Session.reactAll, Reaction.none] at h
  | cons event events ih =>
    rcases List.mem_append.1 h with h | h
    · exact Nat.le_trans (depth_le_of_mem_react h) (Nat.le_max_left ..)
    · exact Nat.le_trans (ih h) (Nat.le_max_right ..)

/-- An answer leads to fewer rounds than the effect that asked for it. -/
theorem greatestDepth_ask_lt {answers : BackendAnswers} {effects : List Effect} {n : Nat}
    (h : ∀ x ∈ effects, x.depth ≤ n) (hne : (ask answers effects).2.2 ≠ []) :
    SessionEvent.greatestDepth (ask answers effects).2.2 < n := by
  induction effects generalizing answers with
  | nil => exact absurd rfl hne
  | cons x effects ih =>
    have hx := h x (List.mem_cons_self ..)
    have ih {answers : BackendAnswers} (hne : (ask answers effects).2.2 ≠ []) :=
      ih (fun y hy => h y (List.mem_cons_of_mem _ hy)) hne
    have rest {answers : BackendAnswers} {k : Nat} (hk : k < n) :
        max k (SessionEvent.greatestDepth (ask answers effects).2.2) < n := by
      by_cases hne : (ask answers effects).2.2 = []
      · rw [hne]
        simpa [SessionEvent.greatestDepth] using hk
      · exact Nat.max_lt.2 ⟨hk, ih hne⟩
    cases x with
    | send r => exact ih hne
    | fetchSync g => exact rest hx
    | startBackend => exact rest hx

/-- Once there are as many rounds as the events may lead to, further rounds change nothing: nothing
is left to be answered. -/
theorem settle_succ {d : Dialogue} {events : List SessionEvent} {rounds : Nat}
    (h : SessionEvent.greatestDepth events < rounds) :
    d.settle (rounds + 1) events = d.settle rounds events := by
  induction rounds generalizing d events with
  | zero => exact absurd h (Nat.not_lt_zero _)
  | succ rounds ih =>
    cases events with
    | nil => rfl
    | cons event events =>
      unfold settle
      dsimp only
      by_cases hne :
          (ask d.backend (d.session.reactAll (event :: events)).2.effects).2.2 = []
      · rw [hne]
        cases rounds <;> rfl
      · rw [ih]
        refine Nat.lt_of_lt_of_le (greatestDepth_ask_lt (fun x hx => ?_) hne) (Nat.le_of_lt_succ h)
        exact depth_le_of_mem_reactAll hx

end Dialogue

end TraceTimeline
