import TraceTimeline.Proofs.Terminal.View
import TraceTimeline.Terminal.Screen

/-!
# The cursor that is shown

The last line that a view wrote about the cursor always names the step where the cursor is.  The
line also says which source line is highlighted and whether the cursor follows live, but the view
looks at the number of the step alone when it decides whether to write another one.  So what the
line says of these two is what was the case when the cursor came to its step: at the first of the
last renderings that all had the present time line and the present cursor
(`Screen.cursor_shown_since`).  Between that rendering and the last one both may have changed
without a new line (`Screen.cursor_line_left_behind`).
-/

namespace TraceTimeline

/-! ## Lines about the cursor -/

namespace TerminalLine

variable {log lines : List TerminalLine}

/-- Whether a line says where the cursor is. -/
def isCursor : TerminalLine → Bool
  | .cursor .. => true
  | _ => false

/-- The last line of a log that says where the cursor is. -/
def lastCursor? (log : List TerminalLine) : Option TerminalLine := (log.filter isCursor).getLast?

lemma lastCursor?_append :
    lastCursor? (log ++ lines) = (lastCursor? lines).or (lastCursor? log) := by
  rw [lastCursor?, List.filter_append, List.getLast?_append]
  rfl

lemma lastCursor?_eq_none (h : ∀ l ∈ lines, l.isCursor = false) : lastCursor? lines = none := by
  rw [lastCursor?, List.filter_eq_nil_iff.2 fun l hl => by simp [h l hl]]
  rfl

end TerminalLine

namespace Engine

/-- The line that says where the cursor of an engine is, if it has one. -/
def cursorLine? (e : Engine) : Option TerminalLine :=
  e.cursor.map fun id => .cursor id e.highlighted e.store.follow

/-- Whether two engines have the same time line and the same cursor. -/
def SamePlace (e e' : Engine) : Prop := e.epoch = e'.epoch ∧ e.cursor = e'.cursor

end Engine

/-! ## What a rendering says of the cursor -/

namespace View

open TerminalLine

variable {v : View} {e : Engine}

/-- The lines for steps do not say where the cursor is. -/
lemma isCursor_renderStepList (shown : OrderedMap StepId String) (l : List Step) :
    ∀ line ∈ (renderStepList shown l).2, line.isCursor = false := by
  induction l generalizing shown with
  | nil => exact fun _ hline => absurd hline List.not_mem_nil
  | cons x rest ih =>
    rw [renderStepList_cons]
    refine List.forall_mem_append.2 ⟨?_, ih _⟩
    rw [lines_renderStep]
    split
    · exact fun _ hline => absurd hline List.not_mem_nil
    · exact List.forall_mem_singleton.2 rfl

/-- Neither do those for output entries. -/
lemma isCursor_renderEntryList (written : OrderedMap Nat Unit) (l : List OutputEntry) :
    ∀ line ∈ (renderEntryList written l).2, line.isCursor = false := by
  induction l generalizing written with
  | nil => exact fun _ hline => absurd hline List.not_mem_nil
  | cons x rest ih =>
    rw [renderEntryList_cons]
    split
    · exact List.forall_mem_cons.2 ⟨rfl, ih _⟩
    · exact ih _

lemma isCursor_headLines : ∀ line ∈ v.headLines e, line.isCursor = false := by
  refine List.forall_mem_append.2 ⟨?_, ?_⟩
  · unfold renderConnection
    split <;> simp [isCursor]
  · unfold renderEpoch
    split <;> simp [isCursor]

lemma lastCursor?_cursorLines (shown : Option StepId) :
    lastCursor? (cursorLines e shown) = if e.cursor = shown then none else e.cursorLine? := by
  unfold cursorLines Engine.cursorLine?
  split
  · rfl
  · cases e.cursor <;> rfl

/-- What a log says of the cursor after a rendering. -/
lemma lastCursor?_render (log : List TerminalLine) :
    lastCursor? (log ++ (v.render e).2) =
      if e.cursor = v.standingCursor e then lastCursor? log
      else e.cursorLine?.or (lastCursor? log) := by
  have hbefore : ∀ line ∈ v.headLines e ++ (renderStepList (v.standing e) e.store.steps.toList).2 ++
      (renderEntryList v.entries e.output.entries).2, line.isCursor = false :=
    List.forall_mem_append.2 ⟨List.forall_mem_append.2 ⟨isCursor_headLines,
      isCursor_renderStepList _ _⟩, isCursor_renderEntryList _ _⟩
  rw [render_eq]
  dsimp only
  rw [lastCursor?_append, lastCursor?_append, lastCursor?_eq_none hbefore, Option.or_none,
    lastCursor?_cursorLines]
  split <;> rfl

lemma cursor_render : (v.render e).1.cursor = e.cursor := by
  rw [render_eq]

end View

/-! ## Along a run -/

namespace Screen

open TerminalLine

variable {s : Screen} {es : List Engine} {e first prev : Engine}

/-- The engines at the renderings of a run, in order. -/
def renderings (s : Screen) : List Operation → List Engine
  | [] => []
  | .engine op :: ops => (s.operate op).renderings ops
  | .render :: ops => s.engine :: s.render.renderings ops

/-- From one engine on, the last ones of a list have the time line and the cursor of an engine.  The
one before does not, if there is one. -/
def Since (es : List Engine) (e first : Engine) : Prop :=
  ∃ earlier later : List Engine, es = earlier ++ first :: later ∧
    (∀ x ∈ first :: later, x.SamePlace e) ∧ ∀ x ∈ earlier.getLast?, ¬x.SamePlace e

lemma Since.self (h : ∀ x ∈ es.getLast?, ¬x.SamePlace e) : Since (es ++ [e]) e e :=
  ⟨es, [], rfl, List.forall_mem_singleton.2 ⟨rfl, rfl⟩, h⟩

/-- A rendering with the time line and the cursor of the one before is not the first. -/
lemma Since.extend (h : Since es prev first) (hsame : prev.SamePlace e) :
    Since (es ++ [e]) e first := by
  obtain ⟨earlier, later, rfl, hlater, hearlier⟩ := h
  obtain ⟨hepoch, hcursor⟩ := hsame
  have hiff (x : Engine) : x.SamePlace prev ↔ x.SamePlace e := by
    rw [Engine.SamePlace, Engine.SamePlace, hepoch, hcursor]
  refine ⟨earlier, later ++ [e], by simp, ?_, fun x hx => mt (hiff x).2 (hearlier x hx)⟩
  rw [← List.cons_append]
  exact List.forall_mem_append.2
    ⟨fun x hx => (hiff x).1 (hlater x hx), List.forall_mem_singleton.2 ⟨rfl, rfl⟩⟩

/-- What a screen knows of its renderings: the view remembers time line and cursor of the last one,
and if that had a cursor, the log says what was the case when the cursor came to its step. -/
structure Traced (s : Screen) (es : List Engine) : Prop where
  epoch : s.view.epoch = es.getLast?.map (·.epoch)
  cursor : s.view.cursor = es.getLast?.bind (·.cursor)
  shown : ∀ e ∈ es.getLast?, e.cursor.isSome →
    ∃ first, Since es e first ∧ lastCursor? s.log = first.cursorLine?

namespace Traced

lemma new (settings : EngineSettings) : (new settings).Traced [] where
  epoch := rfl
  cursor := rfl
  shown _ he := absurd he (by simp)

/-- The cursor that counts as shown is that of the last rendering, if that had the time line. -/
lemma standingCursor_eq_some_iff (h : s.Traced es) {id : StepId} :
    s.view.standingCursor s.engine = some id ↔
      ∃ prev ∈ es.getLast?, prev.epoch = s.engine.epoch ∧ prev.cursor = some id := by
  rw [View.standingCursor, h.epoch, h.cursor]
  cases es.getLast? with
  | none => simp
  | some prev => simp

/-- A rendering writes where the cursor is, unless it is where it was at the rendering before. -/
lemma render (h : s.Traced es) : s.render.Traced (es ++ [s.engine]) where
  epoch := by
    rw [List.getLast?_concat]
    exact View.epoch_render
  cursor := by
    rw [List.getLast?_concat]
    exact View.cursor_render
  shown e he hcursor := by
    rw [List.getLast?_concat] at he
    obtain rfl : s.engine = e := Option.some.inj he
    obtain ⟨id, hid⟩ := Option.isSome_iff_exists.1 hcursor
    have hlog : lastCursor? s.render.log = _ := View.lastCursor?_render s.log
    rw [hlog]
    by_cases hstays : s.engine.cursor = s.view.standingCursor s.engine
    · rw [if_pos hstays]
      obtain ⟨prev, hprev, hepoch, hsame⟩ := h.standingCursor_eq_some_iff.1 (hstays.symm.trans hid)
      obtain ⟨first, hsince, hfirst⟩ := h.shown prev hprev (by simp [hsame])
      exact ⟨first, hsince.extend ⟨hepoch, hsame.trans hid.symm⟩, hfirst⟩
    · rw [if_neg hstays]
      refine ⟨s.engine, Since.self fun x hx hsame => hstays ?_, by simp [Engine.cursorLine?, hid]⟩
      rw [hid, h.standingCursor_eq_some_iff.2 ⟨x, hx, hsame.1, hsame.2.trans hid⟩]

/-- Whatever happens, the view keeps track of the renderings. -/
lemma run (h : s.Traced es) (ops : List Operation) :
    (s.run ops).Traced (es ++ s.renderings ops) := by
  induction ops generalizing s es with
  | nil => rwa [renderings, List.append_nil]
  | cons op rest ih =>
    cases op with
    | engine op => exact ih (s := s.operate op) ⟨h.epoch, h.cursor, h.shown⟩
    | render =>
      rw [renderings, List.append_cons]
      exact ih h.render

end Traced

/-- The renderings of a run that goes on with another one. -/
lemma renderings_concat_render (s : Screen) (ops : List Operation) :
    s.renderings (ops ++ [.render]) = s.renderings ops ++ [(s.run ops).engine] := by
  induction ops generalizing s with
  | nil => rfl
  | cons op rest ih =>
    cases op with
    | engine op => exact ih (s.operate op)
    | render => exact congrArg (s.engine :: ·) (ih s.render)

/-- The last line about the cursor names the step where the cursor is.  Whatever operations and
renderings a screen went through, after one more rendering with a cursor there is such a line, for
that cursor.  Its highlighted line and its mode are those of the first of the last renderings that
had this time line and this cursor; so the line is that of the engine if and only if the engine has
the same two. -/
theorem cursor_shown_since {settings : EngineSettings} {ops : List Operation} {id : StepId}
    (hcursor : ((new settings).run ops).engine.cursor = some id) :
    let s := ((new settings).run ops).render
    ∃ first : Engine, Since ((new settings).renderings (ops ++ [.render])) s.engine first ∧
      lastCursor? s.log = some (.cursor id first.highlighted first.store.follow) ∧
      (lastCursor? s.log = s.engine.cursorLine? ↔
        first.highlighted = s.engine.highlighted ∧ first.store.follow = s.engine.store.follow) := by
  intro s
  have hlast : s.engine ∈ ((new settings).renderings (ops ++ [.render])).getLast? := by
    rw [renderings_concat_render, List.getLast?_concat]
    rfl
  have htraced : s.Traced ((new settings).renderings (ops ++ [.render])) := by
    rw [renderings_concat_render]
    exact ((Traced.new settings).run ops).render
  have hsome : s.engine.cursor.isSome := Option.isSome_of_eq_some hcursor
  obtain ⟨first, hsince, hlog⟩ := htraced.shown s.engine hlast hsome
  have hplace : first.cursor = some id := by
    obtain ⟨earlier, later, -, hlater, -⟩ := hsince
    exact (hlater first (List.mem_cons_self ..)).2.trans hcursor
  have hline : lastCursor? s.log = some (.cursor id first.highlighted first.store.follow) := by
    rw [hlog, Engine.cursorLine?, hplace, Option.map_some]
  have hengine : s.engine.cursorLine? =
      some (.cursor id s.engine.highlighted s.engine.store.follow) := by
    rw [Engine.cursorLine?, show s.engine.cursor = some id from hcursor, Option.map_some]
  refine ⟨first, hsince, hline, ?_⟩
  rw [hline, hengine]
  simp

/-- Two steps arrive and are shown, and then the earlier one is selected: it is shown as pinned, at
its line. -/
theorem cursor_shown_since_selected :
    let ops : List Operation := [.engine (.frame (.event (Step.ofLine 1 7))),
      .engine (.frame (.event (Step.ofLine 2 8))), .render, .engine (.selectStep 1)]
    let s := ((new ⟨8, .sticky, 8, 1000⟩).run ops).render
    s.engine.cursor = some 1 ∧
      (∃ first : Engine,
        Since ((new ⟨8, .sticky, 8, 1000⟩).renderings (ops ++ [.render])) s.engine first ∧
          lastCursor? s.log = some (.cursor 1 first.highlighted first.store.follow)) ∧
      lastCursor? s.log = some (.cursor 1 (some 7) .pinned) := by
  intro ops s
  have hcursor : s.engine.cursor = some 1 := by decide +kernel
  obtain ⟨first, hsince, hline, -⟩ := @cursor_shown_since ⟨8, .sticky, 8, 1000⟩ ops 1 hcursor
  exact ⟨hcursor, ⟨first, hsince, hline⟩, by decide +kernel⟩

/-- The line about the cursor can be left behind.  The step where the cursor is anyway is selected;
the newest step is pinned when the cursor follows live again; and that step comes again, at another
line, before it is highlighted anew. -/
theorem cursor_line_left_behind :
    let shown := (new ⟨8, .sticky, 8, 1000⟩).run [.engine (.frame (.event (Step.ofLine 1 7)))]
    let pinned := shown.run [.render, .engine (.selectStep 1), .render]
    let followed := shown.run [.engine (.selectStep 1), .render, .engine .followLive, .render]
    let corrected := shown.run [.render, .engine (.frame (.event (Step.ofLine 1 8))),
      .engine .followLive, .render]
    (lastCursor? pinned.log = some (.cursor 1 (some 7) .live) ∧
        pinned.engine.cursorLine? = some (.cursor 1 (some 7) .pinned)) ∧
      (lastCursor? followed.log = some (.cursor 1 (some 7) .pinned) ∧
        followed.engine.cursorLine? = some (.cursor 1 (some 7) .live)) ∧
      lastCursor? corrected.log = some (.cursor 1 (some 7) .live) ∧
        corrected.engine.cursorLine? = some (.cursor 1 (some 8) .live) := by
  decide +kernel

end Screen

end TraceTimeline
