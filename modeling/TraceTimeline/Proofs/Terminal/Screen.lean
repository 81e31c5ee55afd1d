import TraceTimeline.Proofs.Engine.Epoch
import TraceTimeline.Proofs.Engine.Output
import TraceTimeline.Proofs.Terminal.Log
import TraceTimeline.Proofs.Terminal.View
import TraceTimeline.Terminal.Screen

/-!
# The log determines the time line

After a rendering, the log of a screen shows every retained step as it is.  Between renderings the
time line goes on without the view, so the invariant (`Screen.Faithful`) speaks of the numbers that
are not past: as long as the time line is the one that is shown, the log shows of them what the view
remembers, and what the view remembers of them is still retained.  What is past never comes back
within an epoch, so it does not matter that the log still shows it.
-/

namespace TraceTimeline

namespace View

open TerminalLine

variable {v : View} {e : Engine} {log : List TerminalLine} {id : StepId}

/-! ## What a rendering adds to a log -/

lemma latest?_stepLines_of_notMem {l : List Step} (hid : ∀ x ∈ l, x.id ≠ id) :
    latest? id (log ++ l.map stepLine) = latest? id log := by
  refine latest?_append fun line hline => ?_
  obtain ⟨x, hx, rfl⟩ := List.mem_map.1 hline
  exact decide_eq_false (hid x hx)

/-- Of steps with different numbers, the lines show each as it is. -/
lemma latest?_stepLines_of_mem {l : List Step} (hl : l.Pairwise fun a b => a.id < b.id) {x : Step}
    (hx : x ∈ l) : latest? x.id (log ++ l.map stepLine) = some (showStep x) := by
  obtain ⟨before, after, rfl⟩ := List.append_of_mem hx
  have habove := (List.pairwise_cons.1 (List.pairwise_append.1 hl).2.1).1
  rw [List.map_append, List.map_cons, ← List.append_assoc, List.append_cons,
    latest?_stepLines_of_notMem fun y hy => (UInt64.ne_of_lt (habove y hy)).symm, latest?_concat]
  exact if_pos rfl

/-- The lines are fresh if the log showed the steps differently. -/
lemma fresh_stepLines {l : List Step} (hl : l.Pairwise fun a b => a.id < b.id) (h : Fresh log)
    (hnew : ∀ x ∈ l, latest? x.id log ≠ some (showStep x)) : Fresh (log ++ l.map stepLine) := by
  induction l using List.reverseRecOn with
  | nil => rwa [List.map_nil, List.append_nil]
  | append_singleton rest x ih =>
    obtain ⟨hrest, -, hbelow⟩ := List.pairwise_append.1 hl
    have hother : ∀ y ∈ rest, y.id ≠ x.id := fun y hy =>
      UInt64.ne_of_lt (hbelow y hy x (List.mem_singleton_self x))
    rw [List.map_append, ← List.append_assoc]
    refine (ih hrest fun y hy => hnew y (List.mem_append_left _ hy)).concat fun id text heq => ?_
    obtain ⟨rfl, rfl⟩ := TerminalLine.step.inj heq
    rw [latest?_stepLines_of_notMem hother]
    exact hnew x (by simp)

lemma concerns_renderConnection (id : StepId) :
    ∀ l ∈ (v.renderConnection e).2, l.concerns id = false := by
  unfold renderConnection
  split
  · exact fun _ hl => absurd hl List.not_mem_nil
  · exact List.forall_mem_singleton.2 rfl

/-- The lines that follow those for the steps have no bearing on any step. -/
lemma concerns_lines_after_steps (houtput : e.output.ids.Nodup) (shown : Option StepId)
    (id : StepId) :
    ∀ l ∈ (renderEntryList v.entries e.output.entries).2 ++ cursorLines e shown,
      l.concerns id = false := by
  refine List.forall_mem_append.2 ⟨fun l hl => ?_, ?_⟩
  · rw [lines_renderEntryList houtput] at hl
    obtain ⟨x, -, rfl⟩ := List.mem_map.1 hl
    rfl
  · unfold cursorLines
    split
    · exact fun _ hl => absurd hl List.not_mem_nil
    · split
      · exact List.forall_mem_singleton.2 rfl
      · exact fun _ hl => absurd hl List.not_mem_nil

/-- A log agrees with what is remembered of steps: of the numbers that are not past in a store it
shows what is remembered, which is of retained steps only. -/
def Agrees (s : Store) (shown : OrderedMap StepId String) (log : List TerminalLine) : Prop :=
  ∀ id, s.isPast id = false →
    latest? id log = shown.get? id ∧ ((shown.get? id).isSome → s.contains id = true)

/-- After what is said of connection and epoch, the log agrees with what counts as shown. -/
lemma agrees_headLines (h : v.epoch = some e.epoch → Agrees e.store v.steps log) :
    Agrees e.store (v.standing e) (log ++ v.headLines e) := by
  intro id hid
  rw [headLines, ← List.append_assoc, standing, renderEpoch]
  by_cases hepoch : v.epoch = some e.epoch
  · rw [if_pos hepoch, if_pos hepoch, List.append_nil,
      latest?_append (concerns_renderConnection id)]
    exact h hepoch id hid
  · rw [if_neg hepoch, if_neg hepoch, latest?_concat]
    exact ⟨rfl, fun hsome => absurd hsome (by simp)⟩

lemma fresh_headLines (h : Fresh log) : Fresh (log ++ v.headLines e) := by
  refine h.append (List.forall_mem_append.2 ⟨?_, ?_⟩)
  · unfold renderConnection
    split <;> simp
  · unfold renderEpoch
    split <;> simp

/-- A time line that is not shown is announced. -/
lemma exists_banner (h : v.epoch ≠ some e.epoch) : ∃ l ∈ (v.render e).2, l.isBanner = true := by
  refine ⟨.banner e.store.size, ?_, rfl⟩
  have hhead : .banner e.store.size ∈ v.headLines e := by
    rw [headLines, renderEpoch, if_neg h]
    exact List.mem_append_right _ (List.mem_singleton_self _)
  rw [render_eq]
  exact List.mem_append_left _ (List.mem_append_left _ (List.mem_append_left _ hhead))

/-- What a rendering adds to a log, in three parts: what is said before the steps, the steps, and
what is said after them. -/
lemma append_lines_render (log : List TerminalLine) :
    log ++ (v.render e).2 =
      (log ++ v.headLines e ++ (renderStepList (v.standing e) e.store.steps.toList).2) ++
        ((renderEntryList v.entries e.output.entries).2 ++ cursorLines e (v.standingCursor e)) := by
  rw [render_eq]
  simp only [List.append_assoc]

section

variable {s : Store} {shown : OrderedMap StepId String}

/-- If a log agrees with what is remembered, it shows what is retained, as it is, after the steps
were looked at. -/
lemma latest?_renderStepList (h : s.Sound) (hlog : Agrees s shown log)
    (hid : s.isPast id = false) :
    latest? id (log ++ (renderStepList shown s.steps.toList).2) = (s.get? id).map showStep := by
  obtain ⟨hlatest, hkept⟩ := hlog id hid
  rw [← h.isSome_get?] at hkept
  rw [lines_renderStepList h.ascending]
  cases hget : s.get? id with
  | none =>
    have hother : ∀ x ∈ s.steps.toList.filter (fun x => !shows shown x), x.id ≠ id := by
      intro x hx hxid
      have hmem : x ∈ s.steps := Array.mem_toList_iff.1 (List.mem_filter.1 hx).1
      rw [h.get?_eq_some_iff.2 ⟨hmem, hxid⟩] at hget
      cases hget
    rw [hget] at hkept
    rw [latest?_stepLines_of_notMem hother, hlatest]
    exact Option.not_isSome_iff_eq_none.1 fun hsome => absurd (hkept hsome) (by simp)
  | some x =>
    obtain ⟨hx, rfl⟩ := h.get?_eq_some_iff.1 hget
    cases hshown : shows shown x with
    | true =>
      -- the step is shown as it is, so that no line is written for its number
      have hother : ∀ y ∈ s.steps.toList.filter (fun x => !shows shown x), y.id ≠ x.id := by
        intro y hy hyx
        obtain ⟨hmem, hnot⟩ := List.mem_filter.1 hy
        rw [h.eq_of_id_eq (Array.mem_toList_iff.1 hmem) hx hyx, hshown] at hnot
        cases hnot
      rw [latest?_stepLines_of_notMem hother, hlatest]
      exact of_decide_eq_true hshown
    | false =>
      refine latest?_stepLines_of_mem (h.ascending.filter _) (List.mem_filter.2 ⟨hx.val, ?_⟩)
      rw [hshown]
      rfl

/-- Then no line says of a step what the log shows of it already. -/
lemma fresh_renderStepList (h : s.Sound) (hlog : Agrees s shown log) (hfresh : Fresh log) :
    Fresh (log ++ (renderStepList shown s.steps.toList).2) := by
  rw [lines_renderStepList h.ascending]
  refine fresh_stepLines (h.ascending.filter _) hfresh fun x hx => ?_
  obtain ⟨hmem, hnot⟩ := List.mem_filter.1 hx
  have hpast := h.isPast_eq_false (Array.mem_toList_iff.1 hmem)
  rw [(hlog x.id hpast).1]
  simpa [shows] using hnot

end

/-- If a log agrees with what is remembered, it shows what is retained, as it is, after a
rendering. -/
lemma latest?_render (h : e.store.Sound) (houtput : e.output.ids.Nodup)
    (hlog : v.epoch = some e.epoch → Agrees e.store v.steps log) (hid : e.store.isPast id = false) :
    latest? id (log ++ (v.render e).2) = (e.store.get? id).map showStep := by
  rw [append_lines_render, latest?_append (concerns_lines_after_steps houtput _ id),
    latest?_renderStepList h (agrees_headLines hlog) hid]

/-- A fresh log that agrees with what is remembered stays fresh. -/
lemma fresh_render (h : e.store.Sound) (houtput : e.output.ids.Nodup)
    (hlog : v.epoch = some e.epoch → Agrees e.store v.steps log) (hfresh : Fresh log) :
    Fresh (log ++ (v.render e).2) := by
  have hsteps := fresh_renderStepList h (agrees_headLines hlog) (fresh_headLines hfresh)
  rw [append_lines_render]
  refine hsteps.append ?_
  rintro l hl id text rfl
  have hquiet := concerns_lines_after_steps houtput _ id _ hl
  exact absurd hquiet (by simp [concerns])

end View

namespace Screen

open TerminalLine

variable {s : Screen}

lemma view_render : s.render.view = (s.view.render s.engine).1 := rfl

lemma log_render : s.render.log = s.log ++ (s.view.render s.engine).2 := rfl

lemma engine_operate (op : Engine.Operation) :
    (s.operate op).engine = (s.engine.perform op).1 := rfl

/-! ## The invariant -/

/-- What a screen goes by: the log agrees with what the view remembers, as long as the time line is
the one that the view shows. -/
structure Faithful (s : Screen) : Prop where
  sound : s.engine.store.Sound
  output : s.engine.output.WellFormed
  fresh : Fresh s.log
  /-- Nothing was written, or the time line was announced. -/
  begun : s.view.epoch.isSome → ∃ l ∈ s.log, l.isBanner = true
  epoch_le : ∀ n, s.view.epoch = some n → n ≤ s.engine.epoch
  agrees : s.view.epoch = some s.engine.epoch → View.Agrees s.engine.store s.view.steps s.log

namespace Faithful

/-- Nothing was written on a new screen. -/
lemma new (settings : EngineSettings) : (new settings).Faithful where
  sound := Store.Sound.new _ _
  output := OutputLog.WellFormed.new _
  fresh := Fresh.nil
  begun h := absurd h (by simp [Screen.new, View.new])
  epoch_le n h := absurd h (by simp [Screen.new, View.new])
  agrees h := absurd h (by simp [Screen.new, View.new])

/-- What the log shows of numbers that are not past is not affected by operations of the engine. -/
lemma operate (h : s.Faithful) (op : Engine.Operation) : (s.operate op).Faithful where
  sound := Engine.sound_perform h.sound op
  output := Engine.wellFormed_output_perform h.output op
  fresh := h.fresh
  begun := h.begun
  epoch_le n hn := by
    have hle := h.epoch_le n hn
    rw [engine_operate]
    rcases Engine.continues_perform h.sound op with ⟨hepoch, -⟩ | hepoch <;> omega
  agrees hcurrent := by
    rw [engine_operate] at hcurrent
    rcases Engine.continues_perform h.sound op with ⟨hepoch, hcontinues⟩ | hepoch
    · rw [hepoch] at hcurrent
      intro id hid
      obtain ⟨hpast, hkept⟩ := hcontinues id hid
      obtain ⟨hlog, hold⟩ := h.agrees hcurrent id hpast
      exact ⟨hlog, fun hsome => hkept (hold hsome)⟩
    · -- the view cannot know of an epoch that only begins
      have hle := h.epoch_le _ hcurrent
      omega

/-- After a rendering, the log shows what is retained, and the view remembers it. -/
lemma render (h : s.Faithful) : s.render.Faithful where
  sound := h.sound
  output := h.output
  fresh := View.fresh_render h.sound h.output.nodup_ids h.agrees h.fresh
  begun _ := by
    rw [log_render]
    by_cases hepoch : s.view.epoch = some s.engine.epoch
    · obtain ⟨l, hl, hbanner⟩ := h.begun (by simp [hepoch])
      exact ⟨l, List.mem_append_left _ hl, hbanner⟩
    · obtain ⟨l, hl, hbanner⟩ := View.exists_banner hepoch
      exact ⟨l, List.mem_append_right _ hl, hbanner⟩
  epoch_le n hn := by
    rw [view_render, View.epoch_render, Option.some.injEq] at hn
    exact hn.ge
  agrees _ := by
    intro id hid
    rw [log_render, view_render, View.steps_render h.sound, Option.isSome_map,
      h.sound.isSome_get?, View.latest?_render h.sound h.output.nodup_ids h.agrees hid]
    exact ⟨rfl, fun hkept => hkept⟩

/-- Whatever happens, the log is faithful. -/
lemma run (h : s.Faithful) (ops : List Operation) : (s.run ops).Faithful := by
  induction ops generalizing s with
  | nil => exact h
  | cons op rest ih =>
    cases op with
    | engine op => exact ih (h.operate op)
    | render => exact ih h.render

end Faithful

/-- The log determines the time line.  Whatever operations and renderings a screen went through,
after one more rendering the last line for every retained step shows the step as it is, and no
banner came after that line; the view remembers exactly the retained steps, as they are; two lines
for one step, with none for it and no banner in between, are different; and another rendering
writes nothing. -/
theorem log_determines_timeline (settings : EngineSettings) (ops : List Operation) :
    let s := ((new settings).run ops).render
    (∀ x ∈ s.engine.store.steps, ∃ (before : List TerminalLine) (n : Nat)
        (between after : List TerminalLine),
      s.log = before ++ .banner n :: (between ++ .step x.id (showStep x) :: after) ∧
        (∀ l ∈ between ++ after, l.isBanner = false) ∧ ∀ l ∈ after, l.concerns x.id = false) ∧
    s.view.steps.entries = s.engine.store.steps.toList.map (fun x => (x.id, showStep x)) ∧
    (∀ (id : StepId) (text text' : String) (before between after : List TerminalLine),
      s.log = before ++ .step id text :: (between ++ .step id text' :: after) →
        (∀ l ∈ between, l.concerns id = false) → text ≠ text') ∧
    (s.view.render s.engine).2 = [] := by
  intro s
  have hbefore : ((new settings).run ops).Faithful := (Faithful.new settings).run ops
  have h : s.Faithful := hbefore.render
  have hepoch : s.view.epoch = some s.engine.epoch := View.epoch_render
  have hsteps (id : StepId) : s.view.steps.get? id = (s.engine.store.get? id).map showStep :=
    View.steps_render hbefore.sound id
  refine ⟨fun x hx => ?_, View.entries_steps_render hbefore.sound, ?_, ?_⟩
  · have hget : s.engine.store.get? x.id = some x := h.sound.get?_eq_some_iff.2 ⟨hx, rfl⟩
    have hlatest : latest? x.id s.log = some (showStep x) := by
      rw [(h.agrees hepoch x.id (h.sound.isPast_eq_false hx)).1, hsteps, hget, Option.map_some]
    exact exists_since_banner hlatest (h.begun (by simp [hepoch]))
  · exact fun id text text' before between after hlog hbetween => h.fresh.ne hlog hbetween
  · exact View.lines_render_render hbefore.sound hbefore.output.nodup_ids

end Screen

end TraceTimeline
