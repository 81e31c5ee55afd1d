import TraceTimeline.Proofs.Output.Entries
import TraceTimeline.Proofs.Timeline.Retained
import TraceTimeline.Terminal.View

/-!
# What a view writes and remembers

Rendering goes through the retained steps and the output entries one by one, with what the view
remembers of earlier renderings as it goes.  Since no two steps and no two entries have one number,
each is compared with what was remembered at the beginning: what is written is what differs from
that (`View.lines_renderStepList`, `View.lines_renderEntryList`), and what is remembered afterwards
is what is retained (`View.steps_render`, `View.entries_render`).
-/

namespace TraceTimeline

namespace View

/-! ## Steps -/

section

variable {shown : OrderedMap StepId String} {id : StepId}

/-- The line that is written for a step. -/
def stepLine (x : Step) : TerminalLine := .step x.id (TerminalLine.showStep x)

/-- Whether a step is shown as it is. -/
def shows (shown : OrderedMap StepId String) (x : Step) : Bool :=
  shown.get? x.id = some (TerminalLine.showStep x)

/-- A step is shown as it is after it was looked at. -/
lemma get?_renderStep (x : Step) :
    (renderStep shown x).1.get? id =
      if id = x.id then some (TerminalLine.showStep x) else shown.get? id := by
  unfold renderStep
  dsimp only
  split
  · next hshown =>
    split
    · next hid => rw [hid, hshown]
    · rfl
  · exact OrderedMap.get?_insert ..

/-- It is written unless it was shown before. -/
lemma lines_renderStep (x : Step) :
    (renderStep shown x).2 = if shows shown x then [] else [stepLine x] := by
  unfold renderStep shows
  dsimp only
  split
  · next hshown => rw [if_pos (decide_eq_true hshown)]
  · next hshown => rw [if_neg (by simpa using hshown)]; rfl

lemma renderStepList_cons (x : Step) (rest : List Step) :
    renderStepList shown (x :: rest) =
      ((renderStepList (renderStep shown x).1 rest).1,
        (renderStep shown x).2 ++ (renderStepList (renderStep shown x).1 rest).2) := rfl

/-- What is shown under a number that no step of a list has stays. -/
lemma get?_renderStepList_of_notMem {l : List Step} (hid : ∀ x ∈ l, x.id ≠ id) :
    (renderStepList shown l).1.get? id = shown.get? id := by
  induction l generalizing shown with
  | nil => rfl
  | cons x rest ih =>
    have hx : id ≠ x.id := (hid x (List.mem_cons_self ..)).symm
    rw [renderStepList_cons]
    dsimp only
    rw [ih fun y hy => hid y (List.mem_cons_of_mem _ hy), get?_renderStep, if_neg hx]

/-- Every step of a list with different numbers is shown as it is after the list was looked at. -/
lemma get?_renderStepList_of_mem {l : List Step} (hl : l.Pairwise fun a b => a.id < b.id) {x : Step}
    (hx : x ∈ l) : (renderStepList shown l).1.get? x.id = some (TerminalLine.showStep x) := by
  induction l generalizing shown with
  | nil => exact absurd hx List.not_mem_nil
  | cons y rest ih =>
    obtain ⟨hy, hrest⟩ := List.pairwise_cons.1 hl
    rw [renderStepList_cons]
    dsimp only
    rcases List.mem_cons.1 hx with rfl | hx
    · have hother : ∀ z ∈ rest, z.id ≠ x.id := fun z hz => (UInt64.ne_of_lt (hy z hz)).symm
      rw [get?_renderStepList_of_notMem hother, get?_renderStep, if_pos rfl]
    · exact ih hrest hx

/-- Of a list with different numbers, the steps are written that were not shown as they are. -/
theorem lines_renderStepList {l : List Step} (hl : l.Pairwise fun a b => a.id < b.id) :
    (renderStepList shown l).2 = (l.filter fun x => !shows shown x).map stepLine := by
  induction l generalizing shown with
  | nil => rfl
  | cons x rest ih =>
    obtain ⟨hx, hrest⟩ := List.pairwise_cons.1 hl
    have hsame : ∀ y ∈ rest, (!shows (renderStep shown x).1 y) = !shows shown y := by
      intro y hy
      have hne : y.id ≠ x.id := (UInt64.ne_of_lt (hx y hy)).symm
      rw [shows, shows, get?_renderStep, if_neg hne]
    rw [renderStepList_cons]
    dsimp only
    rw [ih hrest, List.filter_congr hsame, lines_renderStep, List.filter_cons]
    cases shows shown x <;> rfl

end

/-! ## Output entries -/

section

variable {written : OrderedMap Nat Unit} {id : Nat}

/-- The line that is written for a sealed entry. -/
def entryLine (e : OutputEntry) : TerminalLine := .sealed e.id e.channel e.text

/-- Whether an entry is sealed and was not written. -/
def isDue (written : OrderedMap Nat Unit) (e : OutputEntry) : Bool :=
  e.flushed && (written.get? e.id).isNone

/-- An entry that is due is written, and remembered while the others are looked at. -/
lemma renderEntryList_cons (e : OutputEntry) (rest : List OutputEntry) :
    renderEntryList written (e :: rest) =
      if isDue written e then
        ((renderEntryList (written.insert e.id ()) rest).1,
          entryLine e :: (renderEntryList (written.insert e.id ()) rest).2)
      else renderEntryList written rest := by
  have hdue : (e.flushed = true ∧ written.get? e.id = none) ↔ isDue written e = true := by
    simp [isDue]
  rw [renderEntryList]
  exact if_congr hdue rfl rfl

/-- Of a list with different numbers, the entries are written that are due. -/
theorem lines_renderEntryList {l : List OutputEntry} (hl : (l.map (·.id)).Nodup) :
    (renderEntryList written l).2 = (l.filter (isDue written)).map entryLine := by
  induction l generalizing written with
  | nil => rfl
  | cons e rest ih =>
    obtain ⟨hnew, hrest⟩ := List.nodup_cons.1 hl
    rw [renderEntryList_cons, List.filter_cons]
    split
    · have hsame : ∀ x ∈ rest, isDue (written.insert e.id ()) x = isDue written x := by
        intro x hx
        have hne : x.id ≠ e.id := fun heq => hnew (List.mem_map.2 ⟨x, hx, heq⟩)
        rw [isDue, isDue, OrderedMap.get?_insert, if_neg hne]
      dsimp only
      rw [ih hrest, List.filter_congr hsame, List.map_cons]
    · exact ih hrest

/-- Afterwards those are remembered that were, and those that are sealed. -/
lemma isSome_get?_renderEntryList {l : List OutputEntry} :
    ((renderEntryList written l).1.get? id).isSome ↔
      (written.get? id).isSome ∨ ∃ e ∈ l, e.id = id ∧ e.flushed = true := by
  induction l generalizing written with
  | nil => simp [renderEntryList]
  | cons e rest ih =>
    rw [renderEntryList_cons]
    split
    · next hdue =>
      have hflushed : e.flushed = true := (Bool.and_eq_true_iff.1 hdue).1
      dsimp only
      rw [ih, OrderedMap.get?_insert]
      by_cases hid : id = e.id
      · simp [hid, hflushed]
      · simp [hid, Ne.symm hid]
    · next hdue =>
      rw [ih]
      constructor
      · rintro (hold | ⟨x, hx, hid, hflushed⟩)
        · exact .inl hold
        · exact .inr ⟨x, List.mem_cons_of_mem _ hx, hid, hflushed⟩
      · rintro (hold | ⟨x, hx, rfl, hflushed⟩)
        · exact .inl hold
        · rcases List.mem_cons.1 hx with rfl | hx
          · -- a sealed entry that is not due was written before
            refine .inl (Option.ne_none_iff_isSome.1 fun hnone => hdue ?_)
            simp [isDue, hflushed, hnone]
          · exact .inr ⟨x, hx, rfl, hflushed⟩

end

/-! ## A whole rendering -/

section

variable (v : View) (e : Engine)

/-- The steps that count as shown: none if the time line was replaced. -/
def standing : OrderedMap StepId String :=
  if v.epoch = some e.epoch then v.steps else OrderedMap.empty

/-- The cursor that counts as shown. -/
def standingCursor : Option StepId := if v.epoch = some e.epoch then v.cursor else none

/-- What is written about the connection and about a new time line. -/
def headLines : List TerminalLine := (v.renderConnection e).2 ++ (v.renderEpoch e).2

/-- What is written about a cursor, given the one that counts as shown. -/
def cursorLines (shown : Option StepId) : List TerminalLine :=
  if e.cursor = shown then []
  else match e.cursor with
    | some id => [.cursor id e.highlighted e.store.follow]
    | none => []

lemma renderConnection_fst :
    (v.renderConnection e).1 = { v with connection := some e.connection } := by
  unfold renderConnection
  split
  · next h => rw [← h]
  · rfl

/-- The view after a new time line was announced. -/
lemma renderEpoch_fst :
    (v.renderEpoch e).1 =
      { v with epoch := some e.epoch, steps := v.standing e, cursor := v.standingCursor e } := by
  unfold renderEpoch standing standingCursor
  split
  · next h => rw [← h]
  · rfl

lemma renderCursor_eq :
    v.renderCursor e = ({ v with cursor := e.cursor }, cursorLines e v.cursor) := by
  unfold renderCursor cursorLines
  split
  · next h => rw [h]
  · rfl

/-- What the view remembers and what is written, part by part. -/
theorem render_eq :
    v.render e =
      ({ epoch := some e.epoch
         steps := (renderStepList (v.standing e) e.store.steps.toList).1.filterKeys e.store.contains
         cursor := e.cursor
         entries := (renderEntryList v.entries e.output.entries).1.filterKeys fun id =>
           e.output.entries.any (·.id = id)
         connection := some e.connection },
        v.headLines e ++ (renderStepList (v.standing e) e.store.steps.toList).2 ++
          (renderEntryList v.entries e.output.entries).2 ++
            cursorLines e (v.standingCursor e)) := by
  have hepoch (c : Option ConnectionState) :
      { v with connection := c }.renderEpoch e =
        ({ (v.renderEpoch e).1 with connection := c }, (v.renderEpoch e).2) := by
    unfold renderEpoch
    dsimp only
    split <;> rfl
  unfold render
  dsimp only
  rw [renderCursor_eq, renderConnection_fst, hepoch, renderEpoch_fst]
  rfl

end

section

variable {v : View} {e : Engine}

lemma epoch_render : (v.render e).1.epoch = some e.epoch := by
  rw [render_eq]

/-- The retained steps are remembered as they are, and no others. -/
theorem steps_render (h : e.store.Sound) (id : StepId) :
    (v.render e).1.steps.get? id = (e.store.get? id).map TerminalLine.showStep := by
  rw [render_eq]
  dsimp only
  rw [OrderedMap.get?_filterKeys]
  rw [← h.isSome_get?]
  cases hget : e.store.get? id with
  | some x =>
    obtain ⟨hx, rfl⟩ := h.get?_eq_some_iff.1 hget
    exact get?_renderStepList_of_mem h.ascending hx.val
  | none => rfl

/-- The retained steps are all that is remembered of steps. -/
theorem entries_steps_render (h : e.store.Sound) :
    (v.render e).1.steps.entries =
      e.store.steps.toList.map fun x => (x.id, TerminalLine.showStep x) := by
  refine OrderedMap.entries_eq_of_lookup (OrderedMap.ascending _)
    (List.pairwise_map.2 h.ascending) fun id => ?_
  rw [OrderedMap.lookup_map_eq_find?, ← h.get?_eq_find?]
  exact steps_render h id

/-- Of the kept entries, those are remembered that were, and those that are sealed. -/
theorem entries_render (id : Nat) :
    ((v.render e).1.entries.get? id).isSome ↔
      ∃ x ∈ e.output.entries, x.id = id ∧ ((v.entries.get? id).isSome ∨ x.flushed = true) := by
  rw [render_eq]
  dsimp only
  rw [OrderedMap.get?_filterKeys]
  split
  · next hkept =>
    obtain ⟨y, hy, hid⟩ := List.any_eq_true.1 hkept
    rw [isSome_get?_renderEntryList]
    constructor
    · rintro (hold | ⟨x, hx, hid, hflushed⟩)
      · exact ⟨y, hy, of_decide_eq_true hid, .inl hold⟩
      · exact ⟨x, hx, hid, .inr hflushed⟩
    · rintro ⟨x, hx, hid, hold | hflushed⟩
      · exact .inl hold
      · exact .inr ⟨x, hx, hid, hflushed⟩
  · next hkept =>
    refine iff_of_false Bool.false_ne_true ?_
    rintro ⟨x, hx, hid, -⟩
    exact hkept (List.any_eq_true.2 ⟨x, hx, decide_eq_true hid⟩)

/-- The retained steps and the sealed entries are on the terminal after a rendering, so that another
one writes nothing. -/
theorem lines_render_render (h : e.store.Sound) (houtput : e.output.ids.Nodup) :
    ((v.render e).1.render e).2 = [] := by
  have hremembered : (v.render e).1.cursor = e.cursor ∧
      (v.render e).1.connection = some e.connection := by
    rw [render_eq]
    exact ⟨rfl, rfl⟩
  have hepoch := epoch_render (v := v) (e := e)
  have hsteps := steps_render (v := v) h
  have hentries := entries_render (v := v) (e := e)
  -- of the first rendering only what it remembers is used
  generalize (v.render e).1 = v at hremembered hepoch hsteps hentries
  obtain ⟨hcursor, hconnection⟩ := hremembered
  have hhead : v.headLines e = [] := by
    rw [headLines, renderConnection, renderEpoch, if_pos hconnection, if_pos hepoch]
    rfl
  have hshown : e.store.steps.toList.filter (fun x => !shows (v.standing e) x) = [] := by
    refine List.filter_eq_nil_iff.2 fun x hx => ?_
    have hget : e.store.get? x.id = some x :=
      h.get?_eq_some_iff.2 ⟨Array.mem_toList_iff.1 hx, rfl⟩
    simp [shows, standing, hepoch, hsteps, hget]
  have hwritten : e.output.entries.filter (isDue v.entries) = [] := by
    refine List.filter_eq_nil_iff.2 fun x hx hdue => ?_
    obtain ⟨hflushed, hnone⟩ := Bool.and_eq_true_iff.1 hdue
    have hsome := (hentries x.id).2 ⟨x, hx, rfl, .inr hflushed⟩
    exact absurd hsome (by simpa using hnone)
  have hstill : cursorLines e (v.standingCursor e) = [] := by
    rw [cursorLines, standingCursor, if_pos hepoch, hcursor, if_pos rfl]
  rw [render_eq]
  dsimp only
  rw [hhead, lines_renderStepList h.ascending, hshown, lines_renderEntryList houtput, hwritten,
    hstill]
  rfl

end

end View

end TraceTimeline
