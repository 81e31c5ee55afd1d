import Mathlib
import TraceTimeline.Proofs.Timeline.Newest

/-!
# Look-ups and scans

A store finds a step of a number by bisection, and the latest step at a line in an index that every
update keeps; the frames of all lines come from one pass over the steps.  Whoever scanned the
retained steps one after another would find the same, in every store that updates lead to
(`Store.lookups_eq_scans`).

A bisection ends where the number stands (`search_stands`).  The index has at a line the numbers of
the steps at it (`LineIndex.Lists.stepsAt_eq`), so that its look-ups are those of the last step of a
scan, and so are the frames: an entry is overwritten by each later step at its line.
-/

namespace TraceTimeline

namespace Store

variable {s : Store} {line : SourceLine}

/-- The retained steps at a line, as a scan finds them. -/
def stepsOn (s : Store) (line : SourceLine) : List Step :=
  s.steps.toList.filter (·.line = some line)

/-! ## Look-ups by number -/

/-- The position of a number is the index at which a scan for it stops. -/
lemma Sound.positionOf_eq_findIdx? (h : s.Sound) (id : StepId) :
    s.positionOf id = s.steps.toList.findIdx? (·.id = id) := by
  have hstands := search_stands h.ascending id
  unfold positionOf
  generalize s.search id = position at hstands
  cases hstands with
  | found before y after hsplit hsame hbelow habove =>
    have hnone : before.findIdx? (·.id = id) = none := by
      rw [List.findIdx?_eq_none_iff]
      intro z hz
      simpa using UInt64.ne_of_lt (hbelow z hz)
    rw [hsplit, List.findIdx?_append, hnone, List.findIdx?_cons]
    simp [hsame]
  | gap before after hsplit hbelow habove =>
    symm
    rw [hsplit, List.findIdx?_eq_none_iff]
    intro z hz
    rcases List.mem_append.1 hz with hz | hz
    · simpa using UInt64.ne_of_lt (hbelow z hz)
    · simpa using (UInt64.ne_of_lt (habove z hz)).symm

lemma Sound.contains_eq_any (h : s.Sound) (id : StepId) :
    s.contains id = s.steps.toList.any (·.id = id) := by
  rw [← h.isSome_get?, h.get?_eq_find?, List.isSome_find?]

/-! ## Look-ups by line -/

lemma Sound.isNewest_getLast?_stepsOn (h : s.Sound) (line : SourceLine) (p : Step → Bool) :
    IsNewest ((s.stepsOn line).filter p) (((s.stepsOn line).filter p).getLast?.map (·.id)) :=
  Chronicle.isNewest_getLast? ⟨(s.stepsOn line).filter p, (h.ascending.filter _).filter _⟩

lemma Sound.stepsAt_lines (h : s.Sound) (line : SourceLine) :
    s.lines.stepsAt line = (s.stepsOn line).map (·.id) :=
  h.wellFormed.lines.stepsAt_eq h.ascending line

lemma Sound.latestOnLineUpTo_eq (h : s.Sound) (line : SourceLine) (bound : StepId) :
    s.latestOnLineUpTo line bound =
      ((s.stepsOn line).filter (·.id ≤ bound)).getLast?.map (·.id) := by
  rw [latestOnLineUpTo, LineIndex.latestUpTo?, h.stepsAt_lines, List.filter_map, List.getLast?_map]
  rfl

lemma Sound.latestOnLine_eq (h : s.Sound) (line : SourceLine) :
    s.latestOnLine line = (s.stepsOn line).getLast?.map (·.id) := by
  rw [latestOnLine, LineIndex.latest?, h.stepsAt_lines, List.getLast?_map]

/-- The latest number at a line leads back to a step at the line. -/
lemma Sound.exists_of_latestOnLineUpTo (h : s.Sound) {bound id : StepId}
    (hid : s.latestOnLineUpTo line bound = some id) :
    ∃ y, ((s.stepsOn line).filter (·.id ≤ bound)).getLast? = some y ∧ s.get? id = some y := by
  rw [h.latestOnLineUpTo_eq, Option.map_eq_some_iff] at hid
  obtain ⟨y, hy, rfl⟩ := hid
  have hmem : y ∈ s.steps.toList :=
    List.mem_of_mem_filter (List.mem_of_mem_filter (List.mem_of_getLast? hy))
  exact ⟨y, hy, h.get?_eq_some_iff.2 ⟨Array.mem_toList_iff.1 hmem, rfl⟩⟩

/-! ## Frames -/

/-- The frames of steps that are noted one after another: at every line the last one counts. -/
lemma get?_foldl_frames (l : List Step) (frames : OrderedMap SourceLine (Option String)) :
    (l.foldl (fun frames step => match step.line with
      | some line => frames.insert line step.frame
      | none => frames) frames).get? line =
      ((l.reverse.find? (·.line = some line)).map (·.frame)).or (frames.get? line) := by
  induction l generalizing frames with
  | nil => simp
  | cons x rest ih =>
    rw [List.foldl_cons, ih, List.reverse_cons, List.find?_append, Option.map_or, Option.or_assoc]
    congr 1
    cases hx : x.line with
    | none => simp [hx]
    | some l =>
      rw [OrderedMap.get?_insert]
      by_cases hl : line = l
      · simp [hx, hl]
      · simp [hx, hl, Ne.symm hl]

/-- The annotations up to a bound give every line the frame of the last step of a scan. -/
lemma Sound.get?_frameAnnotations_some (h : s.Sound) (bound : StepId) (line : SourceLine) :
    (s.frameAnnotations (some bound)).get? line =
      ((s.stepsOn line).filter (·.id ≤ bound)).getLast?.map (·.frame) := by
  have hupto : (s.stepsUpTo bound).filter (·.line = some line) =
      (s.stepsOn line).filter (·.id ≤ bound) := by
    rw [stepsUpTo, takeWhile_eq_filter h.ascending, stepsOn, List.filter_comm]
  rw [← hupto, List.getLast?_filter]
  refine (get?_foldl_frames (s.stepsUpTo bound) OrderedMap.empty).trans ?_
  rw [OrderedMap.get?_empty, Option.or_none]

/-! ## All look-ups -/

/-- In every store that updates lead to, the look-ups agree with a scan of the retained steps.  By
number a scan gives the position, the step, whether there is one, and its line.  The latest number
at a line is the greatest one of the steps at the line, up to a bound if there is one, and none if
there is no such step; it is at that line.  The annotations up to a bound have an entry for a line
if there is such a step up to the bound, and the entry is the frame of the latest of them. -/
theorem lookups_eq_scans (capacity : Nat) (policy : CarryPolicy) (ops : List Operation) :
    let s := (new capacity policy).run ops
    let steps := s.steps.toList
    (∀ id,
      s.positionOf id = steps.findIdx? (·.id = id) ∧
      s.get? id = steps.find? (·.id = id) ∧
      s.contains id = steps.any (·.id = id) ∧
      s.lineOf id = (steps.find? (·.id = id)).bind (·.line)) ∧
    (∀ line,
      IsNewest (s.stepsOn line) (s.latestOnLine line) ∧
      ∀ id, s.latestOnLine line = some id → s.lineOf id = some line) ∧
    ∀ line bound,
      IsNewest ((s.stepsOn line).filter (·.id ≤ bound)) (s.latestOnLineUpTo line bound) ∧
      (((s.frameAnnotations (some bound)).get? line).isSome ↔
        (s.latestOnLineUpTo line bound).isSome) ∧
      ∀ id, s.latestOnLineUpTo line bound = some id →
        ∃ y, s.get? id = some y ∧ (s.frameAnnotations (some bound)).get? line = some y.frame := by
  intro s steps
  have h : s.Sound := (Sound.new capacity policy).run ops
  refine ⟨fun id => ⟨h.positionOf_eq_findIdx? id, h.get?_eq_find?, h.contains_eq_any id, ?_⟩,
    fun line => ⟨?_, fun id hid => ?_⟩, fun line bound => ⟨?_, ?_, fun id hid => ?_⟩⟩
  · rw [lineOf, h.get?_eq_find?]
  · have hnewest := h.isNewest_getLast?_stepsOn line fun _ => true
    rwa [List.filter_true, ← h.latestOnLine_eq] at hnewest
  · rw [h.latestOnLine_eq, Option.map_eq_some_iff] at hid
    obtain ⟨y, hy, rfl⟩ := hid
    obtain ⟨hmem, hline⟩ := List.mem_filter.1 (List.mem_of_getLast? hy)
    rw [h.lineOf_eq (Array.mem_toList_iff.1 hmem)]
    exact of_decide_eq_true hline
  · rw [h.latestOnLineUpTo_eq]
    exact h.isNewest_getLast?_stepsOn line (·.id ≤ bound)
  · rw [h.get?_frameAnnotations_some, h.latestOnLineUpTo_eq, Option.isSome_map, Option.isSome_map]
  · obtain ⟨y, hlast, hget⟩ := h.exists_of_latestOnLineUpTo hid
    exact ⟨y, hget, by rw [h.get?_frameAnnotations_some, hlast, Option.map_some]⟩

/-- Of three steps the first one is evicted and the second one moves to another line by a
correction.  No look-up finds the first step any more, nor the second one at its former line. -/
theorem lookups_eq_scans_corrected :
    let corrected := (Step.ofLine 2 4).inFrame "f"
    let s := (new 2 .sticky).run [.upsert (Step.ofLine 1 7), .upsert (Step.ofLine 2 5),
      .upsert (Step.ofLine 3 4), .upsert corrected]
    s.horizon = some 1 ∧ s.latestOnLine 7 = none ∧ s.latestOnLine 5 = none ∧
      s.latestOnLine 4 = some 3 ∧ s.lineOf 3 = some 4 ∧ s.latestOnLineUpTo 4 2 = some 2 ∧
      (s.frameAnnotations (some 2)).get? 4 = some (some "f") := by
  intro corrected s
  have hlatest : s.latestOnLine 4 = some 3 := by decide +kernel
  have hbounded : s.latestOnLineUpTo 4 2 = some 2 := by decide +kernel
  obtain ⟨-, hline, hframes⟩ := lookups_eq_scans 2 .sticky [.upsert (Step.ofLine 1 7),
    .upsert (Step.ofLine 2 5), .upsert (Step.ofLine 3 4), .upsert corrected]
  obtain ⟨y, hget, hframe⟩ := (hframes 4 2).2.2 2 hbounded
  have hcorrected : s.get? 2 = some corrected := by decide +kernel
  obtain rfl : y = corrected := Option.some.inj (hget.symm.trans hcorrected)
  exact ⟨by decide +kernel, by decide +kernel, by decide +kernel, hlatest, (hline 4).2 3 hlatest,
    hbounded, hframe⟩

end Store

end TraceTimeline
