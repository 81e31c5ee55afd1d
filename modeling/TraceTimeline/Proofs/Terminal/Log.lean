import Mathlib
import TraceTimeline.Terminal.Line

/-!
# What a log shows of a step

The lines that were written to a terminal show a step as the last line for it says, unless a banner
was written since: a banner takes back whatever was shown before (`TerminalLine.latest?`).  A log is
fresh if no line says of a step what is shown of it already (`TerminalLine.Fresh`); then two lines
for one step, with none for it and no banner in between, are different (`TerminalLine.Fresh.ne`).
-/

namespace TraceTimeline

namespace TerminalLine

variable {id : StepId} {text : String} {log lines : List TerminalLine} {l : TerminalLine}

/-! ## The last line for a step -/

/-- Whether a line has any bearing on what is shown of a step: a banner has, and a line for the
step. -/
def concerns (id : StepId) : TerminalLine → Bool
  | .banner _ => true
  | .step id' _ => id' = id
  | _ => false

/-- What is shown of a step after one more line. -/
def showing (id : StepId) (before : Option String) : TerminalLine → Option String
  | .banner _ => none
  | .step id' text => if id' = id then some text else before
  | _ => before

/-- What a log shows of a step: the last text written for it since the last banner. -/
def latest? (id : StepId) (log : List TerminalLine) : Option String := log.foldl (showing id) none

lemma latest?_concat (id : StepId) (log : List TerminalLine) (l : TerminalLine) :
    latest? id (log ++ [l]) = showing id (latest? id log) l := by
  rw [latest?, List.foldl_append]
  rfl

lemma showing_of_not_concerns (h : l.concerns id = false) (before : Option String) :
    showing id before l = before := by
  cases l with
  | banner n => exact absurd h (by simp [concerns])
  | step id' text => exact if_neg (of_decide_eq_false h)
  | _ => rfl

/-- Lines that have no bearing on a step leave what is shown of it. -/
lemma latest?_append (h : ∀ l ∈ lines, l.concerns id = false) :
    latest? id (log ++ lines) = latest? id log := by
  induction lines using List.reverseRecOn with
  | nil => rw [List.append_nil]
  | append_singleton rest l ih =>
    have hrest : ∀ l ∈ rest, l.concerns id = false := fun l hl => h l (List.mem_append_left _ hl)
    rw [← List.append_assoc, latest?_concat, showing_of_not_concerns (h l (by simp)), ih hrest]

/-- A text is shown of a step if it stands in a line after which no other has any bearing on the
step. -/
theorem latest?_eq_some_iff :
    latest? id log = some text ↔
      ∃ before after : List TerminalLine, log = before ++ .step id text :: after ∧
        ∀ l ∈ after, l.concerns id = false := by
  constructor
  · intro h
    induction log using List.reverseRecOn with
    | nil => exact absurd h (by simp [latest?])
    | append_singleton rest l ih =>
      rw [latest?_concat] at h
      cases hl : l.concerns id with
      | false =>
        rw [showing_of_not_concerns hl] at h
        obtain ⟨before, after, rfl, hafter⟩ := ih h
        refine ⟨before, after ++ [l], by simp, ?_⟩
        exact List.forall_mem_append.2 ⟨hafter, List.forall_mem_singleton.2 hl⟩
      | true =>
        -- a line that concerns the step is a banner, which shows none, or shows the step
        cases l with
        | banner n => exact absurd h (by simp [showing])
        | step id' text' =>
          obtain rfl : id' = id := of_decide_eq_true hl
          obtain rfl : text' = text := by simpa [showing] using h
          exact ⟨rest, [], rfl, fun _ hl => absurd hl List.not_mem_nil⟩
        | _ => exact absurd hl (by simp [concerns])
  · rintro ⟨before, after, rfl, hafter⟩
    rw [List.append_cons, latest?_append hafter, latest?_concat]
    exact if_pos rfl

/-! ## The last banner -/

/-- Whether a line is a banner. -/
def isBanner : TerminalLine → Bool
  | .banner _ => true
  | _ => false

lemma isBanner_eq_false (h : l.concerns id = false) : l.isBanner = false := by
  cases l with
  | banner n => exact absurd h (by simp [concerns])
  | _ => rfl

/-- Where there is a banner, there is a last one. -/
lemma exists_last_banner (h : ∃ l ∈ log, l.isBanner = true) :
    ∃ (before : List TerminalLine) (n : Nat) (after : List TerminalLine),
      log = before ++ .banner n :: after ∧ ∀ l ∈ after, l.isBanner = false := by
  induction log using List.reverseRecOn with
  | nil => exact absurd h (by simp)
  | append_singleton rest l ih =>
    cases hl : l.isBanner with
    | true =>
      cases l with
      | banner n => exact ⟨rest, n, [], rfl, fun _ hl => absurd hl List.not_mem_nil⟩
      | _ => exact absurd hl (by simp [isBanner])
    | false =>
      have hrest : ∃ l ∈ rest, l.isBanner = true := by
        obtain ⟨l', hl', hbanner⟩ := h
        rcases List.mem_append.1 hl' with hl' | hl'
        · exact ⟨l', hl', hbanner⟩
        · rw [List.mem_singleton.1 hl', hl] at hbanner
          exact absurd hbanner (by simp)
      obtain ⟨before, n, after, rfl, hafter⟩ := ih hrest
      refine ⟨before, n, after ++ [l], by simp, ?_⟩
      exact List.forall_mem_append.2 ⟨hafter, List.forall_mem_singleton.2 hl⟩

/-- What is shown of a step was written since the last banner, if there is one. -/
theorem exists_since_banner (h : latest? id log = some text)
    (hbanner : ∃ l ∈ log, l.isBanner = true) :
    ∃ (before : List TerminalLine) (n : Nat) (between after : List TerminalLine),
      log = before ++ .banner n :: (between ++ .step id text :: after) ∧
        (∀ l ∈ between ++ after, l.isBanner = false) ∧ ∀ l ∈ after, l.concerns id = false := by
  obtain ⟨front, after, rfl, hafter⟩ := latest?_eq_some_iff.1 h
  have hfront : ∃ l ∈ front, l.isBanner = true := by
    obtain ⟨l, hl, hbanner⟩ := hbanner
    refine ⟨l, (List.mem_append.1 hl).resolve_right fun hl => ?_, hbanner⟩
    rcases List.mem_cons.1 hl with rfl | hl
    · exact absurd hbanner (by simp [isBanner])
    · rw [isBanner_eq_false (hafter l hl)] at hbanner
      exact absurd hbanner (by simp)
  obtain ⟨before, n, between, rfl, hbetween⟩ := exists_last_banner hfront
  refine ⟨before, n, between, after, by simp, ?_, hafter⟩
  exact List.forall_mem_append.2 ⟨hbetween, fun l hl => isBanner_eq_false (hafter l hl)⟩

/-! ## Fresh logs -/

/-- No line of a log says of a step what is shown of it already. -/
def Fresh (log : List TerminalLine) : Prop :=
  ∀ (id : StepId) (text : String) (before after : List TerminalLine),
    log = before ++ .step id text :: after → latest? id before ≠ some text

lemma Fresh.nil : Fresh [] := fun _ _ _ _ h => absurd h (by simp)

/-- One more line may say something new of a step. -/
lemma Fresh.concat (h : Fresh log)
    (hl : ∀ id text, l = .step id text → latest? id log ≠ some text) : Fresh (log ++ [l]) := by
  intro id text before after heq
  rcases List.eq_nil_or_concat after with rfl | ⟨rest, last, rfl⟩
  · obtain ⟨rfl, hlast⟩ := List.append_inj' heq rfl
    exact hl id text (List.singleton_inj.1 hlast)
  · rw [List.concat_eq_append, ← List.cons_append, ← List.append_assoc] at heq
    exact h id text before rest (List.append_inj' heq rfl).1

/-- Any further lines that are not for steps may follow. -/
lemma Fresh.append (h : Fresh log) (hlines : ∀ l ∈ lines, ∀ id text, l ≠ .step id text) :
    Fresh (log ++ lines) := by
  induction lines using List.reverseRecOn with
  | nil => rwa [List.append_nil]
  | append_singleton rest l ih =>
    rw [← List.append_assoc]
    refine (ih fun l hl => hlines l (List.mem_append_left _ hl)).concat fun id text hl => ?_
    exact absurd hl (hlines l (by simp) id text)

/-- Two lines for one step are different, if between them there is no banner and no line for it. -/
theorem Fresh.ne {before between after : List TerminalLine} {text' : String} (h : Fresh log)
    (hlog : log = before ++ .step id text :: (between ++ .step id text' :: after))
    (hbetween : ∀ l ∈ between, l.concerns id = false) : text ≠ text' := by
  rintro rfl
  have hsplit : log = (before ++ .step id text :: between) ++ .step id text :: after := by
    rw [hlog, List.append_assoc, List.cons_append]
  exact h id text _ after hsplit (latest?_eq_some_iff.2 ⟨before, between, rfl, hbetween⟩)

end TerminalLine

end TraceTimeline
