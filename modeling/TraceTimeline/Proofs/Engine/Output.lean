import TraceTimeline.Proofs.Engine.Visible
import TraceTimeline.Proofs.Output.Entries

/-!
# The output of an engine

An operation changes the output of an engine if it brings a chunk or a flush, or if the operator
clears the output (`Engine.Operation.update?`).  It does so by one update of the output log
(`Engine.output_perform`), so that what holds of all logs holds of the output of a reachable engine.
-/

namespace TraceTimeline

/-- The update of the output that a frame stands for. -/
def Frame.update? : Frame → Option OutputLog.Operation
  | .chunk c text => some (.push c text)
  | .flush c => some (.flush c)
  | _ => none

namespace Engine

/-- The update of the output in an operation of an engine whose connection is of a generation. -/
def Operation.update? (generation : Option Nat) (op : Operation) : Option OutputLog.Operation :=
  if op = .clearOutput then some .clear else (op.frame? generation).bind Frame.update?

/-- The output after an operation. -/
theorem output_perform (e : Engine) (op : Operation) :
    (e.perform op).1.output = (op.update? e.generation).elim e.output e.output.perform := by
  have hkeep {op : Operation} (hop : op ≠ .clearOutput) (hframe : op.frame? e.generation = none) :
      (op.update? e.generation).elim e.output e.output.perform = e.output := by
    rw [Operation.update?, if_neg hop, hframe]
    rfl
  refine perform_frame_cases
    (P := fun e' => e'.output = (op.update? e.generation).elim e.output e.output.perform)
    (fun a b ha hab => (congrArg (·.2.1) hab).symm.trans ha)
    (fun hframe hop => (hkeep hop hframe).symm) (fun f hframe => ?_) (fun id hop => ?_)
    (fun hop => ?_) (fun line code hop => ?_) (fun hop => ?_) (fun hop => ?_)
  · have hop : op ≠ .clearOutput := by
      rintro rfl
      cases hframe
    rw [Operation.update?, if_neg hop, hframe]
    cases f with
    | event x => exact congrArg (·.1) (surroundings_applyStep e x)
    | sync p => rfl
    | chunk c text => rfl
    | flush c => rfl
  · rw [hop, hkeep (by simp) rfl, selectStep]
    split <;> rfl
  · rw [hop, hkeep (by simp) rfl]
    rfl
  · rw [hop, hkeep (by simp) rfl]
    rfl
  · rw [hop]
    rfl
  · rw [hop, hkeep (by simp) rfl]
    rfl

lemma wellFormed_output_perform {e : Engine} (h : e.output.WellFormed) (op : Operation) :
    (e.perform op).1.output.WellFormed := by
  rw [output_perform]
  cases op.update? e.generation with
  | none => exact h
  | some update => exact h.perform update

end Engine

end TraceTimeline
