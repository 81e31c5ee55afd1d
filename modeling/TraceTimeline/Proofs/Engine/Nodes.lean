import Mathlib
import TraceTimeline.Proofs.Engine.Following
import TraceTimeline.Proofs.Engine.Highlight

/-!
# The nodes along a run

Which nodes are highlighted is kept twice: in the highlighted line of the engine and in a mark on
every node.  Whatever happens, the two agree (`Engine.Lit`).

What a node is, its marks apart, comes with a payload and is changed by an edit only, which replaces
the text of one node at most.  All other operations set marks (`Engine.unmarked_perform`).  So much
is known of the nodes of every engine that a run leads to: `Engine.nodes_marked`.
-/

namespace TraceTimeline

namespace Engine

variable {e : Engine} {op : Operation}

/-! ## The marks and the highlighted line -/

/-- A node is highlighted if it stands for the highlighted line, and in no other case.  A node
without a line never is. -/
lemma Lit.highlighted_iff (h : e.Lit) {n : Node} (hn : n ∈ e.nodes) :
    n.highlighted = true ↔ ∃ line, e.highlighted = some line ∧ n.line = some line := by
  rw [h n hn]
  cases e.highlighted with
  | none => simp
  | some line => simp

/-- That marks and highlighted line agree is a property of what is shown. -/
lemma visible_lit : Visible Lit := by
  intro e e' h hshown
  obtain ⟨-, hnodes, hhighlighted⟩ := shown_eq_iff.1 hshown
  intro n hn
  rw [← hhighlighted]
  rw [← hnodes] at hn
  exact h n hn

lemma lit_setHighlight (e : Engine) (line : Option SourceLine) : (e.setHighlight line).Lit := by
  intro n hn
  obtain ⟨m, -, rfl⟩ := List.mem_map.1 hn
  rfl

lemma Lit.editNode (h : e.Lit) (line : SourceLine) (code : String) :
    (e.editNode line code).1.Lit := by
  intro n hn
  rcases Node.mem_updateFirst hn with hn | ⟨m, hm, -, rfl⟩
  · exact h n hn
  · exact h m hm

/-- Marks and highlighted line agree after every operation. -/
lemma Lit.perform (h : e.Lit) (op : Operation) : (e.perform op).1.Lit := by
  refine perform_cases visible_lit h ?event ?sync ?selectStep ?followLive ?editNode
    ?backendRestarted
  case event =>
    rintro x -
    exact h.applyStep x
  case sync =>
    rintro p -
    apply lit_setHighlight
  case selectStep =>
    rintro id -
    rcases selectStep_cases e id with hsame | hselected
    · rwa [hsame]
    · rw [hselected]
      apply lit_setHighlight
  case followLive =>
    rintro -
    apply lit_setHighlight
  case editNode =>
    rintro line code -
    exact h.editNode line code
  case backendRestarted =>
    rintro - n hn
    obtain ⟨m, hm, rfl⟩ := List.mem_map.1 hn
    exact lit_setHighlight e none m hm

lemma Lit.run (h : e.Lit) (ops : List Operation) : (e.run ops).1.Lit := by
  induction ops generalizing e with
  | nil => exact h
  | cons op rest ih => exact ih (h.perform op)

/-! ## The nodes apart from the marks -/

lemma unmarked_refreshAnnotations (e : Engine) :
    e.refreshAnnotations.nodes.map Node.unmarked = e.nodes.map Node.unmarked :=
  (Node.unmarked_highlight ..).trans (Node.unmarked_setFrames ..)

/-- Without a payload and an edit, an operation sets marks only: there are as many nodes, in the
same order, and they have their identifiers, lines and texts. -/
lemma unmarked_perform (hpayload : op.payload? e.generation = none)
    (hedit : ∀ line code, op ≠ .editNode line code) :
    (e.perform op).1.nodes.map Node.unmarked = e.nodes.map Node.unmarked := by
  refine perform_cases (P := fun e' => e'.nodes.map Node.unmarked = e.nodes.map Node.unmarked)
    ?visible rfl ?event ?sync ?selectStep ?followLive ?editNode ?backendRestarted
  case visible =>
    intro e' e'' h hshown
    obtain ⟨-, hnodes, -⟩ := shown_eq_iff.1 hshown
    rwa [← hnodes]
  case event =>
    rintro x -
    exact unmarked_applyStep e x
  case sync =>
    intro p hframe
    rw [Operation.payload?_of_frame? hframe] at hpayload
    cases hpayload
  case selectStep =>
    rintro id -
    rcases selectStep_cases e id with hsame | hselected
    · rw [hsame]
    · rw [hselected]
      exact unmarked_refreshAnnotations _
  case followLive =>
    rintro -
    exact unmarked_refreshAnnotations _
  case editNode =>
    intro line code hop
    exact absurd hop (hedit line code)
  case backendRestarted =>
    rintro -
    exact List.map_map.trans (Node.unmarked_highlight ..)

/-- An edit changes nothing in an engine without a node of the line, and else the text of the first
one. -/
lemma perform_editNode_cases (e : Engine) (line : SourceLine) (code : String) :
    ((∀ n ∈ e.nodes, n.line ≠ some line) ∧ (e.perform (.editNode line code)).1 = e) ∨
      ∃ before n after, e.nodes = before ++ n :: after ∧ n.line = some line ∧
        (∀ m ∈ before, m.line ≠ some line) ∧
        (e.perform (.editNode line code)).1 =
          { e with nodes := before ++ { n with sourceText := code } :: after } := by
  have hperform : (e.perform (.editNode line code)).1 =
      { e with nodes := Node.updateFirst line (fun n => { n with sourceText := code }) e.nodes } :=
    rfl
  rw [hperform]
  rcases Node.updateFirst_cases line (fun n => { n with sourceText := code }) e.nodes with
    ⟨hnone, hsame⟩ | ⟨before, n, after, hnodes, hn, hbefore, hchanged⟩
  · exact .inl ⟨hnone, by rw [hsame]⟩
  · exact .inr ⟨before, n, after, hnodes, hn, hbefore, by rw [hchanged]⟩

/-! ## Runs -/

/-- What is known of the nodes of every engine that a run leads to.  A node is highlighted if it
stands for the highlighted line, and in no other case.  No operation but a payload and an edit
changes more of the nodes than their marks, and an edit changes the text of the first node of its
line and nothing else. -/
theorem nodes_marked (settings : EngineSettings) (ops : List Operation) :
    let e := ((new settings).run ops).1
    (∀ n ∈ e.nodes, n.highlighted = true ↔
        ∃ line, e.highlighted = some line ∧ n.line = some line) ∧
      (∀ op, op.payload? e.generation = none → (∀ line code, op ≠ .editNode line code) →
        (e.perform op).1.nodes.map Node.unmarked = e.nodes.map Node.unmarked) ∧
      ∀ line code,
        ((∀ n ∈ e.nodes, n.line ≠ some line) ∧ (e.perform (.editNode line code)).1 = e) ∨
          ∃ before n after, e.nodes = before ++ n :: after ∧ n.line = some line ∧
            (∀ m ∈ before, m.line ≠ some line) ∧
            (e.perform (.editNode line code)).1 =
              { e with nodes := before ++ { n with sourceText := code } :: after } := by
  intro e
  have hnew : (new settings).Lit := fun n hn => absurd hn List.not_mem_nil
  refine ⟨?_, ?_, ?_⟩
  · intro n hn
    exact (hnew.run ops).highlighted_iff hn
  · intro op hpayload hedit
    exact unmarked_perform hpayload hedit
  · intro line code
    exact perform_editNode_cases e line code

/-- Two nodes stand for the highlighted line and one for none.  An edit replaces the text of the
first of the two, and a new run takes the marks away. -/
theorem nodes_marked_twins :
    let p : SyncPayload :=
      ⟨[⟨"7", "a", none⟩, ⟨" 7", "b", none⟩, ⟨"main", "", none⟩], [], none, none⟩
    let e := ((new ⟨8, .sticky, 8, 1000⟩).run
      [.transport (.connected 1), .syncResponse 1 p, .frame (.event (Step.ofLine 1 7))]).1
    let edited := (e.perform (.editNode 7 "c")).1
    let restarted := (edited.perform .backendRestarted).1
    e.nodes.map (·.highlighted) = [true, true, false] ∧
      edited.nodes.map (·.sourceText) = ["c", "b", ""] ∧
      restarted.nodes.map Node.unmarked = edited.nodes.map Node.unmarked ∧
      ∀ n ∈ restarted.nodes, n.highlighted = false := by
  intro p e edited restarted
  have hedited : edited = ((new ⟨8, .sticky, 8, 1000⟩).run [.transport (.connected 1),
      .syncResponse 1 p, .frame (.event (Step.ofLine 1 7)), .editNode 7 "c"]).1 := rfl
  obtain ⟨-, hmarks, -⟩ := nodes_marked ⟨8, .sticky, 8, 1000⟩ [.transport (.connected 1),
    .syncResponse 1 p, .frame (.event (Step.ofLine 1 7)), .editNode 7 "c"]
  rw [← hedited] at hmarks
  refine ⟨by decide +kernel, by decide +kernel, ?_, by decide +kernel⟩
  exact hmarks .backendRestarted rfl (by simp)

end Engine

end TraceTimeline
