import Mathlib
import TraceTimeline.Proofs.Engine.Annotations

/-!
# Following live in any order

After a payload without steps, an engine that receives steps one by one goes through quite different
states when the order is different: a step that is the newest so far is annotated on its own node
and highlighted, a late one or one that comes again leads to a refresh of all frames.  In the end
the order does not show, nor how often a step came (`Engine.follow_in_any_order`).

What is shown after some steps arrived depends on the chronicle of these steps only
(`Engine.Following`): the store holds it, the cursor is at its last step, that step is highlighted,
and every mark on the nodes is the one that store and highlight call for (`Engine.Marked`).
-/

namespace TraceTimeline

namespace Chronicle

variable {c : Chronicle} {x y : Step}

lemma length_le_of_subset {l : List Step} (h : ∀ y ∈ c.steps, y ∈ l) :
    c.steps.length ≤ (l.map (·.id)).dedup.length := by
  rw [← List.length_map (·.id)]
  refine (c.nodup_ids.subperm fun id hid => ?_).length_le
  obtain ⟨y, hy, rfl⟩ := List.mem_map.1 hid
  exact List.mem_dedup.2 (List.mem_map_of_mem (h y hy))

/-- The last step after another became known, which does not correct any: that one if it is above
the last one so far, and else the last one so far. -/
lemma getLast?_note (hsame : ∀ y ∈ c.steps, y.id = x.id → y = x) :
    (c.note x).steps.getLast? =
      if c.steps.getLast?.any (x.id ≤ ·.id) then c.steps.getLast? else some x := by
  cases hlast : c.steps.getLast? with
  | none =>
    have hnil : c.steps = [] := List.getLast?_eq_none_iff.1 hlast
    simp [note, hnil]
  | some y =>
    obtain ⟨hy, hmax⟩ := getLast?_eq_some_iff.1 hlast
    by_cases hle : x.id ≤ y.id
    · have hknown : y ∈ (c.note x).steps := by
        by_cases hid : y.id = x.id
        · exact mem_note.2 (.inl (hsame y hy hid))
        · exact mem_note.2 (.inr ⟨hy, hid⟩)
      rw [if_pos (by simpa using hle), getLast?_eq_some_iff]
      exact ⟨hknown, forall_mem_note_le_iff.2 ⟨hle, hmax⟩⟩
    · have hlt : y.id < x.id := Std.not_le.1 hle
      rw [if_neg (by simpa using hle), getLast?_eq_some_iff]
      refine ⟨mem_note_self c x, forall_mem_note_le_iff.2 ⟨Std.le_refl _, fun z hz => ?_⟩⟩
      exact Std.le_trans (hmax z hz) (Std.le_of_lt hlt)

end Chronicle

namespace Node

variable {n : Node} {nodes : List Node} {line : SourceLine}

/-- The node without its marks. -/
def unmarked (n : Node) : Node := { n with highlighted := false, frame := none }

/-- Annotating the first node of a line changes marks only. -/
lemma unmarked_annotate (line : SourceLine) (frame : Option String) (nodes : List Node) :
    (annotate line frame nodes).map unmarked = nodes.map unmarked := by
  rw [annotate]
  rcases updateFirst_cases line (fun n => { n with frame := frame }) nodes with
    ⟨-, hsame⟩ | ⟨before, n, after, rfl, -, -, hchanged⟩
  · rw [hsame]
  · rw [hchanged, List.map_append, List.map_append, List.map_cons, List.map_cons]
    rfl

/-- A node of a list of which the first one of a line was annotated: it is as before but perhaps for
the frame, and the frame stays at nodes that do not stand for the line. -/
lemma exists_of_mem_annotate {frame : Option String} (h : n ∈ annotate line frame nodes) :
    ∃ m ∈ nodes, n.line = m.line ∧ n.highlighted = m.highlighted ∧
      (n.line ≠ some line → n.frame = m.frame) := by
  rcases mem_updateFirst h with h | ⟨m, hm, hline, rfl⟩
  · exact ⟨n, h, rfl, rfl, fun _ => rfl⟩
  · exact ⟨m, hm, rfl, rfl, fun hne => absurd hline hne⟩

lemma unmarked_highlight (highlighted : Option SourceLine) (nodes : List Node) :
    (highlight highlighted nodes).map unmarked = nodes.map unmarked :=
  List.map_map

lemma unmarked_setFrames (frames : OrderedMap SourceLine (Option String)) (nodes : List Node) :
    (setFrames frames nodes).map unmarked = nodes.map unmarked :=
  List.map_map

end Node

namespace Engine

variable {e e' e₀ : Engine} {c : Chronicle} {x : Step}

/-! ## Marks -/

/-- The nodes of the highlighted line are highlighted, however many they are, and no others. -/
def Lit (e : Engine) : Prop :=
  ∀ n ∈ e.nodes, n.highlighted = (e.highlighted.isSome && n.line = e.highlighted)

/-- Every mark on the nodes is the one that the store and the highlighted line call for. -/
structure Marked (e : Engine) : Prop where
  framed : e.Framed
  /-- Nodes that stand for no line carry no frame. -/
  blank : ∀ n ∈ e.nodes, n.line = none → n.frame = none
  lit : e.Lit

/-- The node with the marks that the store and the highlighted line call for. -/
def mark (e : Engine) (n : Node) : Node :=
  { n with
    highlighted := e.highlighted.isSome && n.line = e.highlighted
    frame := n.line.bind e.store.frameOn }

/-- Nodes whose marks are right can be told from the nodes without the marks. -/
lemma Marked.map_mark (h : e.Marked) : (e.nodes.map Node.unmarked).map e.mark = e.nodes := by
  rw [List.map_map]
  refine (List.map_congr_left fun n hn => ?_).trans (List.map_id _)
  have hframe : n.line.bind e.store.frameOn = n.frame := by
    cases hline : n.line with
    | none => exact (h.blank n hn hline).symm
    | some line => exact (h.framed n hn line hline).symm
  show { n with
    highlighted := e.highlighted.isSome && n.line = e.highlighted
    frame := n.line.bind e.store.frameOn } = n
  rw [hframe, ← h.lit n hn]

/-- Engines whose marks are right have the same nodes if they have them but for the marks, and the
same store and highlighted line. -/
lemma Marked.nodes_eq (h : e.Marked) (h' : e'.Marked) (hstore : e.store = e'.store)
    (hhighlighted : e.highlighted = e'.highlighted)
    (hnodes : e.nodes.map Node.unmarked = e'.nodes.map Node.unmarked) : e.nodes = e'.nodes := by
  have hmark : e.mark = e'.mark := by
    funext n
    rw [mark, mark, hstore, hhighlighted]
  calc e.nodes
      = (e.nodes.map Node.unmarked).map e.mark := h.map_mark.symm
    _ = (e'.nodes.map Node.unmarked).map e'.mark := by rw [hnodes, hmark]
    _ = e'.nodes := h'.map_mark

/-- Annotating the nodes of an arriving step leaves them alone, annotates the first one of its line,
or refreshes all frames. -/
lemma nodes_annotateStep_cases (e : Engine) (x : Step) (outcome : UpsertOutcome) :
    (e.annotateStep x outcome).nodes = e.nodes ∨
      (∃ line, (e.annotateStep x outcome).nodes = Node.annotate line x.frame e.nodes) ∨
      (e.annotateStep x outcome).nodes = e.refreshFrames.nodes := by
  unfold annotateStep
  split
  · split
    · next line _ => exact .inr (.inl ⟨line, rfl⟩)
    · exact .inl rfl
    · exact .inr (.inr rfl)
    · exact .inr (.inr rfl)
    · exact .inl rfl
  · exact .inl rfl

/-- An arriving step changes marks of the nodes only. -/
lemma unmarked_applyStep (e : Engine) (x : Step) :
    (e.applyStep x).nodes.map Node.unmarked = e.nodes.map Node.unmarked := by
  have hannotated (e : Engine) (outcome : UpsertOutcome) :
      (e.annotateStep x outcome).nodes.map Node.unmarked = e.nodes.map Node.unmarked := by
    rcases nodes_annotateStep_cases e x outcome with hnodes | ⟨line, hnodes⟩ | hnodes
    · rw [hnodes]
    · rw [hnodes, Node.unmarked_annotate]
    · rw [hnodes]
      exact Node.unmarked_setFrames ..
  cases hx : e.store.isPast x.id with
  | true => rw [applyStep_of_isPast hx]
  | false =>
    rw [applyStep_of_not_isPast hx]
    dsimp only
    split
    · exact (Node.unmarked_highlight ..).trans (hannotated ..)
    · exact hannotated ..

/-- A node after a step was annotated. -/
lemma exists_of_mem_annotateStep {n : Node} {outcome : UpsertOutcome}
    (h : n ∈ (e.annotateStep x outcome).nodes) :
    ∃ m ∈ e.nodes, n.line = m.line ∧ n.highlighted = m.highlighted ∧
      (n.line = none → n.frame = m.frame ∨ n.frame = none) := by
  rcases nodes_annotateStep_cases e x outcome with hnodes | ⟨line, hnodes⟩ | hnodes
  · rw [hnodes] at h
    exact ⟨n, h, rfl, rfl, fun _ => .inl rfl⟩
  · rw [hnodes] at h
    obtain ⟨m, hm, hline, hlit, hframe⟩ := Node.exists_of_mem_annotate h
    exact ⟨m, hm, hline, hlit, fun hnone => .inl (hframe (by simp [hnone]))⟩
  · rw [hnodes] at h
    obtain ⟨m, hm, rfl⟩ := List.mem_map.1 h
    refine ⟨m, hm, rfl, rfl, fun hnone => .inr ?_⟩
    have hnone : m.line = none := hnone
    simp [hnone]

/-- A node after a step arrived. -/
lemma exists_of_mem_applyStep {n : Node} (hx : e.store.isPast x.id = false)
    (h : n ∈ (e.applyStep x).nodes) :
    ∃ m ∈ e.nodes, n.line = m.line ∧ (n.line = none → n.frame = m.frame ∨ n.frame = none) ∧
      n.highlighted =
        if e.moves x then (x.line.isSome && n.line = x.line : Bool) else m.highlighted := by
  rw [applyStep_of_not_isPast hx] at h
  dsimp only at h
  by_cases hmoves : e.moves x
  · rw [if_pos hmoves] at h
    obtain ⟨k, hk, rfl⟩ := List.mem_map.1 h
    obtain ⟨m, hm, hline, -, hframe⟩ := exists_of_mem_annotateStep hk
    exact ⟨m, hm, hline, hframe, by rw [if_pos hmoves]⟩
  · rw [if_neg hmoves] at h
    obtain ⟨m, hm, hline, hlit, hframe⟩ := exists_of_mem_annotateStep h
    exact ⟨m, hm, hline, hframe, by rw [if_neg hmoves, hlit]⟩

/-- The marks agree with the highlighted line after a step arrived. -/
lemma Lit.applyStep (h : e.Lit) (x : Step) : (e.applyStep x).Lit := by
  cases hx : e.store.isPast x.id with
  | true => rwa [applyStep_of_isPast hx]
  | false =>
    intro n hn
    obtain ⟨m, hm, hline, -, hlit⟩ := exists_of_mem_applyStep hx hn
    rw [hlit, highlighted_applyStep hx]
    split
    · rfl
    · rw [hline]
      exact h m hm

/-- Marks that were right are right after a step arrived, under the conditions that the frames
require. -/
lemma Marked.applyStep (hmarked : e.Marked) (h : e.store.Sound)
    (hlocal : e.Refreshes x ∨ e.Localized x) : (e.applyStep x).Marked := by
  cases hx : e.store.isPast x.id with
  | true => rwa [applyStep_of_isPast hx]
  | false =>
    refine ⟨hmarked.framed.applyStep h hlocal, fun n hn hline => ?_,
      Lit.applyStep hmarked.lit x⟩
    obtain ⟨m, hm, hline', hframe, -⟩ := exists_of_mem_applyStep hx hn
    exact (hframe hline).elim (·.trans (hmarked.blank m hm (hline' ▸ hline))) id

/-! ## One step after another -/

/-- An engine comes from another one, which had no steps, by steps from a list that make up a
chronicle. -/
structure Following (start : Engine) (all : List Step) (c : Chronicle) (e : Engine) : Prop where
  known : ∀ y ∈ c.steps, y ∈ all
  holds : e.store.Holds c
  /-- The store follows live, and its cursor is at the last step. -/
  stance : e.store.stance =
    (start.store.capacity, start.store.policy, c.steps.getLast?.map (·.id), .live)
  highlighted : e.highlighted = (c.steps.getLast?.map (·.line)).getD start.highlighted
  marked : e.Marked
  unmarked : e.nodes.map Node.unmarked = start.nodes.map Node.unmarked
  surroundings : e.surroundings = start.surroundings

namespace Following

variable {start : Engine} {all : List Step}

/-- The gate has no part in it, nor has the epoch. -/
lemma shifted (h : Following start all c e) (gate : Gate) (n : Nat) :
    Following start all c (e.shifted gate n) where
  known := h.known
  holds := h.holds
  stance := h.stance
  highlighted := h.highlighted
  marked := ⟨h.marked.framed, h.marked.blank, h.marked.lit⟩
  unmarked := h.unmarked
  surroundings := h.surroundings

/-- Engines that come from one engine by the same steps agree. -/
lemma agree (h : Following start all c e) (h' : Following start all c e') : e.Agree e' := by
  have hstore : e.store = e'.store := h.holds.eq_of_stance h'.holds (h.stance.trans h'.stance.symm)
  have hhighlighted := h.highlighted.trans h'.highlighted.symm
  have hsurroundings := h.surroundings.trans h'.surroundings.symm
  exact {
    store := hstore
    nodes := h.marked.nodes_eq h'.marked hstore hhighlighted (h.unmarked.trans h'.unmarked.symm)
    highlighted := hhighlighted
    scope := congrArg Store.currentScope hstore
    output := congrArg (·.1) hsurroundings
    connection := congrArg (·.2.1) hsurroundings
    generation := congrArg (·.2.2) hsurroundings }

lemma live (h : Following start all c e) : e.store.follow = .live := congrArg (·.2.2.2) h.stance

lemma cursor_eq (h : Following start all c e) : e.cursor = c.steps.getLast?.map (·.id) :=
  congrArg (·.2.2.1) h.stance

lemma reaches_eq (h : Following start all c e) (id : StepId) :
    e.store.reaches id = c.steps.getLast?.any (id ≤ ·.id) := by
  have hcursor : e.store.cursor = c.steps.getLast?.map (·.id) := h.cursor_eq
  rw [Store.reaches, hcursor, Option.any_map]

lemma reaches (h : Following start all c e) {y : Step} (hy : y ∈ c.steps) :
    e.store.reaches y.id := by
  rw [h.reaches_eq]
  cases hlast : c.steps.getLast? with
  | none => exact absurd hy (by simp [List.getLast?_eq_none_iff.1 hlast])
  | some z => simpa using (Chronicle.getLast?_eq_some_iff.1 hlast).2 y hy

lemma moves_eq (h : Following start all c e) (x : Step) :
    e.moves x = !c.steps.getLast?.any (x.id ≤ ·.id) := by
  simp [moves, h.live, h.reaches_eq]

lemma room (h : Following start all c e)
    (hroom : (all.map (·.id)).dedup.length ≤ start.store.capacity) :
    c.steps.length ≤ e.store.capacity := by
  have hcapacity : e.store.capacity = start.store.capacity := congrArg (·.1) h.stance
  rw [hcapacity]
  exact (Chronicle.length_le_of_subset h.known).trans hroom

lemma getLast?_note (h : Following start all c e)
    (hsame : ∀ y ∈ c.steps, y.id = x.id → y = x) :
    (c.note x).steps.getLast? = if e.moves x then some x else c.steps.getLast? := by
  rw [Chronicle.getLast?_note hsame, h.moves_eq]
  cases c.steps.getLast?.any (x.id ≤ ·.id) <;> rfl

lemma sound (h : Following start all c e) : e.store.Sound where
  holds := ⟨c, h.holds⟩
  pinned hpinned := by
    rw [h.live] at hpinned
    exact absurd hpinned (by decide)

lemma toList_steps (h : Following start all c e)
    (hroom : (all.map (·.id)).dedup.length ≤ start.store.capacity) :
    e.store.steps.toList = c.steps :=
  h.holds.toList_steps (h.room hroom)

/-- At most one node stands for a line if it was so at the start. -/
lemma countP_isAt_le (h : Following start all c e)
    (hlines : (start.nodes.filterMap (·.line)).Nodup) (line : SourceLine) :
    e.nodes.countP (·.isAt line) ≤ 1 := by
  have hsame : e.nodes.filterMap (·.line) = start.nodes.filterMap (·.line) := by
    have hunmarked (nodes : List Node) :
        (nodes.map Node.unmarked).filterMap (·.line) = nodes.filterMap (·.line) :=
      List.filterMap_map
    rw [← hunmarked, h.unmarked, hunmarked]
  have hcount : e.nodes.countP (·.isAt line) = (e.nodes.filterMap (·.line)).count line := by
    rw [List.count_filterMap]
    exact List.countP_congr fun n _ => by simp [Node.isAt]
  rw [hcount, hsame]
  exact List.nodup_iff_count_le_one.1 hlines line

/-- A step that is retained together with all others, and corrects none of them, is localized. -/
lemma localized (h : Following start all c e) (hsteps : e.store.steps.toList = c.steps)
    (hafter : (e.applyStep x).store.steps.toList = (c.note x).steps)
    (hsame : ∀ y ∈ c.steps, y.id = x.id → y = x)
    (hlines : (start.nodes.filterMap (·.line)).Nodup) : e.Localized x where
  lines line _ := h.countP_isAt_le hlines line
  passes y hy _ := h.reaches (hsteps ▸ hy.val)
  keeps n _ line _ hsome := by
    obtain ⟨y, hy, hline, hreached⟩ := Store.isSome_stepOn?.1 hsome
    have hold : y ∈ c.steps := hsteps ▸ hy.val
    have hkept : y ∈ (c.note x).steps := by
      by_cases hid : y.id = x.id
      · exact Chronicle.mem_note.2 (.inl (hsame y hold hid))
      · exact Chronicle.mem_note.2 (.inr ⟨hold, hid⟩)
    exact Store.isSome_stepOn?.2
      ⟨y, Array.mem_toList_iff.1 (hafter ▸ hkept), hline, reaches_applyStep hreached⟩

/-- One after another, steps of the list are followed, as long as each is the same whenever it comes
and there is room for all of them. -/
lemma applyStep (h : Following start all c e) (hx : x ∈ all)
    (hcontent : ∀ x ∈ all, ∀ y ∈ all, x.id = y.id → x = y)
    (hroom : (all.map (·.id)).dedup.length ≤ start.store.capacity)
    (hlines : (start.nodes.filterMap (·.line)).Nodup) :
    Following start all (c.note x) (e.applyStep x) := by
  have hsame : ∀ y ∈ c.steps, y.id = x.id → y = x := fun y hy => hcontent y (h.known y hy) x hx
  have hpast := h.holds.isPast_eq_false_of_room (h.room hroom) x.id
  have hlast := h.getLast?_note hsame
  have hknown : ∀ y ∈ (c.note x).steps, y ∈ all := by
    intro y hy
    rcases Chronicle.mem_note.1 hy with rfl | ⟨hy, -⟩
    · exact hx
    · exact h.known y hy
  have hholds : (e.applyStep x).store.Holds (c.note x) := by
    rw [store_applyStep hpast]
    exact (h.holds.upsert hpast).advanceLive x.id
  have hstance : (e.applyStep x).store.stance =
      (start.store.capacity, start.store.policy, (c.note x).steps.getLast?.map (·.id), .live) := by
    have hupsert := (e.store.stance_upsert x).trans h.stance
    rw [store_applyStep hpast, advanceLive_upsert, hlast]
    split
    · exact congrArg (fun t => (t.1, t.2.1, some x.id, t.2.2.2)) hupsert
    · exact hupsert
  -- all steps are retained before and after, so that no node loses its step
  have hlocal : e.Refreshes x ∨ e.Localized x := by
    have hcapacity : (e.applyStep x).store.capacity = start.store.capacity := congrArg (·.1) hstance
    have hafter : (e.applyStep x).store.steps.toList = (c.note x).steps :=
      hholds.toList_steps (hcapacity ▸ (Chronicle.length_le_of_subset hknown).trans hroom)
    exact .inr (h.localized (h.toList_steps hroom) hafter hsame hlines)
  exact {
    known := hknown
    holds := hholds
    stance := hstance
    highlighted := by
      rw [highlighted_applyStep hpast, hlast]
      split
      · rfl
      · exact h.highlighted
    marked := h.marked.applyStep h.sound hlocal
    unmarked := (unmarked_applyStep e x).trans h.unmarked
    surroundings := (surroundings_applyStep e x).trans h.surroundings }

/-- A list of operations that bring steps of the list leads on to an engine that follows them. -/
lemma run (h : Following start all c e) {ops : List Operation}
    (hops : ∀ op ∈ ops, (op.step? start.generation).isSome)
    (hknown : ∀ x ∈ Operation.steps start.generation ops, x ∈ all)
    (hcontent : ∀ x ∈ all, ∀ y ∈ all, x.id = y.id → x = y)
    (hroom : (all.map (·.id)).dedup.length ≤ start.store.capacity)
    (hlines : (start.nodes.filterMap (·.line)).Nodup) :
    Following start all ((Operation.steps start.generation ops).foldl Chronicle.note c)
      (e.run ops).1 := by
  induction ops generalizing e c with
  | nil => exact h
  | cons op rest ih =>
    obtain ⟨x, hx⟩ := Option.isSome_iff_exists.1 (hops op (List.mem_cons_self ..))
    have hgeneration : e.generation = start.generation := congrArg (·.2.2) h.surroundings
    obtain ⟨gate, hperform⟩ := perform_of_frame? (Operation.frame?_of_step? (hgeneration ▸ hx))
    rw [Operation.steps, List.filterMap_cons_some hx] at hknown ⊢
    have hnext : Following start all (c.note x) (e.perform op).1 := by
      rw [hperform]
      exact (h.applyStep (hknown x (List.mem_cons_self ..)) hcontent hroom hlines).shifted gate 0
    exact ih hnext (fun op hop => hops op (List.mem_cons_of_mem _ hop))
      fun x hx => hknown x (List.mem_cons_of_mem _ hx)

end Following

/-! ## The order does not show -/

/-- A payload without steps, whose nodes carry no frames, is where following starts. -/
lemma following_applySync (h : e.store.Sound) {p : SyncPayload} (htimeline : p.timeline = [])
    (hcursor : p.timelineId = none) (hframes : ∀ n ∈ p.nodes, n.frame = none) (all : List Step) :
    Following (e.applySync p) all Chronicle.empty (e.applySync p) := by
  have hcleared :
      (e.applySync p).store = { e.store.clear with cursor := none, follow := .live } := by
    show e.store.replaceAll p.timeline p.cursor = _
    rw [htimeline, SyncPayload.cursor, hcursor]
    simp [Store.replaceAll, Store.inOrder, Store.upsertAll]
  obtain ⟨c, hc⟩ := h.holds
  -- the highlight leaves the frames alone
  have hnodes : ∀ n ∈ (e.applySync p).nodes, n.frame = none := by
    intro n hn
    obtain ⟨m, hm, rfl⟩ := List.mem_map.1 hn
    obtain ⟨k, hk, rfl⟩ := List.mem_map.1 hm
    exact hframes k hk
  refine ⟨fun y hy => absurd hy List.not_mem_nil, ?_, ?_, rfl, ⟨?_, ?_, ?_⟩, rfl, rfl⟩
  · rw [hcleared]
    exact hc.clear.moveCursor none .live
  · rw [hcleared]
    rfl
  · intro n hn line _
    rw [hnodes n hn, hcleared]
    rfl
  · exact fun n hn _ => hnodes n hn
  · intro n hn
    obtain ⟨m, -, rfl⟩ := List.mem_map.1 hn
    rfl

/-- Following live does not depend on the order of arrival.  Let a payload without steps and without
a selected step be applied, whose nodes stand for different lines, if for any, and carry no frames.
Take any two lists of operations that bring the same steps, in whatever order and however often,
where a step is the same whenever it comes, and where there are not more numbers than the store has
room for.  The engines that the two lists lead to agree in time line, cursor, scope, highlighted
line and nodes.  They retain exactly the steps that came, and every mark on their nodes is right. -/
theorem follow_in_any_order {settings : EngineSettings} (h : Reachable settings e₀)
    {p : SyncPayload} {op : Operation} (hop : Delivers p e₀ op) (htimeline : p.timeline = [])
    (hcursor : p.timelineId = none)
    (hlines : (p.nodes.filterMap fun n => Node.lineOfId n.id).Nodup)
    (hframes : ∀ n ∈ p.nodes, n.frame = none) {first second : List Operation}
    (hfirst : ∀ op ∈ first, (op.step? e₀.generation).isSome)
    (hsecond : ∀ op ∈ second, (op.step? e₀.generation).isSome)
    (hsame : ∀ x, x ∈ Operation.steps e₀.generation first ↔
      x ∈ Operation.steps e₀.generation second)
    (hcontent : ∀ x ∈ Operation.steps e₀.generation first,
      ∀ y ∈ Operation.steps e₀.generation first, x.id = y.id → x = y)
    (hroom : ((Operation.steps e₀.generation first).map (·.id)).dedup.length ≤
      settings.timelineCapacity) :
    let e := (e₀.perform op).1
    (e.run first).1.Agree (e.run second).1 ∧
      (∀ x, x ∈ (e.run first).1.store.steps ↔ x ∈ Operation.steps e₀.generation first) ∧
      (e.run first).1.Marked := by
  intro e
  let start := e₀.applySync p
  let steps := Operation.steps e₀.generation
  have hcapacity : start.store.capacity = max settings.timelineCapacity 1 :=
    (e₀.store.capacity_and_policy_perform (.replaceAll p.timeline p.cursor)).1.trans h.capacity_eq
  have hroom : ((steps first).map (·.id)).dedup.length ≤ start.store.capacity := by
    rw [hcapacity]
    exact hroom.trans (Nat.le_max_left ..)
  have hlines : (start.nodes.filterMap (·.line)).Nodup := by
    have hnodes : start.nodes.filterMap (·.line) =
        p.nodes.filterMap fun n => Node.lineOfId n.id := by
      show (((p.nodes.map Node.ofSnapshot).map _).filterMap _) = _
      rw [List.filterMap_map, List.filterMap_map]
      rfl
    rwa [hnodes]
  have hstart : Following start (steps first) Chronicle.empty e := by
    have hperform : e = start.shifted (op.gateAfter e₀.gate) 0 := congrArg (·.1) hop.perform_eq
    rw [hperform]
    exact (following_applySync h.sound htimeline hcursor hframes _).shifted _ 0
  have hrun := hstart.run hfirst (fun x hx => hx) hcontent hroom hlines
  have hrun' := hstart.run hsecond (fun x hx => (hsame x).2 hx) hcontent hroom hlines
  -- both lists of operations make the same chronicle known
  have hchronicle : Chronicle.ofList (steps second) = Chronicle.ofList (steps first) := by
    refine Chronicle.ext_mem fun x => ?_
    have hcontent' : ∀ x ∈ steps second, ∀ y ∈ steps second, x.id = y.id → x = y :=
      fun x hx y hy => hcontent x ((hsame x).2 hx) y ((hsame y).2 hy)
    rw [Chronicle.mem_ofList hcontent', Chronicle.mem_ofList hcontent]
    exact (hsame x).symm
  change Following start (steps first) (Chronicle.ofList (steps second)) _ at hrun'
  rw [hchronicle] at hrun'
  refine ⟨hrun.agree hrun', fun x => ?_, hrun.marked⟩
  rw [← Array.mem_toList_iff, hrun.toList_steps hroom]
  exact Chronicle.mem_ofList hcontent

/-- Three steps at two lines, in order, and with the last one first and twice.  The second time the
cursor moves only once, and all frames are refreshed three times. -/
theorem follow_in_any_order_last_first :
    let a := (Step.ofLine 1 7).inFrame "a"
    let b := (Step.ofLine 2 8).inFrame "b"
    let c := (Step.ofLine 3 7).inFrame "c"
    let e := ((new ⟨3, .sticky, 8, 1000⟩).run [.transport (.connected 1)]).1
    let p : SyncPayload := ⟨[⟨"7", "", none⟩, ⟨"8", "", none⟩, ⟨"main", "", none⟩], [], none, none⟩
    let start := (e.perform (.syncResponse 1 p)).1
    let first := [.frame (.event a), .frame (.event b), .frame (.event c)]
    let second := [.frame (.event c), .frame (.event b), .frame (.event c), .frame (.event a)]
    (start.run first).1.nodes.map (·.frame) = [some "c", some "b", none] ∧
      (start.run first).1.highlighted = some 7 ∧
      (start.run first).1.Agree (start.run second).1 := by
  intro a b c e p start first second
  have hreachable : Reachable ⟨3, .sticky, 8, 1000⟩ e := ⟨_, rfl⟩
  have hop : Delivers p e (.syncResponse 1 p) := .response (by decide +kernel)
  have hsame (x : Step) : x ∈ [a, b, c] ↔ x ∈ [c, b, c, a] := by
    simp only [List.mem_cons, List.not_mem_nil, or_false]
    tauto
  have hfirst : ∀ op ∈ first, (op.step? e.generation).isSome := by decide +kernel
  have hsecond : ∀ op ∈ second, (op.step? e.generation).isSome := by decide +kernel
  obtain ⟨hagree, -, -⟩ := follow_in_any_order hreachable hop rfl rfl (by decide +kernel)
    (by decide +kernel) hfirst hsecond hsame (by decide +kernel) (by decide +kernel)
  exact ⟨by decide +kernel, by decide +kernel, hagree⟩

end Engine

end TraceTimeline
