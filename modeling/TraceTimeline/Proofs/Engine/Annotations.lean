import Mathlib
import TraceTimeline.Proofs.Engine.Visible
import TraceTimeline.Proofs.Timeline.Lookup

/-!
# The frames on the nodes

A node of a line ought to carry the frame of the latest retained step at the line, of those that the
cursor reaches (`Engine.Framed`).  A refresh of all frames establishes this, whatever they were
before.  An arriving step is annotated without a refresh where that seems to be enough: a step that
was appended changes the first node of its line only.

This is enough under three conditions (`Engine.Localized`): no second node stands for the line, the
cursor passes over no retained step, and no node's line loses its last step by eviction.  Then
frames stay right (`Engine.framed_applyStep`); without any one of the three they need not
(`Engine.frames_left_behind`).
-/

namespace TraceTimeline

namespace Store

variable {s : Store} {x y : Step} {line : SourceLine}

/-! ## The latest step at a line -/

/-- The latest retained step at a line, of those that the cursor reaches. -/
def stepOn? (s : Store) (line : SourceLine) : Option Step :=
  s.steps.toList.reverse.find? fun x => x.line = some line && s.reaches x.id

/-- The frame of that step. -/
def frameOn (s : Store) (line : SourceLine) : Option String := (s.stepOn? line).bind (·.frame)

lemma find?_reverse_eq_some_iff {l : List Step} (hasc : l.Pairwise (fun a b => a.id < b.id))
    {p : Step → Bool} :
    l.reverse.find? p = some y ↔ y ∈ l ∧ p y = true ∧ ∀ z ∈ l, p z = true → z.id ≤ y.id := by
  have hlast := Chronicle.getLast?_eq_some_iff (c := ⟨l.filter p, hasc.filter _⟩) (y := y)
  rw [← List.getLast?_filter, hlast]
  simp [List.mem_filter, and_assoc]

lemma Sound.stepOn?_eq_some_iff (h : s.Sound) :
    s.stepOn? line = some y ↔ y ∈ s.steps ∧ (y.line = some line ∧ s.reaches y.id) ∧
      ∀ z ∈ s.steps, z.line = some line → s.reaches z.id → z.id ≤ y.id := by
  rw [stepOn?, find?_reverse_eq_some_iff h.ascending]
  simp

lemma isSome_stepOn? :
    (s.stepOn? line).isSome ↔ ∃ y ∈ s.steps, y.line = some line ∧ s.reaches y.id := by
  rw [stepOn?, List.find?_isSome]
  simp

/-- The annotations give every line the frame of the latest step at it. -/
lemma Sound.get?_frameAnnotations (h : s.Sound) (line : SourceLine) :
    (s.frameAnnotations s.cursor).get? line = (s.stepOn? line).map (·.frame) := by
  unfold stepOn? reaches
  cases hcursor : s.cursor with
  | none => simp [frameAnnotations]
  | some bound =>
    rw [h.get?_frameAnnotations_some, stepsOn, List.filter_filter, List.getLast?_filter]
    simp [Bool.and_comm]

end Store

namespace Node

variable {n : Node} {nodes : List Node} {line : SourceLine} {frame : Option String}

/-- The node with the frame that a store calls for: that of the latest step at the node's line. -/
def framedBy (s : Store) (n : Node) : Node := { n with frame := n.line.bind s.frameOn }

/-- A node of a line carries that frame if putting it on the node changes nothing. -/
lemma framedBy_eq_self_iff {s : Store} (hline : n.line = some line) :
    n.framedBy s = n ↔ n.frame = s.frameOn line := by
  have hframe : (n.framedBy s).frame = s.frameOn line := by
    show n.line.bind s.frameOn = s.frameOn line
    rw [hline, Option.bind_some]
  rw [← hframe]
  constructor
  · intro heq
    rw [heq]
  · intro heq
    show { n with frame := (n.framedBy s).frame } = n
    rw [← heq]

/-- Changing the first node of a line changes nothing if no node stands for the line, and else one
node only. -/
lemma updateFirst_cases (line : SourceLine) (f : Node → Node) (nodes : List Node) :
    ((∀ n ∈ nodes, n.line ≠ some line) ∧ updateFirst line f nodes = nodes) ∨
      ∃ before n after, nodes = before ++ n :: after ∧ n.line = some line ∧
        (∀ m ∈ before, m.line ≠ some line) ∧ updateFirst line f nodes = before ++ f n :: after := by
  induction nodes with
  | nil => exact .inl ⟨fun n hn => absurd hn List.not_mem_nil, rfl⟩
  | cons n rest ih =>
    rw [updateFirst]
    by_cases hn : n.isAt line
    · rw [if_pos hn]
      exact .inr ⟨[], n, rest, rfl, of_decide_eq_true hn, by simp, rfl⟩
    · rw [if_neg hn]
      have hne : n.line ≠ some line := by simpa [isAt] using hn
      rcases ih with ⟨hnone, hsame⟩ | ⟨before, m, after, rfl, hm, hbefore, hchanged⟩
      · exact .inl ⟨List.forall_mem_cons.2 ⟨hne, hnone⟩, congrArg _ hsame⟩
      · exact .inr ⟨n :: before, m, after, rfl, hm, List.forall_mem_cons.2 ⟨hne, hbefore⟩,
          congrArg _ hchanged⟩

/-- A node after the first one of a line was changed. -/
lemma mem_updateFirst {f : Node → Node} (h : n ∈ updateFirst line f nodes) :
    n ∈ nodes ∨ ∃ m ∈ nodes, m.line = some line ∧ n = f m := by
  rcases updateFirst_cases line f nodes with
    ⟨-, hsame⟩ | ⟨before, m, after, rfl, hm, -, hchanged⟩
  · rw [hsame] at h
    exact .inl h
  · rw [hchanged] at h
    rcases List.mem_append.1 h with h | h
    · exact .inl (List.mem_append_left _ h)
    · rcases List.mem_cons.1 h with rfl | h
      · exact .inr ⟨m, by simp, hm, rfl⟩
      · exact .inl (by simp [h])

/-- Where no second node stands for a line, every node of the line is annotated. -/
lemma mem_annotate (hone : nodes.countP (·.isAt line) ≤ 1) (h : n ∈ annotate line frame nodes) :
    (n.line = some line ∧ n.frame = frame) ∨ (n ∈ nodes ∧ n.line ≠ some line) := by
  rw [annotate] at h
  rcases updateFirst_cases line (fun n => { n with frame := frame }) nodes with
    ⟨hnone, hsame⟩ | ⟨before, m, after, rfl, hm, hbefore, hchanged⟩
  · rw [hsame] at h
    exact .inr ⟨h, hnone n h⟩
  · rw [hchanged] at h
    rw [List.countP_append, List.countP_cons, if_pos (by simp [isAt, hm])] at hone
    have hcount : after.countP (·.isAt line) = 0 := by omega
    have hafter : ∀ k ∈ after, ¬ k.isAt line := List.countP_eq_zero.1 hcount
    rcases List.mem_append.1 h with h | h
    · exact .inr ⟨List.mem_append_left _ h, hbefore n h⟩
    · rcases List.mem_cons.1 h with rfl | h
      · exact .inl ⟨hm, rfl⟩
      · exact .inr ⟨by simp [h], by simpa [isAt] using hafter n h⟩

end Node

namespace Engine

variable {e : Engine} {x : Step}

/-! ## Engines whose frames are right -/

/-- Every node of a line carries the frame of the latest retained step at the line, of those that
the cursor reaches, and no frame if there is none. -/
def Framed (e : Engine) : Prop := ∀ n ∈ e.nodes, ∀ line ∈ n.line, n.frame = e.store.frameOn line

-- the lines of a node are at most one: they are looked at, and not all numbers of lines
instance : Decidable e.Framed :=
  have (n : Node) : Decidable (∀ line ∈ n.line, n.frame = e.store.frameOn line) :=
    Option.decidableForallMem n.line
  inferInstanceAs (Decidable (∀ n ∈ e.nodes, ∀ line ∈ n.line, n.frame = e.store.frameOn line))

lemma framed_setHighlight (line : Option SourceLine) : (e.setHighlight line).Framed ↔ e.Framed := by
  simp [Framed, setHighlight, Node.highlight]

/-- A refresh puts on every node the frame that the store calls for. -/
lemma nodes_refreshFrames (h : e.store.Sound) :
    e.refreshFrames.nodes = e.nodes.map (Node.framedBy e.store) := by
  refine List.map_congr_left fun n _ => ?_
  have hframe (line : SourceLine) :
      ((e.store.frameAnnotations e.store.cursor).get? line).join = e.store.frameOn line := by
    rw [h.get?_frameAnnotations, Store.frameOn]
    cases e.store.stepOn? line <;> rfl
  rw [Node.framedBy]
  cases hline : n.line with
  | none => simp
  | some line => simp [hframe line]

lemma framed_refreshFrames (h : e.store.Sound) : e.refreshFrames.Framed := by
  intro n hn line hline
  rw [nodes_refreshFrames h] at hn
  obtain ⟨m, -, rfl⟩ := List.mem_map.1 hn
  exact (Node.framedBy_eq_self_iff hline).1 rfl

/-- Frames are right if a refresh would leave the nodes that stand for lines as they are. -/
lemma framed_iff (h : e.store.Sound) :
    e.Framed ↔ e.refreshFrames.nodes.filter (·.line.isSome) = e.nodes.filter (·.line.isSome) := by
  rw [nodes_refreshFrames h, List.filter_map]
  show _ ↔ (e.nodes.filter (·.line.isSome)).map (Node.framedBy e.store) = _
  constructor
  · intro hframed
    refine (List.map_congr_left fun n hn => ?_).trans (List.map_id _)
    obtain ⟨hn, hline⟩ := List.mem_filter.1 hn
    obtain ⟨line, hline⟩ := Option.isSome_iff_exists.1 hline
    exact (Node.framedBy_eq_self_iff hline).2 (hframed n hn line hline)
  · intro hsame n hn line hline
    have hmem : n ∈ e.nodes.filter (·.line.isSome) :=
      List.mem_filter.2 ⟨hn, Option.isSome_iff_exists.2 ⟨line, hline⟩⟩
    have hself := List.map_inj_left.1 (hsame.trans (List.map_id _).symm) n hmem
    exact (Node.framedBy_eq_self_iff hline).1 hself

/-! ## A step that arrives -/

/-- What the cursor reaches it still reaches after a step arrived. -/
lemma reaches_applyStep {id : StepId} (h : e.store.reaches id) :
    (e.applyStep x).store.reaches id := by
  cases hx : e.store.isPast x.id with
  | true => rwa [applyStep_of_isPast hx]
  | false =>
    rw [store_applyStep hx]
    refine Store.reaches_advanceLive ?_
    rwa [Store.reaches, Store.cursor_upsert]

/-- The arrival of a step is followed by a refresh of all frames: the step is at or before the
cursor, and it is not the newest. -/
def Refreshes (e : Engine) (x : Step) : Prop :=
  ((e.store.upsert x).2 = .inserted ∨ (e.store.upsert x).2 = .replaced) ∧
    (e.applyStep x).store.reaches x.id

/-- A step has no bearing on the frames beyond the first node of its line. -/
structure Localized (e : Engine) (x : Step) : Prop where
  /-- No second node stands for the line. -/
  lines : ∀ line ∈ x.line, e.nodes.countP (·.isAt line) ≤ 1
  /-- The cursor passes over no retained step. -/
  passes : ∀ y ∈ e.store.steps, (e.applyStep x).store.reaches y.id → e.store.reaches y.id
  /-- No node's line loses its last step. -/
  keeps : ∀ n ∈ e.nodes, ∀ line ∈ n.line,
    (e.store.stepOn? line).isSome → ((e.applyStep x).store.stepOn? line).isSome

instance : Decidable (e.Localized x) :=
  have : Decidable (∀ line ∈ x.line, e.nodes.countP (·.isAt line) ≤ 1) :=
    Option.decidableForallMem x.line
  have (n : Node) : Decidable (∀ line ∈ n.line, (e.store.stepOn? line).isSome →
      ((e.applyStep x).store.stepOn? line).isSome) :=
    Option.decidableForallMem n.line
  decidable_of_iff
    ((∀ line ∈ x.line, e.nodes.countP (·.isAt line) ≤ 1) ∧
      (∀ y ∈ e.store.steps, (e.applyStep x).store.reaches y.id → e.store.reaches y.id) ∧
      ∀ n ∈ e.nodes, ∀ line ∈ n.line,
        (e.store.stepOn? line).isSome → ((e.applyStep x).store.stepOn? line).isSome)
    ⟨fun ⟨lines, passes, keeps⟩ => ⟨lines, passes, keeps⟩, fun h => ⟨h.lines, h.passes, h.keeps⟩⟩

/-- At a node's line, the latest step stays when a localized step arrives that is not at the line,
or not reached by the cursor, and that takes the place of no step that is. -/
lemma Localized.stepOn?_applyStep (hlocal : e.Localized x) (h : e.store.Sound)
    (hx : e.store.isPast x.id = false) {n : Node} (hn : n ∈ e.nodes) {line : SourceLine}
    (hline : n.line = some line)
    (hother : ¬ (x.line = some line ∧ (e.applyStep x).store.reaches x.id))
    (hfresh : ∀ y ∈ e.store.steps, e.store.reaches y.id → y.id ≠ x.id) :
    (e.applyStep x).store.stepOn? line = e.store.stepOn? line := by
  have hafter := sound_applyStep h x
  have hsteps := steps_applyStep hx
  -- every step that is considered afterwards was considered before
  have hbefore {z : Step} (hz : z ∈ (e.applyStep x).store.steps) (hzline : z.line = some line)
      (hreached : (e.applyStep x).store.reaches z.id) :
      z ∈ e.store.steps ∧ e.store.reaches z.id := by
    rcases h.mem_upsert hx (hsteps ▸ hz) with rfl | ⟨hold, -⟩
    · exact absurd ⟨hzline, hreached⟩ hother
    · exact ⟨hold, hlocal.passes z hold hreached⟩
  cases hlatest : e.store.stepOn? line with
  | none =>
    refine Option.not_isSome_iff_eq_none.1 fun hsome => ?_
    obtain ⟨z, hz, hzline, hreached⟩ := Store.isSome_stepOn?.1 hsome
    obtain ⟨hold, hreached⟩ := hbefore hz hzline hreached
    have hsome : (e.store.stepOn? line).isSome :=
      Store.isSome_stepOn?.2 ⟨z, hold, hzline, hreached⟩
    rw [hlatest] at hsome
    exact absurd hsome (by simp)
  | some y =>
    obtain ⟨hy, ⟨hyline, hreached⟩, hmax⟩ := h.stepOn?_eq_some_iff.1 hlatest
    have hsome : (e.store.stepOn? line).isSome := by rw [hlatest]; rfl
    obtain ⟨z, hz⟩ := Option.isSome_iff_exists.1 (hlocal.keeps n hn line hline hsome)
    obtain ⟨hmem, ⟨hzline, hzreached⟩, hzmax⟩ := hafter.stepOn?_eq_some_iff.1 hz
    obtain ⟨hold, hzbefore⟩ := hbefore hmem hzline hzreached
    -- the latest step before and the one after are each not below the other
    have hle : z.id ≤ y.id := hmax z hold hzline hzbefore
    have hge : y.id ≤ z.id := by
      rcases h.mem_upsert_or_lt hx hy (hfresh y hy hreached) with hkept | hlt
      · exact hzmax y (hsteps ▸ hkept) hyline (reaches_applyStep hreached)
      · exact Std.le_of_lt (hlt z (hsteps ▸ hmem))
    rw [hz, h.eq_of_id_eq hold hy (Std.le_antisymm hle hge)]

/-- Whether frames are right after a step arrived is decided when the step is annotated: the
highlight has no bearing on it. -/
lemma framed_applyStep_iff (hx : e.store.isPast x.id = false) :
    (e.applyStep x).Framed ↔
      ({ e with store := (e.applyStep x).store }.annotateStep x (e.store.upsert x).2).Framed := by
  rw [store_applyStep hx, applyStep_of_not_isPast hx]
  dsimp only
  split
  · exact framed_setHighlight _
  · rfl

lemma Framed.of_nodes_eq {e' : Engine} (hframed : e.Framed) (hnodes : e'.nodes = e.nodes)
    (hlatest : ∀ n ∈ e.nodes, ∀ line ∈ n.line, e'.store.stepOn? line = e.store.stepOn? line) :
    e'.Framed := by
  intro n hn line hline
  rw [hnodes] at hn
  rw [hframed n hn line hline, Store.frameOn, Store.frameOn, hlatest n hn line hline]

/-- A step that is appended, and that the cursor reaches, is the latest step at its line. -/
lemma stepOn?_applyStep_of_appended {line : SourceLine} (h : e.store.Sound)
    (hx : (e.store.upsert x).2 = .appended) (hline : x.line = some line)
    (hreached : (e.applyStep x).store.reaches x.id) :
    (e.applyStep x).store.stepOn? line = some x := by
  have hpast := Store.isPast_of_appended hx
  rw [(sound_applyStep h x).stepOn?_eq_some_iff, steps_applyStep hpast]
  refine ⟨h.mem_of_appended hx, ⟨hline, hreached⟩, fun z hz _ _ => ?_⟩
  rcases h.mem_upsert hpast hz with rfl | ⟨hold, -⟩
  · exact Std.le_refl _
  · exact Std.le_of_lt (h.id_lt_of_appended hx z hold)

/-- Right frames stay right when a localized step arrives and is not annotated. -/
lemma Framed.of_localized (hframed : e.Framed) (hlocal : e.Localized x) (h : e.store.Sound)
    (hx : e.store.isPast x.id = false)
    (hother : ∀ line, ¬ (x.line = some line ∧ (e.applyStep x).store.reaches x.id))
    (hfresh : ∀ y ∈ e.store.steps, e.store.reaches y.id → y.id ≠ x.id) :
    ({ e with store := (e.applyStep x).store } : Engine).Framed :=
  hframed.of_nodes_eq rfl fun _ hn line hline =>
    hlocal.stepOn?_applyStep h hx hn hline (hother line) hfresh

/-- Right frames stay right when a localized step is appended, is reached by the cursor, and is
annotated at its line. -/
lemma Framed.annotate {line : SourceLine} (hframed : e.Framed) (hlocal : e.Localized x)
    (h : e.store.Sound) (happended : (e.store.upsert x).2 = .appended) (hline : x.line = some line)
    (hreached : (e.applyStep x).store.reaches x.id) :
    ({ e with
      store := (e.applyStep x).store
      nodes := Node.annotate line x.frame e.nodes } : Engine).Framed := by
  intro n hn line' hline'
  rcases Node.mem_annotate (hlocal.lines line hline) hn with ⟨hat, hframe⟩ | ⟨hold, hne⟩
  · obtain rfl : line = line' := Option.some.inj (hat.symm.trans hline')
    show n.frame = (e.applyStep x).store.frameOn line
    rw [hframe, Store.frameOn, stepOn?_applyStep_of_appended h happended hline hreached]
    rfl
  · have hother : ¬ (x.line = some line' ∧ (e.applyStep x).store.reaches x.id) := by
      rintro ⟨hsame, -⟩
      exact hne (hline'.trans (hsame.symm.trans hline))
    have hlatest := hlocal.stepOn?_applyStep h (Store.isPast_of_appended happended) hold hline'
      hother fun y hy _ => UInt64.ne_of_lt (h.id_lt_of_appended happended y hy)
    show n.frame = (e.applyStep x).store.frameOn line'
    rw [hframed n hold line' hline', Store.frameOn, Store.frameOn, hlatest]

/-- Frames that were right are right after a step arrived, if they are refreshed or the step has no
bearing beyond the first node of its line. -/
lemma Framed.applyStep (hframed : e.Framed) (h : e.store.Sound)
    (hlocal : e.Refreshes x ∨ e.Localized x) : (e.applyStep x).Framed := by
  cases hx : e.store.isPast x.id with
  | true => rwa [applyStep_of_isPast hx]
  | false =>
    rw [framed_applyStep_iff hx]
    have hafter := sound_applyStep h x
    have happended_localized (happended : (e.store.upsert x).2 = .appended) : e.Localized x :=
      hlocal.resolve_left fun hrefreshes => by simpa [happended] using hrefreshes.1
    unfold annotateStep
    split
    · next hreached =>
      split
      · next line happended hline =>
        exact hframed.annotate (happended_localized happended) h happended hline hreached
      · next happended hline =>
        refine hframed.of_localized (happended_localized happended) h hx (by simp [hline]) ?_
        exact fun y hy _ => UInt64.ne_of_lt (h.id_lt_of_appended happended y hy)
      · exact framed_refreshFrames hafter
      · exact framed_refreshFrames hafter
      · next hstale =>
        rw [Store.snd_upsert_eq_stale_iff, hx] at hstale
        exact absurd hstale Bool.false_ne_true
    · next hreached =>
      have hlocalized : e.Localized x := hlocal.resolve_left fun hrefreshes =>
        hreached hrefreshes.2
      refine hframed.of_localized hlocalized h hx (fun _ hx => hreached hx.2) ?_
      -- the cursor is before the step, and so is every step that is considered
      exact fun y _ hy hid => hreached (hid ▸ reaches_applyStep hy)

/-! ## Frames under events -/

/-- Frames stay right.  Take a reachable engine where every node of a line carries the frame of the
latest retained step at the line, of those that the cursor reaches.  After a step arrived, of any
number and with any outcome, this holds again, and a refresh of all frames would leave the nodes of
lines as they are: provided that frames were refreshed at its arrival, or else that no second node
stands for its line, the cursor passes over no retained step, and no node's line loses its last
step. -/
theorem framed_applyStep {settings : EngineSettings} (h : Reachable settings e)
    (hframed : e.Framed) (hlocal : e.Refreshes x ∨ e.Localized x) :
    (e.applyStep x).Framed ∧
      (e.applyStep x).refreshFrames.nodes.filter (·.line.isSome) =
        (e.applyStep x).nodes.filter (·.line.isSome) := by
  have hafter := hframed.applyStep h.sound hlocal
  exact ⟨hafter, (framed_iff (sound_applyStep h.sound x)).1 hafter⟩

/-- A step is appended and evicts one of two steps at another line, whose node keeps the frame of
the second. -/
theorem framed_applyStep_evicting :
    let x := (Step.ofLine 3 8).inFrame "c"
    let e := ((new ⟨2, .sticky, 8, 1000⟩).run
      [.frame (.sync ⟨[⟨"7", "", none⟩, ⟨"8", "", none⟩], [], none, none⟩),
        .frame (.event ((Step.ofLine 1 7).inFrame "a")),
        .frame (.event ((Step.ofLine 2 7).inFrame "b"))]).1
    (e.store.upsert x).2 = .appended ∧ (e.applyStep x).store.horizon = some 1 ∧
      (e.applyStep x).nodes.map (·.frame) = [some "b", some "c"] ∧ (e.applyStep x).Framed := by
  intro x e
  have hreachable : Reachable ⟨2, .sticky, 8, 1000⟩ e := ⟨_, rfl⟩
  have hlocal : e.Localized x := by decide +kernel
  exact ⟨by decide +kernel, by decide +kernel, by decide +kernel,
    (framed_applyStep hreachable (by decide +kernel) (.inr hlocal)).1⟩

/-- Without any one of the three conditions a frame may be left behind.  After a payload that
selects the first of two steps, the cursor passes over the second, at line 8, when a third arrives.
Of two nodes of one line only the first is annotated.  The last step at line 7 is evicted and leaves
its frame. -/
theorem frames_left_behind :
    let at7 := (Step.ofLine 1 7).inFrame "a"
    let at8 := (Step.ofLine 2 8).inFrame "b"
    let x := (Step.ofLine 3 9).inFrame "c"
    let passing := ((new ⟨8, .sticky, 8, 1000⟩).run
      [.frame (.sync ⟨[⟨"7", "", some "a"⟩, ⟨"8", "", none⟩], [at7, at8], some 1, none⟩)]).1
    let doubled := ((new ⟨8, .sticky, 8, 1000⟩).run
      [.frame (.sync ⟨[⟨"7", "", none⟩, ⟨"07", "", none⟩], [], none, none⟩)]).1
    let evicting := ((new ⟨1, .sticky, 8, 1000⟩).run
      [.frame (.sync ⟨[⟨"7", "", none⟩, ⟨"8", "", none⟩], [], none, none⟩),
        .frame (.event at7)]).1
    (passing.Framed ∧ ¬ (passing.applyStep x).Framed) ∧
      (doubled.Framed ∧ ¬ (doubled.applyStep at7).Framed) ∧
      (evicting.Framed ∧ ¬ (evicting.applyStep at8).Framed) := by
  intro at7 at8 x passing doubled evicting
  have hsorted : Store.inOrder [at7, at8] = [at7, at8] := List.mergeSort_of_pairwise (by decide)
  have hpassing : passing.Framed ∧ ¬ (passing.applyStep x).Framed := by
    simp only [passing, run, perform, applyFrame, applySync, Store.replaceAll, hsorted]
    decide +kernel
  exact ⟨hpassing, by decide +kernel, by decide +kernel⟩

end Engine

end TraceTimeline
