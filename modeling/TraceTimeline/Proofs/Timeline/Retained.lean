import Mathlib
import TraceTimeline.Proofs.Timeline.WellFormed

/-!
# Retained steps

Look-ups by number, and what becomes of the retained steps when a step is put into the store.  The
retained steps are a chronicle of their own (`Store.Sound.retained`), in which the step is noted
before anything is evicted (`Store.Sound.upsert_layout`).  Said of steps and their numbers alone:
what is retained afterwards is the new step or was retained before (`Store.Sound.mem_upsert`), and
what is not retained any more is below everything that is (`Store.Sound.mem_upsert_or_lt`).
Reasoning about marks, which are taken from retained steps, needs no more than this of the store.
-/

namespace TraceTimeline

namespace Store

variable {s : Store} {c : Chronicle} {x y : Step} {id : StepId}

/-! ## Look-ups by number -/

lemma Sound.ascending (h : s.Sound) : s.steps.toList.Pairwise (fun a b => a.id < b.id) :=
  h.wellFormed.ascending

/-- The retained steps are a chronicle of their own. -/
def Sound.retained (h : s.Sound) : Chronicle := ⟨s.steps.toList, h.ascending⟩

lemma Sound.eq_of_id_eq (h : s.Sound) (hx : x ∈ s.steps) (hy : y ∈ s.steps) (hid : x.id = y.id) :
    x = y :=
  Chronicle.eq_of_id_eq (c := h.retained) hx.val hy.val hid

/-- The search finds the retained step of a number, or it finds out that there is none and whether
the number is above all others. -/
lemma Sound.search_cases (h : s.Sound) (id : StepId) :
    (∃ i z, s.search id = .found i ∧ s.steps[i]? = some z ∧ z.id = id) ∨
      ∃ i, s.search id = .gap i ∧ (∀ z ∈ s.steps, z.id ≠ id) ∧
        (i = s.steps.size ↔ ∀ z ∈ s.steps, z.id < id) := by
  have hstands := search_stands h.ascending id
  generalize s.search id = position at hstands ⊢
  cases hstands with
  | found before z after hsplit hsame hbelow habove =>
    have hz : s.steps[before.length]? = some z := by
      rw [← Array.getElem?_toList, hsplit]
      simp
    exact .inl ⟨_, z, rfl, hz, hsame⟩
  | gap before after hsplit hbelow habove =>
    have hmem {z : Step} : z ∈ s.steps ↔ z ∈ before ∨ z ∈ after := by
      rw [← Array.mem_toList_iff, hsplit, List.mem_append]
    have hsize : s.steps.size = before.length + after.length := by
      rw [← Array.length_toList, hsplit, List.length_append]
    refine .inr ⟨_, rfl, fun z hz => ?_, fun hlast z hz => ?_, fun hall => ?_⟩
    · rcases hmem.1 hz with hz | hz
      · exact UInt64.ne_of_lt (hbelow z hz)
      · exact (UInt64.ne_of_lt (habove z hz)).symm
    · have hnil : after = [] := List.eq_nil_of_length_eq_zero (by omega)
      exact hbelow z ((hmem.1 hz).resolve_right (by simp [hnil]))
    · -- a step after the gap would be above the number
      have hnil : after = [] := List.eq_nil_iff_forall_not_mem.2 fun z hz =>
        Std.lt_irrefl (Std.lt_trans (hall z (hmem.2 (.inr hz))) (habove z hz))
      rw [hsize, hnil, List.length_nil, Nat.add_zero]

/-- A look-up by number finds the retained step of that number. -/
lemma Sound.get?_eq_some_iff (h : s.Sound) : s.get? id = some y ↔ y ∈ s.steps ∧ y.id = id := by
  unfold get? positionOf
  rcases h.search_cases id with ⟨i, z, hsearch, hz, hsame⟩ | ⟨i, hsearch, hne, -⟩
  · have hmem : z ∈ s.steps := Array.mem_of_getElem? hz
    rw [hsearch]
    show s.steps[i]? = some y ↔ _
    rw [hz, Option.some.injEq]
    constructor
    · rintro rfl
      exact ⟨hmem, hsame⟩
    · rintro ⟨hy, hid⟩
      exact h.eq_of_id_eq hmem hy (hsame.trans hid.symm)
  · rw [hsearch]
    constructor
    · intro hnone
      exact absurd hnone (by simp)
    · rintro ⟨hy, hid⟩
      exact absurd hid (hne y hy)

lemma Sound.get?_eq_find? (h : s.Sound) : s.get? id = s.steps.toList.find? (·.id = id) := by
  refine Option.ext fun y => ?_
  rw [h.get?_eq_some_iff, ← Array.mem_toList_iff]
  exact (Chronicle.find?_eq_some_iff (c := h.retained)).symm

/-- A number is contained if it is that of a retained step. -/
lemma Sound.contains_iff (h : s.Sound) : s.contains id = true ↔ ∃ y ∈ s.steps, y.id = id := by
  unfold contains positionOf
  rcases h.search_cases id with ⟨i, z, hsearch, hz, hsame⟩ | ⟨i, hsearch, hne, -⟩
  · rw [hsearch]
    exact iff_of_true rfl ⟨z, Array.mem_of_getElem? hz, hsame⟩
  · rw [hsearch]
    exact iff_of_false Bool.false_ne_true fun ⟨y, hy, hid⟩ => hne y hy hid

lemma Sound.isSome_get? (h : s.Sound) : (s.get? id).isSome = s.contains id := by
  rw [Bool.eq_iff_iff, h.contains_iff, Option.isSome_iff_exists]
  exact exists_congr fun y => h.get?_eq_some_iff

lemma Sound.lineOf_eq (h : s.Sound) (hy : y ∈ s.steps) : s.lineOf y.id = y.line := by
  rw [lineOf, h.get?_eq_some_iff.2 ⟨hy, rfl⟩, Option.bind_some]

lemma Holds.mem_of_mem_steps (h : s.Holds c) (hy : y ∈ s.steps) : y ∈ c.steps := by
  have hrecent : y ∈ c.recent s.capacity := h.layout.steps ▸ hy.val
  exact List.mem_of_mem_drop hrecent

/-! ## Putting a step into the store -/

/-- Before anything is evicted, a step that is put into the store is noted among the retained
ones. -/
lemma Sound.upsert_layout (h : s.Sound) (hx : s.isPast x.id = false) :
    ∃ (t : Store) (evicted : List Step), (s.upsert x).1 = t.evictOverflow ∧
      t.stance = s.stance ∧ t.horizon = s.horizon ∧ t.baseline = s.baseline ∧
      t.Layout evicted (h.retained.note x).steps := by
  obtain ⟨c, hc⟩ := h.holds
  obtain ⟨t, retained, hupsert, hstance, hlayout, hnote, -⟩ := hc.upsert_layout hx
  have hretained : h.retained.steps = c.recent s.capacity := hc.layout.steps
  have hsplit : c.steps = c.early s.capacity ++ h.retained.steps := by
    rw [hretained, c.early_append_recent]
  rw [Chronicle.steps_note_of_below hsplit (hc.id_lt_of_not_isPast hx)] at hnote
  rw [← List.append_cancel_left hnote] at hlayout
  refine ⟨t, c.early s.capacity, hupsert, hstance, ?_, ?_, hlayout⟩
  · rw [hlayout.horizon, hc.layout.horizon]
  · have hpolicy : t.policy = s.policy := congrArg (·.2.1) hstance
    rw [hlayout.baseline, hc.layout.baseline, hpolicy]

/-- What is retained after a step was put into the store: of the steps that were retained, with that
one noted among them, those for which there is room. -/
lemma Sound.steps_upsert (h : s.Sound) (hx : s.isPast x.id = false) :
    (s.upsert x).1.steps.toList = (h.retained.note x).recent s.capacity := by
  obtain ⟨t, evicted, hupsert, hstance, -, -, hlayout⟩ := h.upsert_layout hx
  have hcap : t.capacity = s.capacity := congrArg (·.1) hstance
  rw [hupsert, hlayout.evictOverflow.steps, hcap]
  rfl

/-- What is retained after a step was put into the store is that step, or was retained before under
another number. -/
lemma Sound.mem_upsert (h : s.Sound) (hx : s.isPast x.id = false)
    (hy : y ∈ (s.upsert x).1.steps) : y = x ∨ y ∈ s.steps ∧ y.id ≠ x.id := by
  have hrecent : y ∈ (h.retained.note x).recent s.capacity := h.steps_upsert hx ▸ hy.val
  have hknown : y ∈ (h.retained.note x).steps := List.mem_of_mem_drop hrecent
  exact (Chronicle.mem_note.1 hknown).imp_right (And.imp_left Array.mem_toList_iff.1)

/-- A retained step of another number is still retained after a step was put into the store, or it
is below all that are. -/
lemma Sound.mem_upsert_or_lt (h : s.Sound) (hx : s.isPast x.id = false) (hy : y ∈ s.steps)
    (hne : y.id ≠ x.id) :
    y ∈ (s.upsert x).1.steps ∨ ∀ z ∈ (s.upsert x).1.steps, y.id < z.id := by
  have hknown : y ∈ (h.retained.note x).steps := Chronicle.mem_note.2 (.inr ⟨hy.val, hne⟩)
  have hasc := (h.retained.note x).ascending
  rw [← (h.retained.note x).early_append_recent s.capacity, ← h.steps_upsert hx] at hknown hasc
  rcases List.mem_append.1 hknown with hearly | hretained
  · exact .inr fun z hz => (List.pairwise_append.1 hasc).2.2 y hearly z hz.val
  · exact .inl (Array.mem_toList_iff.1 hretained)

lemma isPast_of_appended (hx : (s.upsert x).2 = .appended) : s.isPast x.id = false := by
  refine Bool.eq_false_iff.2 fun hpast => ?_
  rw [upsert_of_isPast hpast] at hx
  exact absurd hx (by simp)

/-- What happens to a step above the horizon: it replaces the one with its number, or else it is
appended to the retained steps or inserted among them. -/
lemma Sound.snd_upsert (h : s.Sound) (hx : s.isPast x.id = false) :
    (s.upsert x).2 = if ∃ y ∈ s.steps, y.id = x.id then .replaced
      else if ∀ y ∈ s.steps, y.id < x.id then .appended else .inserted := by
  unfold Store.upsert
  rw [if_neg (by rw [hx]; exact Bool.false_ne_true)]
  rcases h.search_cases x.id with ⟨i, z, hsearch, hz, hsame⟩ | ⟨i, hsearch, hne, hlast⟩
  · rw [hsearch, if_pos ⟨z, Array.mem_of_getElem? hz, hsame⟩]
  · rw [hsearch, if_neg fun ⟨y, hy, hid⟩ => hne y hy hid]
    exact if_congr hlast rfl rfl

/-- A step is appended if its number is above those of all retained steps. -/
lemma Sound.id_lt_of_appended (h : s.Sound) (hx : (s.upsert x).2 = .appended) :
    ∀ y ∈ s.steps, y.id < x.id := by
  rw [h.snd_upsert (isPast_of_appended hx)] at hx
  split at hx
  · cases hx
  · split at hx
    · assumption
    · cases hx

/-- A step that is appended is retained: were it evicted, a retained step would be above it. -/
lemma Sound.mem_of_appended (h : s.Sound) (hx : (s.upsert x).2 = .appended) :
    x ∈ (s.upsert x).1.steps := by
  have hpast : s.isPast x.id = false := isPast_of_appended hx
  obtain ⟨c, hc⟩ := h.holds
  have hafter := hc.upsert hpast
  have hasc := hafter.layout.ascending
  have hknown : x ∈ (c.note x).steps := c.mem_note_self x
  rw [← (c.note x).early_append_recent (s.upsert x).1.capacity] at hknown
  refine Array.mem_toList_iff.1 ?_
  rw [hafter.layout.steps]
  refine (List.mem_append.1 hknown).resolve_left fun hearly => ?_
  have hlen := ((c.note x).early_eq_nil_or (s.upsert x).1.capacity).resolve_left
    (List.ne_nil_of_mem hearly)
  obtain ⟨z, hz⟩ := List.exists_mem_of_length_pos (hlen ▸ hafter.capacity_pos)
  have hlt : x.id < z.id := (List.pairwise_append.1 hasc).2.2 x hearly z hz
  rw [← hafter.layout.steps] at hz
  rcases h.mem_upsert hpast (Array.mem_toList_iff.1 hz) with rfl | ⟨hold, -⟩
  · exact Std.lt_irrefl hlt
  · exact Std.lt_irrefl (Std.lt_trans hlt (h.id_lt_of_appended hx z hold))

lemma Holds.toList_steps (h : s.Holds c) (hroom : c.steps.length ≤ s.capacity) :
    s.steps.toList = c.steps := by
  rw [h.layout.steps, Chronicle.recent, Nat.sub_eq_zero_of_le hroom, List.drop_zero]

lemma Holds.isPast_eq_false_of_room (h : s.Holds c) (hroom : c.steps.length ≤ s.capacity)
    (id : StepId) : s.isPast id = false := by
  refine Bool.eq_false_iff.2 fun hpast => ?_
  obtain ⟨y, hy, -⟩ := h.layout.isPast_iff.1 hpast
  rw [Chronicle.early, Nat.sub_eq_zero_of_le hroom, List.take_zero] at hy
  exact absurd hy List.not_mem_nil

/-! ## What becomes of a number -/

/-- A step that is known is retained, or it is past. -/
lemma Holds.mem_or_isPast (h : s.Holds c) (hy : y ∈ c.steps) :
    y ∈ s.steps ∨ s.isPast y.id = true := by
  rw [← c.early_append_recent s.capacity] at hy
  rcases List.mem_append.1 hy with hearly | hrecent
  · exact .inr (h.layout.isPast_iff.2 ⟨y, hearly, Std.le_refl _⟩)
  · rw [← h.layout.steps] at hrecent
    exact .inl (Array.mem_toList_iff.1 hrecent)

/-- A retained step is not past. -/
lemma Sound.isPast_eq_false (h : s.Sound) (hy : y ∈ s.steps) : s.isPast y.id = false := by
  obtain ⟨c, hc⟩ := h.holds
  refine Bool.eq_false_iff.2 fun hpast => ?_
  obtain ⟨z, hz, hle⟩ := hc.layout.isPast_iff.1 hpast
  have hrecent : y ∈ c.recent s.capacity := hc.layout.steps ▸ hy.val
  have hlt : z.id < y.id := (List.pairwise_append.1 hc.layout.ascending).2.2 z hz y hrecent
  exact Std.lt_irrefl (Std.lt_of_lt_of_le hlt hle)

/-- What is past stays past when the horizon moves on. -/
lemma HorizonLE.isPast {t : Store} (h : s.HorizonLE t) (hid : s.isPast id = true) :
    t.isPast id = true := by
  rw [Store.isPast, Option.any_eq_true] at hid
  obtain ⟨bound, hbound, hle⟩ := hid
  obtain ⟨later, hlater, hmoved⟩ := h bound hbound
  rw [Store.isPast, hlater]
  exact decide_eq_true (Std.le_trans (of_decide_eq_true hle) hmoved)

/-- A store continues another one if what is past stays past, and what was retained is retained or
past. -/
def Continues (s t : Store) : Prop :=
  ∀ id, t.isPast id = false →
    s.isPast id = false ∧ (s.contains id = true → t.contains id = true)

lemma Continues.refl (s : Store) : s.Continues s := fun _ hid => ⟨hid, id⟩

lemma Continues.trans {t u : Store} (h : s.Continues t) (h' : t.Continues u) : s.Continues u := by
  intro id hid
  obtain ⟨hpast, hkept⟩ := h' id hid
  exact ⟨(h id hpast).1, hkept ∘ (h id hpast).2⟩

/-- What was retained or past is so in a store that continues. -/
lemma Continues.contains_or_isPast {t : Store} (h : s.Continues t)
    (hid : s.contains id = true ∨ s.isPast id = true) :
    t.contains id = true ∨ t.isPast id = true := by
  cases hpast : t.isPast id with
  | true => exact .inr rfl
  | false =>
    obtain ⟨hbefore, hkept⟩ := h id hpast
    exact .inl (hkept (hid.resolve_right (by simp [hbefore])))

/-- Putting a step into the store continues it: of the numbers that are known before and after, some
are evicted, and nothing else is lost. -/
lemma Sound.continues_upsert (h : s.Sound) (x : Step) : s.Continues (s.upsert x).1 := by
  cases hx : s.isPast x.id with
  | true =>
    rw [upsert_of_isPast hx]
    exact .refl s
  | false =>
    obtain ⟨c, hc⟩ := h.holds
    have hafter := h.upsert x
    intro id hid
    constructor
    · refine Bool.eq_false_iff.2 fun hpast => ?_
      rw [(HorizonLE.upsert h x).isPast hpast] at hid
      exact absurd hid (by simp)
    · intro hcontains
      obtain ⟨y, hy, rfl⟩ := h.contains_iff.1 hcontains
      obtain ⟨z, hz, hsame⟩ := Chronicle.exists_mem_note (hc.mem_of_mem_steps hy) x
      have hkept := ((hc.upsert hx).mem_or_isPast hz).resolve_right (by simp [hsame, hid])
      exact hafter.contains_iff.2 ⟨z, hkept, hsame⟩

/-- So does every update that does not drop the history. -/
lemma Sound.continues_perform (h : s.Sound) {op : Operation} (hop : op.isReset = false) :
    s.Continues (s.perform op) := by
  cases op with
  | upsert x => exact h.continues_upsert x
  | replaceAll l cursor => exact absurd hop (by simp [Operation.isReset])
  | clear => exact absurd hop (by simp [Operation.isReset])
  | advanceLive id =>
    show s.Continues (s.advanceLive id).1
    unfold advanceLive
    split <;> exact .refl s
  | pin id =>
    show s.Continues (s.pin id).1
    unfold pin
    split <;> exact .refl s
  | followLive => exact .refl s

/-- So do such updates one after another. -/
lemma Sound.continues_run (h : s.Sound) {ops : List Operation}
    (hops : ∀ op ∈ ops, op.isReset = false) : s.Continues (s.run ops) := by
  induction ops generalizing s with
  | nil => exact .refl s
  | cons op rest ih =>
    have hfirst := h.continues_perform (hops op (List.mem_cons_self ..))
    exact hfirst.trans (ih (h.perform op) fun op' hop' => hops op' (List.mem_cons_of_mem _ hop'))

/-! ## Another history -/

/-- After the history was replaced, the store holds the chronicle of the new steps, in which the
last of several steps of one number counts.  They are put into it in ascending order, so that none
of them comes too late. -/
theorem Sound.holds_replaceAll (h : s.Sound) (l : List Step) (cursor : Option StepId) :
    (s.replaceAll l cursor).Holds (Chronicle.ofList l) := by
  obtain ⟨c, hc⟩ := h.holds
  have hstale : .stale ∉ s.clear.outcomes (inOrder l) :=
    hc.clear.stale_notMem_outcomes (inOrder_ascending l) fun _ _ y hy => absurd hy List.not_mem_nil
  have hall := hc.clear.upsertAll (inOrder l)
  rw [accepted_eq_self hstale] at hall
  rw [← ofList_inOrder]
  exact hall.moveCursor cursor .live

/-! ## The cursor -/

@[simp] lemma cursor_upsert (s : Store) (x : Step) : (s.upsert x).1.cursor = s.cursor :=
  congrArg (·.2.2.1) (s.stance_upsert x)

@[simp] lemma follow_upsert (s : Store) (x : Step) : (s.upsert x).1.follow = s.follow :=
  congrArg (·.2.2.2) (s.stance_upsert x)

/-- Whether the cursor is at a number or beyond it. -/
def reaches (s : Store) (id : StepId) : Bool := s.cursor.any (id ≤ ·)

/-- The cursor of a store that follows live moves to an arriving step that it does not reach. -/
lemma advanceLive_eq (s : Store) (id : StepId) :
    s.advanceLive id =
      if s.follow = .live ∧ ¬ s.reaches id then ({ s with cursor := some id }, true)
      else (s, false) := by
  unfold advanceLive reaches
  split
  · next h => rw [if_neg fun ⟨hlive, hbelow⟩ => h.elim (· hlive) hbelow]
  · next h =>
    obtain ⟨hlive, hbelow⟩ := not_or.1 h
    rw [if_pos ⟨not_not.1 hlive, hbelow⟩]

@[simp] lemma steps_advanceLive (s : Store) (id : StepId) :
    (s.advanceLive id).1.steps = s.steps := by
  rw [advanceLive_eq]
  split <;> rfl

lemma Holds.advanceLive (h : s.Holds c) (id : StepId) : (s.advanceLive id).1.Holds c := by
  rw [advanceLive_eq]
  split
  · exact h.moveCursor (some id) s.follow
  · exact h

/-- Following an arriving step, the cursor does not move back. -/
lemma reaches_advanceLive {bound : StepId} (h : s.reaches id) :
    (s.advanceLive bound).1.reaches id := by
  rw [advanceLive_eq]
  split
  · next hmoves =>
    unfold reaches at h hmoves ⊢
    cases hcursor : s.cursor with
    | none => simp [hcursor] at h
    | some at' =>
      simp only [hcursor, Option.any_some, decide_eq_true_eq] at h hmoves ⊢
      exact Std.le_trans h (Std.le_of_lt (Std.not_le.1 hmoves.2))
  · exact h

end Store

end TraceTimeline
