import TraceTimeline.Proofs.Output.Entries

/-!
# Sealing

An entry is sealed once, by a flush, and a flush seals one entry at most.
`OutputLog.Change.sealing` says which entries are sealed after an update: those that were before it,
as far as they are kept, and the one that the update seals (`OutputLog.sealed?`).
`OutputLog.Unsealed` holds of the numbers whose entries may still be sealed; an update only takes
numbers away from them.
-/

namespace TraceTimeline

namespace OutputLog

variable {l l' : OutputLog} {op : Operation} {e : OutputEntry}

/-- The entry that an update seals, as it is from then on: the one whose number the flush gives. -/
def sealed? (l : OutputLog) : Operation → Option OutputEntry
  | .flush c => (l.flush c).2.bind (l.flush c).1.get?
  | _ => none

/-- A look-up finds the kept entry of a number. -/
lemma get?_eq_some_iff (hnodup : l.ids.Nodup) {id : Nat} :
    l.get? id = some e ↔ e ∈ l.entries ∧ e.id = id := by
  constructor
  · intro h
    exact ⟨List.mem_of_find?_eq_some h, by simpa using List.find?_some h⟩
  · rintro ⟨he, rfl⟩
    obtain ⟨before, after, hsplit⟩ := List.append_of_mem he
    rw [ids, hsplit, List.map_append, List.nodup_append] at hnodup
    refine List.find?_eq_some_iff_append.2 ⟨by simp, before, after, hsplit, fun x hx => ?_⟩
    have hne : x.id ≠ e.id :=
      hnodup.2.2 x.id (List.mem_map_of_mem hx) e.id (by simp)
    simpa using hne

/-- The latest open entry of a channel is the one behind which none is open. -/
lemma lastOpen?_eq_of_split {front back : List OutputEntry} {c : OutputChannel}
    (hsplit : l.entries = front ++ e :: back) (hopen : e.isOpen c = true)
    (hback : ∀ x ∈ back, x.isOpen c = false) : l.lastOpen? c = some e := by
  refine List.find?_eq_some_iff_append.2 ⟨hopen, back.reverse, front.reverse, ?_, fun x hx => ?_⟩
  · rw [hsplit]
    simp
  · simpa using hback x (List.mem_reverse.1 hx)

/-- A flush seals the latest open entry of its channel. -/
lemma sealed?_flush (hnodup : l.ids.Nodup) (c : OutputChannel) :
    l.sealed? (.flush c) = (l.lastOpen? c).map fun e => { e with flushed := true } := by
  show (l.flush c).2.bind (l.flush c).1.get? = _
  cases hopen : l.lastOpen? c with
  | none =>
    have hflush : l.flush c = (l, none) := by rw [flush, hopen]
    rw [hflush]
    rfl
  | some e =>
    obtain ⟨front, back, hsplit, -, -⟩ := lastOpen?_eq_some hopen
    rw [ids, hsplit] at hnodup
    have hflush : l.flush c =
        ({ l with entries := front ++ { e with flushed := true } :: back }, some e.id) := by
      rw [flush, hopen]
      dsimp only
      rw [hsplit, map_close hnodup]
    rw [hflush]
    refine (get?_eq_some_iff ?_).2 ⟨by simp, rfl⟩
    simpa [ids] using hnodup

/-- Either an update seals nothing, and what is sealed after it was kept before it, or it seals one
entry that was open, and leaves all others as they are. -/
theorem Change.sealing (hnodup : l.ids.Nodup) (hchange : Change l op l') :
    (l.sealed? op = none ∧ ∀ x ∈ l'.entries, x.flushed = true → x ∈ l.entries) ∨
      ∃ front e back, l.entries = front ++ e :: back ∧ e.flushed = false ∧
        l.sealed? op = some { e with flushed := true } ∧
        l'.entries = front ++ { e with flushed := true } :: back := by
  cases hchange with
  | ignored c => exact .inl ⟨rfl, fun x hx _ => hx⟩
  | @extended front last c text hsplit hopen htext =>
    refine .inl ⟨rfl, fun x hx hflushed => ?_⟩
    rcases List.mem_append.1 hx with hold | hnew
    · rw [hsplit]
      exact List.mem_append_left _ hold
    · -- the entry that was extended is open
      have hclosed : last.flushed = true := by
        rw [List.mem_singleton.1 hnew] at hflushed
        exact hflushed
      rw [(isOpen_iff.1 hopen).2] at hclosed
      cases hclosed
  | @started c text htext hlast =>
    refine .inl ⟨rfl, fun x hx hflushed => ?_⟩
    rcases mem_or_eq_of_mem_start hx with hold | rfl
    · exact hold
    · cases hflushed
  | @idle c hnone =>
    refine .inl ⟨?_, fun x hx _ => hx⟩
    rw [sealed?_flush hnodup, lastOpen?_eq_none_iff.2 hnone]
    rfl
  | @sealed front back e c hsplit hopen hback =>
    refine .inr ⟨front, e, back, hsplit, (isOpen_iff.1 hopen).2, ?_, rfl⟩
    rw [sealed?_flush hnodup, lastOpen?_eq_of_split hsplit hopen hback]
    rfl
  | cleared => exact .inl ⟨rfl, fun x hx _ => absurd hx List.not_mem_nil⟩

/-- If it is known which entries were sealed before an update, those that are sealed after it and
not known are what the update sealed. -/
theorem Change.filter_sealed (hchange : Change l op l') (hnodup : l.ids.Nodup) (known : Nat → Bool)
    (hknown : ∀ x ∈ l.entries, known x.id = x.flushed) :
    l'.entries.filter (fun x => x.flushed && !known x.id) = (l.sealed? op).toList := by
  have hnone {m : List OutputEntry} (hm : ∀ x ∈ m, x.flushed = true → x ∈ l.entries) :
      m.filter (fun x => x.flushed && !known x.id) = [] := by
    refine List.filter_eq_nil_iff.2 fun x hx hdue => ?_
    obtain ⟨hflushed, hunknown⟩ := Bool.and_eq_true_iff.1 hdue
    rw [hknown x (hm x hx hflushed), hflushed] at hunknown
    cases hunknown
  rcases hchange.sealing hnodup with
    ⟨hsealed, hold⟩ | ⟨front, e, back, hsplit, hopen, hsealed, hentries⟩
  · rw [hsealed, hnone hold]
    rfl
  · have hfront : ∀ x ∈ front, x.flushed = true → x ∈ l.entries := fun x hx _ => by
      rw [hsplit]
      exact List.mem_append_left _ hx
    have hback : ∀ x ∈ back, x.flushed = true → x ∈ l.entries := fun x hx _ => by
      rw [hsplit]
      exact List.mem_append_right _ (List.mem_cons_of_mem _ hx)
    have hunknown : known e.id = false := by
      rw [hknown e (by rw [hsplit]; simp), hopen]
    rw [hentries, hsealed, List.filter_append, List.filter_cons, hnone hfront, hnone hback]
    simp [hunknown]

/-! ## What may still be sealed -/

/-- Whether the entry of a number may still be sealed: it is open, or was not started yet. -/
def Unsealed (l : OutputLog) (id : Nat) : Prop :=
  l.nextId ≤ id ∨ ∃ e ∈ l.entries, e.id = id ∧ e.flushed = false

/-- An entry that is sealed cannot be sealed again. -/
lemma WellFormed.not_unsealed (h : l.WellFormed) (he : e ∈ l.entries)
    (hflushed : e.flushed = true) : ¬ l.Unsealed e.id := by
  rintro (hnext | ⟨x, hx, hid, hopen⟩)
  · have hlt : e.id < l.nextId := h.id_lt (List.mem_map_of_mem he)
    omega
  · obtain rfl := h.eq_of_id_eq he hx hid
    rw [hflushed] at hopen
    cases hopen

/-- What may be sealed after an update may have been sealed before it. -/
lemma Change.unsealed (hchange : Change l op l') {id : Nat} (h : l'.Unsealed id) :
    l.Unsealed id := by
  cases hchange with
  | ignored c => exact h
  | idle hnone => exact h
  | @extended front last c text hsplit hopen htext =>
    refine h.imp_right fun ⟨x, hx, hid, hx'⟩ => ?_
    rw [hsplit]
    rcases List.mem_append.1 hx with hold | hnew
    · exact ⟨x, List.mem_append_left _ hold, hid, hx'⟩
    · rw [List.mem_singleton.1 hnew] at hid
      exact ⟨last, by simp, hid, (isOpen_iff.1 hopen).2⟩
  | @started c text htext hlast =>
    rcases h with hnext | ⟨x, hx, hid, hx'⟩
    · exact .inl (Nat.le_of_succ_le hnext)
    · rcases mem_or_eq_of_mem_start hx with hold | rfl
      · exact .inr ⟨x, hold, hid, hx'⟩
      · exact .inl (Nat.le_of_eq hid)
  | @sealed front back e c hsplit hopen hback =>
    refine h.imp_right fun ⟨x, hx, hid, hx'⟩ => ⟨x, ?_, hid, hx'⟩
    rw [hsplit]
    rcases List.mem_append.1 hx with hold | hrest
    · exact List.mem_append_left _ hold
    · rcases List.mem_cons.1 hrest with rfl | hold
      · cases hx'
      · exact List.mem_append_right _ (List.mem_cons_of_mem _ hold)
  | cleared => exact h.imp_right fun ⟨x, hx, _⟩ => absurd hx List.not_mem_nil

end OutputLog

end TraceTimeline
