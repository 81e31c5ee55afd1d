import TraceTimeline.Proofs.Output.Sealing

/-!
# The identity of an entry

Who shows an entry keeps its number and looks the entry up by it again later.  What is found then is
the same entry, grown at its end at most, and unchanged if it was sealed
(`OutputEntry.Becomes`).  A number that is found no more will never be found again, so that it
cannot come to stand for another entry.

Both follow from where the entries of a later log come from (`OutputLog.WellFormed.origin_run`):
each was kept before, or bears a number that was not given yet.  `OutputLog.entries_keep_identity`
is the result for all runs, with what a flush does: it touches the open entry of its channel that
has the greatest number, if there is one, and nothing else.
-/

namespace TraceTimeline

/-! ## What an entry may become -/

/-- An entry is kept as another one: text was added at its end, or it was sealed, or both.  A sealed
entry is kept as it is. -/
structure OutputEntry.Becomes (e e' : OutputEntry) : Prop where
  id : e'.id = e.id
  channel : e'.channel = e.channel
  text : ∃ more, e'.text = e.text ++ more
  final : e.flushed = true → e' = e

namespace OutputEntry.Becomes

variable {e e' e'' : OutputEntry}

lemma refl (e : OutputEntry) : e.Becomes e where
  id := rfl
  channel := rfl
  text := ⟨"", by rw [String.append_empty]⟩
  final _ := rfl

/-- What an entry becomes in two steps it becomes. -/
lemma trans (h : e.Becomes e') (h' : e'.Becomes e'') : e.Becomes e'' where
  id := h'.id.trans h.id
  channel := h'.channel.trans h.channel
  text := by
    obtain ⟨more, htext⟩ := h.text
    obtain ⟨rest, htext'⟩ := h'.text
    exact ⟨more ++ rest, by rw [htext', htext, String.append_assoc]⟩
  final hflushed := by
    obtain rfl := h.final hflushed
    exact h'.final hflushed

/-- An open entry may be extended. -/
lemma extended {text : String} (hopen : e.flushed = false) :
    e.Becomes { e with text := e.text ++ text } where
  id := rfl
  channel := rfl
  text := ⟨text, rfl⟩
  final hflushed := by
    rw [hopen] at hflushed
    cases hflushed

/-- An open entry may be sealed. -/
lemma sealed (hopen : e.flushed = false) : e.Becomes { e with flushed := true } where
  id := rfl
  channel := rfl
  text := ⟨"", by rw [String.append_empty]⟩
  final hflushed := by
    rw [hopen] at hflushed
    cases hflushed

end OutputEntry.Becomes

namespace OutputLog

variable {l l' : OutputLog} {op : Operation} {e e' : OutputEntry} {c : OutputChannel} {id : Nat}

/-! ## Where the entries come from -/

/-- An entry that is kept after an update was kept before it, or has just begun. -/
theorem Change.origin (hchange : Change l op l') (he' : e' ∈ l'.entries) :
    (∃ e ∈ l.entries, e.Becomes e') ∨ e'.id = l.nextId := by
  have stays {e' : OutputEntry} (he' : e' ∈ l.entries) :
      (∃ e ∈ l.entries, e.Becomes e') ∨ e'.id = l.nextId := .inl ⟨e', he', .refl e'⟩
  cases hchange with
  | ignored c => exact stays he'
  | idle hnone => exact stays he'
  | @extended front last c text hsplit hopen htext =>
    rcases List.mem_append.1 he' with hfront | hlast
    · exact stays (by rw [hsplit]; exact List.mem_append_left _ hfront)
    · obtain rfl := List.mem_singleton.1 hlast
      exact .inl ⟨last, by rw [hsplit]; simp, .extended (isOpen_iff.1 hopen).2⟩
  | @started c text htext hlast =>
    rcases mem_or_eq_of_mem_start he' with hold | rfl
    · exact stays hold
    · exact .inr rfl
  | @sealed front back e c hsplit hopen hback =>
    rcases List.mem_append.1 he' with hfront | hrest
    · exact stays (by rw [hsplit]; exact List.mem_append_left _ hfront)
    · rcases List.mem_cons.1 hrest with rfl | hback
      · exact .inl ⟨e, by rw [hsplit]; simp, .sealed (isOpen_iff.1 hopen).2⟩
      · exact stays (by rw [hsplit]; exact List.mem_append_right _ (List.mem_cons_of_mem _ hback))
  | cleared => exact absurd he' List.not_mem_nil

/-- An entry that is kept after a list of updates was kept before it, or its number was given
since. -/
theorem WellFormed.origin_run (h : l.WellFormed) {ops : List Operation}
    (he' : e' ∈ (l.run ops).entries) : (∃ e ∈ l.entries, e.Becomes e') ∨ l.nextId ≤ e'.id := by
  induction ops generalizing l with
  | nil => exact .inl ⟨e', he', .refl e'⟩
  | cons op rest ih =>
    rcases ih (h.perform op) he' with ⟨x, hx, hlater⟩ | hnew
    · rcases (change_perform h.nodup_ids op).origin hx with ⟨e, he, hfirst⟩ | hid
      · exact .inl ⟨e, he, hfirst.trans hlater⟩
      · exact .inr (by rw [hlater.id, hid])
    · exact .inr ((h.dropped op).1.trans hnew)

/-- What is kept under the number of an entry after a list of updates is what the entry became. -/
lemma WellFormed.becomes_run (h : l.WellFormed) {ops : List Operation} (he : e ∈ l.entries)
    (he' : e' ∈ (l.run ops).entries) (hid : e'.id = e.id) : e.Becomes e' := by
  rcases h.origin_run he' with ⟨x, hx, hbecomes⟩ | hnew
  · rwa [h.eq_of_id_eq he hx (hbecomes.id.symm.trans hid)] at hbecomes
  · have hlt : e.id < l.nextId := h.id_lt (List.mem_map_of_mem he)
    omega

/-- A number that was given, and that no kept entry bears, is not borne again. -/
lemma WellFormed.notMem_ids_run (h : l.WellFormed) {ops : List Operation} (hgiven : id < l.nextId)
    (hgone : id ∉ l.ids) : id ∉ (l.run ops).ids := by
  intro hid
  obtain ⟨e', he', rfl⟩ := List.mem_map.1 hid
  rcases h.origin_run he' with ⟨e, he, hbecomes⟩ | hnew
  · exact hgone (hbecomes.id ▸ List.mem_map_of_mem he)
  · omega

/-! ## What a flush touches -/

lemma WellFormed.ascending (h : l.WellFormed) :
    l.entries.Pairwise (fun a b => a.id < b.id) := by
  refine List.pairwise_map.1 ?_
  show l.ids.Pairwise (· < ·)
  rw [h.ids_eq]
  exact List.pairwise_lt_range'

/-- The latest open entry of a channel is the one of the greatest number. -/
lemma WellFormed.lastOpen?_eq_some_iff (h : l.WellFormed) :
    l.lastOpen? c = some e ↔
      e ∈ l.entries ∧ e.isOpen c = true ∧ ∀ x ∈ l.entries, x.isOpen c = true → x.id ≤ e.id := by
  have hgreatest {e : OutputEntry} (he : l.lastOpen? c = some e) :
      e ∈ l.entries ∧ e.isOpen c = true ∧ ∀ x ∈ l.entries, x.isOpen c = true → x.id ≤ e.id := by
    obtain ⟨front, back, hsplit, hopen, hback⟩ := lastOpen?_eq_some he
    have hasc := h.ascending
    rw [hsplit] at hasc ⊢
    refine ⟨by simp, hopen, fun x hx hxopen => ?_⟩
    rcases List.mem_append.1 hx with hfront | hrest
    · exact ((List.pairwise_append.1 hasc).2.2 x hfront e (List.mem_cons_self ..)).le
    · rcases List.mem_cons.1 hrest with rfl | hx
      · exact Nat.le_refl _
      · rw [hback x hx] at hxopen
        cases hxopen
  refine ⟨hgreatest, fun ⟨he, hopen, hmax⟩ => ?_⟩
  cases hlast : l.lastOpen? c with
  | none => exact absurd hopen (by simp [lastOpen?_eq_none_iff.1 hlast e he])
  | some x =>
    obtain ⟨hx, hxopen, hxmax⟩ := hgreatest hlast
    rw [h.eq_of_id_eq he hx (Nat.le_antisymm (hmax x hx hxopen) (hxmax e he hopen))]

lemma snd_flush (l : OutputLog) (c : OutputChannel) :
    (l.flush c).2 = (l.lastOpen? c).map (·.id) := by
  unfold flush
  split
  · next hnone => rw [hnone]; rfl
  · next e hopen => rw [hopen]; rfl

/-- A flush seals the entry of the number that it gives. -/
lemma fst_flush (l : OutputLog) (c : OutputChannel) :
    (l.flush c).1 = { l with
      entries := l.entries.map fun x =>
        if (l.flush c).2 = some x.id then { x with flushed := true } else x } := by
  rw [snd_flush]
  unfold flush
  split
  · next hnone => simp [hnone]
  · next e hopen => simp [hopen, eq_comm]

/-- A look-up after a flush finds what it found before, sealed if the flush gave its number. -/
lemma get?_flush (l : OutputLog) (c : OutputChannel) (id : Nat) :
    (l.flush c).1.get? id =
      if (l.flush c).2 = some id then (l.get? id).map fun e => { e with flushed := true }
      else l.get? id := by
  have hsame (x : OutputEntry) :
      (if (l.flush c).2 = some x.id then { x with flushed := true } else x).id = x.id := by
    split <;> rfl
  rw [fst_flush, get?, List.find?_map]
  simp only [Function.comp_def, hsame]
  cases hfind : l.entries.find? (·.id = id) with
  | none => simp [get?, hfind]
  | some e =>
    obtain rfl : e.id = id := by simpa using List.find?_some hfind
    rw [get?, hfind, Option.map_some]
    split <;> rfl

lemma snd_flush_eq_none_iff :
    (l.flush c).2 = none ↔ ∀ e ∈ l.entries, e.channel = c → e.flushed = true := by
  rw [snd_flush, Option.map_eq_none_iff, lastOpen?_eq_none_iff]
  simp [OutputEntry.isOpen]

/-- Else it gives the number of the open entry with the greatest number. -/
lemma WellFormed.snd_flush_eq_some_iff (h : l.WellFormed) :
    (l.flush c).2 = some id ↔ ∃ e ∈ l.entries, e.id = id ∧
      (e.channel = c ∧ e.flushed = false) ∧
        ∀ x ∈ l.entries, x.channel = c → x.flushed = false → x.id ≤ id := by
  rw [snd_flush, Option.map_eq_some_iff]
  constructor
  · rintro ⟨e, hlast, rfl⟩
    obtain ⟨he, hopen, hmax⟩ := h.lastOpen?_eq_some_iff.1 hlast
    exact ⟨e, he, rfl, isOpen_iff.1 hopen,
      fun x hx hchannel hflushed => hmax x hx (isOpen_iff.2 ⟨hchannel, hflushed⟩)⟩
  · rintro ⟨e, he, rfl, hopen, hmax⟩
    refine ⟨e, h.lastOpen?_eq_some_iff.2 ⟨he, isOpen_iff.2 hopen, fun x hx hxopen => ?_⟩, rfl⟩
    exact hmax x hx (isOpen_iff.1 hxopen).1 (isOpen_iff.1 hxopen).2

/-! ## Identity along a run -/

lemma get?_eq_none_iff : l.get? id = none ↔ id ∉ l.ids := by
  rw [← Option.isNone_iff_eq_none, isNone_get?_iff]

/-- A number that is found no more is not found again. -/
lemma WellFormed.get?_run_run_eq_none (h : l.WellFormed) {later : List Operation}
    (hkept : (l.get? id).isSome) (hgone : (l.run later).get? id = none) (last : List Operation) :
    ((l.run later).run last).get? id = none := by
  obtain ⟨e, he⟩ := Option.isSome_iff_exists.1 hkept
  obtain ⟨hmem, rfl⟩ := (get?_eq_some_iff h.nodup_ids).1 he
  have hgiven : e.id < (l.run later).nextId :=
    (h.id_lt (List.mem_map_of_mem hmem)).trans_le (h.ids_gone later).1
  exact get?_eq_none_iff.2 ((h.run later).notMem_ids_run hgiven (get?_eq_none_iff.1 hgone))

/-- Entries keep their identity.  Take any updates of a new log.  A look-up finds exactly the kept
entries.  Whatever is done later, what is found under a number is of the same channel, its text
begins with the earlier text, and it is the same entry if that was sealed; and a number that is
found no more is not found again.  A flush gives no number if and only if no entry of the channel is
open, and else that of the open entry with the greatest number; it seals this entry and leaves all
others alone. -/
theorem entries_keep_identity (capacity : Nat) (ops : List Operation) :
    let l := (new capacity).run ops
    (∀ id e, l.get? id = some e ↔ e ∈ l.entries ∧ e.id = id) ∧
    (∀ later id e e', l.get? id = some e → (l.run later).get? id = some e' →
      e'.channel = e.channel ∧ (∃ more, e'.text = e.text ++ more) ∧
        (e.flushed = true → e' = e)) ∧
    (∀ later id, (l.get? id).isSome → (l.run later).get? id = none →
      ∀ last, ((l.run later).run last).get? id = none) ∧
    ∀ c,
      ((l.flush c).2 = none ↔ ∀ e ∈ l.entries, e.channel = c → e.flushed = true) ∧
      (∀ id, (l.flush c).2 = some id ↔ ∃ e ∈ l.entries, e.id = id ∧
        (e.channel = c ∧ e.flushed = false) ∧
          ∀ x ∈ l.entries, x.channel = c → x.flushed = false → x.id ≤ id) ∧
      (l.flush c).1.ids = l.ids ∧
      ∀ id, (l.flush c).1.get? id =
        if (l.flush c).2 = some id then (l.get? id).map fun e => { e with flushed := true }
        else l.get? id := by
  intro l
  have hl : l.WellFormed := (WellFormed.new capacity).run ops
  refine ⟨fun id e => get?_eq_some_iff hl.nodup_ids, ?_, ?_, fun c => ⟨?_, fun id => ?_, ?_, ?_⟩⟩
  · intro later id e e' he he'
    obtain ⟨hmem, rfl⟩ := (get?_eq_some_iff hl.nodup_ids).1 he
    obtain ⟨hmem', hid⟩ := (get?_eq_some_iff (hl.run later).nodup_ids).1 he'
    have hbecomes : e.Becomes e' := hl.becomes_run hmem hmem' hid
    exact ⟨hbecomes.channel, hbecomes.text, hbecomes.final⟩
  · exact fun later id hkept hgone last => hl.get?_run_run_eq_none hkept hgone last
  · exact snd_flush_eq_none_iff
  · exact hl.snd_flush_eq_some_iff
  · rw [fst_flush, ids, List.map_map]
    exact List.map_congr_left fun x _ => by dsimp; split <;> rfl
  · exact l.get?_flush c

/-- Of three entries the first is evicted, the second is sealed before, and the third is extended.
When the log was cleared, the numbering goes on. -/
theorem entries_keep_identity_evicted :
    let l := (new 3).run
      [.push .stdout "a", .push .stderr "b", .flush .stderr, .push .stdin "i"]
    let later : List Operation := [.push .stdin "j", .push .stdout "c"]
    let last : List Operation := [.clear, .push .stdout "a"]
    ((l.run later).get? 0 = none ∧ ((l.run later).run last).get? 0 = none) ∧
      (l.get? 1 = some ⟨1, .stderr, "b", true⟩ ∧
        ∀ e', (l.run later).get? 1 = some e' → e' = ⟨1, .stderr, "b", true⟩) ∧
      (l.run later).get? 2 = some ⟨2, .stdin, "ij", false⟩ ∧ ∃ more, "ij" = "i" ++ more := by
  intro l later last
  obtain ⟨-, hkeeps, hgone, -⟩ := entries_keep_identity 3
    [.push .stdout "a", .push .stderr "b", .flush .stderr, .push .stdin "i"]
  have hevicted : (l.run later).get? 0 = none := by decide +kernel
  have hsealed : l.get? 1 = some ⟨1, .stderr, "b", true⟩ := by decide +kernel
  have hopen : l.get? 2 = some ⟨2, .stdin, "i", false⟩ := by decide +kernel
  have hgrown : (l.run later).get? 2 = some ⟨2, .stdin, "ij", false⟩ := by decide +kernel
  refine ⟨⟨hevicted, hgone later 0 (by decide +kernel) hevicted last⟩, ⟨hsealed, fun e' he' => ?_⟩,
    hgrown, ?_⟩
  · exact (hkeeps later 1 _ e' hsealed he').2.2 rfl
  · exact (hkeeps later 2 _ _ hopen hgrown).2.1

end OutputLog

end TraceTimeline
