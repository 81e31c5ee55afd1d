import Mathlib.Data.List.Chain
import Mathlib.Data.List.Nodup
import Mathlib.Data.List.Range
import TraceTimeline.Output.Entries

/-!
# No output is lost

What becomes of the chunks of text that are put into an output log.  The entries that a log keeps
are only the most recent ones, so the account is of all entries that there ever were: those that
went, each as it was when it was last kept (`OutputLog.gone`), followed by those that are kept.

`OutputLog.Change` says once what an update can do to a log.  From it follow the well-formedness of
every log (`OutputLog.WellFormed`) and the balance of one update (`OutputLog.Change.balance`): the
numbers of the entries that go and of those that stay are the earlier numbers and the new one, and
their texts are the earlier texts and the chunk.  `OutputLog.gone_append_entries` is the account of
a whole run.
-/

namespace TraceTimeline

namespace OutputLog

/-! ## What an update does -/

/-- The ways in which an update changes a log. -/
inductive Change (l : OutputLog) : Operation → OutputLog → Prop where
  /-- An empty chunk goes nowhere. -/
  | ignored (c : OutputChannel) : Change l (.push c "") l
  /-- A chunk extends the last entry, which is an open one of its channel. -/
  | extended {front : List OutputEntry} {last : OutputEntry} {c : OutputChannel} {text : String}
      (hsplit : l.entries = front ++ [last]) (hopen : last.isOpen c = true) (htext : text ≠ "") :
      Change l (.push c text)
        { l with entries := front ++ [{ last with text := last.text ++ text }] }
  /-- A chunk begins an entry. -/
  | started {c : OutputChannel} {text : String} (htext : text ≠ "")
      (hlast : ∀ last ∈ l.entries.getLast?, last.isOpen c = false) :
      Change l (.push c text) (l.start c text)
  /-- No entry of the channel is open. -/
  | idle {c : OutputChannel} (hnone : ∀ e ∈ l.entries, e.isOpen c = false) : Change l (.flush c) l
  /-- The latest open entry of the channel is sealed. -/
  | sealed {front back : List OutputEntry} {e : OutputEntry} {c : OutputChannel}
      (hsplit : l.entries = front ++ e :: back) (hopen : e.isOpen c = true)
      (hback : ∀ x ∈ back, x.isOpen c = false) :
      Change l (.flush c) { l with entries := front ++ { e with flushed := true } :: back }
  | cleared : Change l .clear l.clear

def ids (l : OutputLog) : List Nat := l.entries.map (·.id)

lemma isOpen_iff {c : OutputChannel} {e : OutputEntry} :
    e.isOpen c = true ↔ e.channel = c ∧ e.flushed = false := by
  simp [OutputEntry.isOpen]

/-- A text is added to the last of some entries. -/
lemma extendLast_concat (text : String) (front : List OutputEntry) (last : OutputEntry) :
    extendLast text (front ++ [last]) = front ++ [{ last with text := last.text ++ text }] := by
  induction front with
  | nil => rfl
  | cons e rest ih =>
    cases rest with
    | nil => rfl
    | cons e' rest => exact congrArg (e :: ·) ih

/-- The latest open entry splits the entries, and no later one is open. -/
lemma lastOpen?_eq_some {l : OutputLog} {c : OutputChannel} {e : OutputEntry}
    (h : l.lastOpen? c = some e) :
    ∃ front back, l.entries = front ++ e :: back ∧ e.isOpen c = true ∧
      ∀ x ∈ back, x.isOpen c = false := by
  obtain ⟨hopen, after, before, hsplit, hafter⟩ := List.find?_eq_some_iff_append.1 h
  refine ⟨before.reverse, after.reverse, ?_, hopen, fun x hx => ?_⟩
  · rw [← List.reverse_reverse l.entries, hsplit]
    simp
  · simpa using hafter x (List.mem_reverse.1 hx)

lemma lastOpen?_eq_none_iff {l : OutputLog} {c : OutputChannel} :
    l.lastOpen? c = none ↔ ∀ e ∈ l.entries, e.isOpen c = false := by
  rw [lastOpen?, List.find?_eq_none]
  simp

/-- Sealing the entry of a number seals one entry, as no other has the number. -/
lemma map_close {front back : List OutputEntry} {e : OutputEntry}
    (h : ((front ++ e :: back).map (·.id)).Nodup) :
    (front ++ e :: back).map (fun x => if x.id = e.id then { x with flushed := true } else x) =
      front ++ { e with flushed := true } :: back := by
  rw [List.map_append, List.map_cons, List.nodup_append] at h
  obtain ⟨-, hback, hfront⟩ := h
  have hkeep (m : List OutputEntry) (hm : ∀ x ∈ m, x.id ≠ e.id) :
      m.map (fun x => if x.id = e.id then { x with flushed := true } else x) = m :=
    (List.map_congr_left fun x hx => if_neg (hm x hx)).trans (List.map_id' m)
  have hbefore : ∀ x ∈ front, x.id ≠ e.id := fun x hx =>
    hfront x.id (List.mem_map_of_mem hx) e.id (List.mem_cons_self ..)
  have hafter : ∀ x ∈ back, x.id ≠ e.id := fun x hx heq =>
    (List.nodup_cons.1 hback).1 (heq ▸ List.mem_map_of_mem hx)
  rw [List.map_append, List.map_cons, if_pos rfl, hkeep front hbefore, hkeep back hafter]

/-- Every update of a log with different numbers changes it in one of these ways. -/
theorem change_perform {l : OutputLog} (hnodup : l.ids.Nodup) (op : Operation) :
    Change l op (l.perform op) := by
  cases op with
  | push c text =>
    show Change l (.push c text) (l.push c text).1
    unfold push
    split
    · next htext =>
      subst htext
      exact .ignored c
    · next htext =>
      split
      · next last hlast =>
        obtain ⟨front, hsplit⟩ := List.getLast?_eq_some_iff.1 hlast
        split
        · next hopen =>
          rw [hsplit, extendLast_concat]
          exact .extended hsplit hopen htext
        · next hopen =>
          refine .started htext fun x hx => ?_
          obtain rfl : last = x := Option.some.inj (hlast.symm.trans hx)
          exact Bool.eq_false_iff.2 hopen
      · next hlast =>
        refine .started htext fun x hx => ?_
        rw [hlast] at hx
        cases hx
  | flush c =>
    show Change l (.flush c) (l.flush c).1
    unfold flush
    split
    · next hnone => exact .idle (lastOpen?_eq_none_iff.1 hnone)
    · next e hopen =>
      obtain ⟨front, back, hsplit, hopen, hback⟩ := lastOpen?_eq_some hopen
      rw [ids, hsplit] at hnodup
      have hclosed := map_close hnodup
      dsimp only
      rw [hsplit, hclosed]
      exact .sealed hsplit hopen hback
  | clear => exact .cleared

/-- No update changes how many entries are kept at most. -/
lemma capacity_perform (l : OutputLog) (op : Operation) : (l.perform op).capacity = l.capacity := by
  cases op with
  | push c text =>
    show (l.push c text).1.capacity = l.capacity
    unfold push
    split
    · rfl
    · split
      · split <;> rfl
      · rfl
  | flush c =>
    show (l.flush c).1.capacity = l.capacity
    unfold flush
    split <;> rfl
  | clear => rfl

lemma capacity_run (l : OutputLog) (ops : List Operation) : (l.run ops).capacity = l.capacity := by
  induction ops generalizing l with
  | nil => rfl
  | cons op rest ih => exact (ih (l.perform op)).trans (l.capacity_perform op)

/-! ## Well-formed logs -/

/-- What can be relied on in a log. -/
structure WellFormed (l : OutputLog) : Prop where
  capacity_pos : 1 ≤ l.capacity
  length_le : l.entries.length ≤ l.capacity
  length_le_nextId : l.entries.length ≤ l.nextId
  /-- The kept entries bear the numbers that were given last. -/
  ids_eq : l.ids = List.range' (l.nextId - l.entries.length) l.entries.length
  nonempty : ∀ e ∈ l.entries, e.text ≠ ""
  /-- Of two neighbours of one channel the earlier is sealed. -/
  apart : l.entries.IsChain fun a b => a.channel = b.channel → a.flushed = true

lemma WellFormed.id_lt {l : OutputLog} (h : l.WellFormed) {id : Nat} (hid : id ∈ l.ids) :
    id < l.nextId := by
  rw [h.ids_eq, List.mem_range'_1] at hid
  have hle := h.length_le_nextId
  omega

lemma WellFormed.nodup_ids {l : OutputLog} (h : l.WellFormed) : l.ids.Nodup := by
  rw [h.ids_eq]
  exact List.nodup_range'

lemma WellFormed.eq_of_id_eq {l : OutputLog} (h : l.WellFormed) {e e' : OutputEntry}
    (he : e ∈ l.entries) (he' : e' ∈ l.entries) (hid : e'.id = e.id) : e' = e :=
  List.inj_on_of_nodup_map h.nodup_ids he' he hid

/-- A new log is well-formed. -/
lemma WellFormed.new (capacity : Nat) : (new capacity).WellFormed where
  capacity_pos := Nat.le_max_right ..
  length_le := Nat.zero_le _
  length_le_nextId := Nat.le_refl _
  ids_eq := rfl
  nonempty _ he := absurd he List.not_mem_nil
  apart := .nil

/-- A log stays well-formed if its entries change within their texts and seals. -/
lemma WellFormed.of_ids_eq {l : OutputLog} (h : l.WellFormed) {entries : List OutputEntry}
    (hids : entries.map (·.id) = l.ids) (hnonempty : ∀ e ∈ entries, e.text ≠ "")
    (hapart : entries.IsChain fun a b => a.channel = b.channel → a.flushed = true) :
    { l with entries := entries }.WellFormed := by
  have hlen : entries.length = l.entries.length := by
    rw [← List.length_map (·.id), hids, ids, List.length_map]
  exact {
    capacity_pos := h.capacity_pos
    length_le := hlen ▸ h.length_le
    length_le_nextId := hlen ▸ h.length_le_nextId
    ids_eq := by
      show entries.map (·.id) = List.range' (l.nextId - entries.length) entries.length
      rw [hids, hlen, h.ids_eq]
    nonempty := hnonempty
    apart := hapart }

/-- The number of entries that go when another one begins. -/
def overflow (l : OutputLog) : Nat := l.entries.length + 1 - l.capacity

lemma WellFormed.overflow_le {l : OutputLog} (h : l.WellFormed) :
    l.overflow ≤ l.entries.length := by
  have hpos := h.capacity_pos
  unfold overflow
  omega

lemma entries_start (l : OutputLog) (c : OutputChannel) (text : String) :
    (l.start c text).entries =
      (l.entries ++ [(⟨l.nextId, c, text, false⟩ : OutputEntry)]).drop l.overflow := by
  simp [start, overflow]

/-- When another entry begins, no entry but that one is new. -/
lemma mem_or_eq_of_mem_start {l : OutputLog} {c : OutputChannel} {text : String} {x : OutputEntry}
    (hx : x ∈ (l.start c text).entries) : x ∈ l.entries ∨ x = ⟨l.nextId, c, text, false⟩ := by
  rw [entries_start] at hx
  exact (List.mem_append.1 (List.mem_of_mem_drop hx)).imp_right List.mem_singleton.1

/-- The numbers of the entries that are kept when another one begins. -/
lemma WellFormed.ids_start {l : OutputLog} (h : l.WellFormed) (c : OutputChannel) (text : String) :
    (l.start c text).ids = l.ids.drop l.overflow ++ [l.nextId] := by
  have hle : l.overflow ≤ l.ids.length := by
    rw [ids, List.length_map]
    exact h.overflow_le
  rw [ids, entries_start, List.map_drop, List.map_append]
  exact List.drop_append_of_le_length hle

/-- The log with an entry that has just begun is well-formed. -/
lemma WellFormed.start {l : OutputLog} (h : l.WellFormed) {c : OutputChannel} {text : String}
    (htext : text ≠ "") (hlast : ∀ last ∈ l.entries.getLast?, last.isOpen c = false) :
    (l.start c text).WellFormed := by
  have hpos := h.capacity_pos
  have hle := h.length_le
  have hnext := h.length_le_nextId
  have hlen : (l.start c text).entries.length = l.entries.length + 1 - l.overflow := by
    rw [entries_start, List.length_drop, List.length_append, List.length_singleton]
  have hcapacity : (l.start c text).capacity = l.capacity := rfl
  have hnextId : (l.start c text).nextId = l.nextId + 1 := rfl
  constructor
  · exact h.capacity_pos
  · rw [hlen, hcapacity, overflow]
    omega
  · rw [hlen, hnextId, overflow]
    omega
  -- the new number continues the row, and the overflow is dropped from its front
  · have hids : l.ids ++ [l.nextId] =
        List.range' (l.nextId - l.entries.length) (l.entries.length + 1) := by
      have hsum : l.nextId - l.entries.length + 1 * l.entries.length = l.nextId := by omega
      rw [h.ids_eq, List.range'_concat, hsum]
    have hdrop : l.overflow ≤ l.ids.length := by
      rw [ids, List.length_map]
      exact h.overflow_le
    rw [h.ids_start, ← List.drop_append_of_le_length hdrop, hids, List.drop_range', hlen, hnextId]
    congr 1
    unfold overflow
    omega
  · intro e he
    rcases mem_or_eq_of_mem_start he with hold | rfl
    · exact h.nonempty e hold
    · exact htext
  · rw [entries_start]
    refine (h.apart.append (.singleton _) fun last hlast' e he hchannel => ?_).drop _
    obtain rfl : (⟨l.nextId, c, text, false⟩ : OutputEntry) = e := Option.some.inj he
    have hclosed := hlast last hlast'
    simpa [OutputEntry.isOpen, hchannel] using hclosed

/-- Every change of a well-formed log leads to a well-formed log. -/
theorem WellFormed.change {l l' : OutputLog} {op : Operation} (h : l.WellFormed)
    (hchange : Change l op l') : l'.WellFormed := by
  cases hchange with
  | ignored c => exact h
  | idle hnone => exact h
  | started htext hlast => exact h.start htext hlast
  | @extended front last c text hsplit hopen htext =>
    have hnonempty := h.nonempty
    have hapart := h.apart
    rw [hsplit] at hnonempty hapart
    refine h.of_ids_eq (by simp [ids, hsplit]) (fun e he => ?_) ?_
    · rcases List.mem_append.1 he with hold | hnew
      · exact hnonempty e (List.mem_append_left _ hold)
      · rw [List.mem_singleton.1 hnew]
        exact fun hempty => htext (String.append_eq_empty_iff.1 hempty).2
    · obtain ⟨hfront, -, hboth⟩ := List.isChain_append.1 hapart
      refine hfront.append (.singleton _) fun a ha b hb => ?_
      obtain rfl := Option.some.inj hb
      exact hboth a ha last rfl
  | @sealed front back e c hsplit hopen hback =>
    have hnonempty := h.nonempty
    have hapart := h.apart
    rw [hsplit] at hnonempty hapart
    refine h.of_ids_eq (by simp [ids, hsplit]) (fun x hx => ?_) ?_
    · rcases List.mem_append.1 hx with hold | hrest
      · exact hnonempty x (List.mem_append_left _ hold)
      · rcases List.mem_cons.1 hrest with rfl | hold
        · exact hnonempty e (by simp)
        · exact hnonempty x (by simp [hold])
    · obtain ⟨hfront, hrest, hboth⟩ := List.isChain_append.1 hapart
      refine hfront.append ((List.isChain_cons.1 hrest).2.cons fun _ _ _ => rfl) fun a ha b hb => ?_
      obtain rfl := Option.some.inj hb
      exact hboth a ha e rfl
  | cleared =>
    exact {
      capacity_pos := h.capacity_pos
      length_le := Nat.zero_le _
      length_le_nextId := Nat.zero_le _
      ids_eq := rfl
      nonempty := fun _ he => absurd he List.not_mem_nil
      apart := .nil }

lemma WellFormed.perform {l : OutputLog} (h : l.WellFormed) (op : Operation) :
    (l.perform op).WellFormed :=
  h.change (change_perform h.nodup_ids op)

lemma WellFormed.run {l : OutputLog} (h : l.WellFormed) (ops : List Operation) :
    (l.run ops).WellFormed := by
  induction ops generalizing l with
  | nil => exact h
  | cons op rest ih => exact ih (h.perform op)

/-! ## What goes -/

/-- The entries that go with an update: those that are kept before it and not after it. -/
def dropped (l : OutputLog) (op : Operation) : List OutputEntry :=
  l.entries.filter fun e => ((l.perform op).get? e.id).isNone

/-- The entries that go with a list of updates, one after another, each as it was when it was last
kept.  Where a log is not cleared, these are the entries that are evicted. -/
def gone (l : OutputLog) : List Operation → List OutputEntry
  | [] => []
  | op :: ops => l.dropped op ++ (l.perform op).gone ops

lemma isNone_get?_iff {l : OutputLog} {id : Nat} : (l.get? id).isNone = true ↔ id ∉ l.ids := by
  simp [get?, ids, List.find?_eq_none]

/-- If all numbers from a place on stay and else there are new ones only, the entries before that
place go. -/
lemma dropped_eq_take {l : OutputLog} {op : Operation} {k : Nat} {fresh : List Nat}
    (hnodup : l.ids.Nodup) (hids : (l.perform op).ids = l.ids.drop k ++ fresh)
    (hfresh : ∀ id ∈ fresh, id ∉ l.ids) : l.dropped op = l.entries.take k := by
  -- an entry is gone just if its number was dropped, since no number comes back
  have hmem (e : OutputEntry) (he : e ∈ l.entries) :
      ((l.perform op).get? e.id).isNone = true ↔ e.id ∉ l.ids.drop k := by
    have hknown : e.id ∈ l.ids := List.mem_map_of_mem he
    have hnew : e.id ∉ fresh := fun hin => hfresh e.id hin hknown
    rw [isNone_get?_iff, hids, List.mem_append, not_or]
    exact and_iff_left hnew
  rw [← List.take_append_drop k l.ids, List.nodup_append] at hnodup
  obtain ⟨-, -, hdisjoint⟩ := hnodup
  have htake : (l.entries.take k).filter (fun e => ((l.perform op).get? e.id).isNone) =
      l.entries.take k := by
    refine List.filter_eq_self.2 fun e he => (hmem e (List.mem_of_mem_take he)).2 fun hin => ?_
    have hearly : e.id ∈ l.ids.take k := by
      rw [ids, ← List.map_take]
      exact List.mem_map_of_mem he
    exact hdisjoint e.id hearly e.id hin rfl
  have hdrop : (l.entries.drop k).filter (fun e => ((l.perform op).get? e.id).isNone) = [] := by
    refine List.filter_eq_nil_iff.2 fun e he hnone => ?_
    refine (hmem e (List.mem_of_mem_drop he)).1 hnone ?_
    rw [ids, ← List.map_drop]
    exact List.mem_map_of_mem he
  calc l.dropped op
      = (l.entries.take k ++ l.entries.drop k).filter
          fun e => ((l.perform op).get? e.id).isNone := by rw [List.take_append_drop]; rfl
    _ = l.entries.take k := by rw [List.filter_append, htake, hdrop, List.append_nil]

/-! ## The balance of an update -/

/-- The chunk that an update puts into the log. -/
def Operation.chunk? : Operation → Option (OutputChannel × String)
  | .push c text => some (c, text)
  | _ => none

/-- The chunks that a list of updates puts into the log, in the order in which they arrive. -/
def chunks (ops : List Operation) : List (OutputChannel × String) := ops.filterMap Operation.chunk?

/-- The texts of some entries, one after another. -/
def textOf (entries : List OutputEntry) : String := String.join (entries.map (·.text))

/-- The text of some entries on some of the channels. -/
def textOn (p : OutputChannel → Bool) (entries : List OutputEntry) : String :=
  textOf (entries.filter fun e => p e.channel)

/-- The text of some chunks on some of the channels. -/
def chunkTextOn (p : OutputChannel → Bool) (chunks : List (OutputChannel × String)) : String :=
  String.join ((chunks.filter fun chunk => p chunk.1).map (·.2))

section

variable (p : OutputChannel → Bool)

@[simp] lemma textOn_nil : textOn p [] = "" := rfl

@[simp] lemma textOn_append (l m : List OutputEntry) :
    textOn p (l ++ m) = textOn p l ++ textOn p m := by
  simp [textOn, textOf]

lemma textOn_cons (e : OutputEntry) (l : List OutputEntry) :
    textOn p (e :: l) = (if p e.channel then e.text else "") ++ textOn p l := by
  cases hp : p e.channel <;> simp [textOn, textOf, hp]

@[simp] lemma chunkTextOn_nil : chunkTextOn p [] = "" := rfl

lemma chunkTextOn_append (l m : List (OutputChannel × String)) :
    chunkTextOn p (l ++ m) = chunkTextOn p l ++ chunkTextOn p m := by
  simp [chunkTextOn]

lemma chunkTextOn_singleton (c : OutputChannel) (text : String) :
    chunkTextOn p [(c, text)] = if p c then text else "" := by
  cases hp : p c <;> simp [chunkTextOn, hp]

end

/-- What an update does to the numbers and the texts of the entries: the entries before some place
go, the numbers of the others are followed by those that are newly given, and the text of all is the
earlier text followed by the chunk. -/
theorem Change.balance {l l' : OutputLog} {op : Operation} (h : l.WellFormed)
    (hchange : Change l op l') :
    l.nextId ≤ l'.nextId ∧ ∃ k,
      l'.ids = l.ids.drop k ++ List.range' l.nextId (l'.nextId - l.nextId) ∧
      ∀ p, textOn p (l.entries.take k) ++ textOn p l'.entries =
        textOn p l.entries ++ chunkTextOn p op.chunk?.toList := by
  have hsame : l.ids = l.ids.drop 0 ++ List.range' l.nextId (l.nextId - l.nextId) := by simp
  cases hchange with
  | ignored c =>
    refine ⟨Nat.le_refl _, 0, hsame, fun p => ?_⟩
    have hempty : chunkTextOn p [(c, "")] = "" := by simp [chunkTextOn_singleton]
    show "" ++ textOn p l.entries = textOn p l.entries ++ chunkTextOn p [(c, "")]
    rw [hempty, String.empty_append, String.append_empty]
  | idle hnone => exact ⟨Nat.le_refl _, 0, hsame, fun p => by simp [Operation.chunk?]⟩
  | @extended front last c text hsplit hopen htext =>
    obtain ⟨rfl, -⟩ := isOpen_iff.1 hopen
    refine ⟨Nat.le_refl _, 0, ?_, fun p => ?_⟩
    · rw [← hsame]
      simp [ids, hsplit]
    · show "" ++ textOn p (front ++ [{ last with text := last.text ++ text }]) =
        textOn p l.entries ++ chunkTextOn p [(last.channel, text)]
      rw [hsplit, chunkTextOn_singleton]
      simp only [textOn_append, textOn_cons, textOn_nil]
      cases hp : p last.channel <;> simp [String.append_assoc]
  | @started c text htext hlast =>
    refine ⟨Nat.le_succ _, l.overflow, ?_, fun p => ?_⟩
    · have hone : (l.start c text).nextId - l.nextId = 1 := Nat.add_sub_cancel_left ..
      rw [h.ids_start, hone]
      rfl
    -- what goes with the overflow and what stays are together what there was
    · rw [entries_start, List.drop_append_of_le_length h.overflow_le, textOn_append,
        ← String.append_assoc, ← textOn_append, List.take_append_drop]
      simp [textOn_cons, Operation.chunk?, chunkTextOn_singleton]
  | @sealed front back e c hsplit hopen hback =>
    refine ⟨Nat.le_refl _, 0, ?_, fun p => ?_⟩
    · rw [← hsame]
      simp [ids, hsplit]
    · simp [hsplit, textOn_cons, Operation.chunk?]
  | cleared =>
    refine ⟨Nat.le_refl _, l.entries.length, ?_, fun p => ?_⟩
    · simp [ids, clear]
    · simp [clear, Operation.chunk?]

/-- The entries that go with an update are the oldest ones, as they are, and with those that stay
they have the earlier numbers and texts and the new ones. -/
lemma WellFormed.dropped {l : OutputLog} (h : l.WellFormed) (op : Operation) :
    l.nextId ≤ (l.perform op).nextId ∧
      (l.dropped op).map (·.id) ++ (l.perform op).ids =
        l.ids ++ List.range' l.nextId ((l.perform op).nextId - l.nextId) ∧
      (∀ p, textOn p (l.dropped op) ++ textOn p (l.perform op).entries =
        textOn p l.entries ++ chunkTextOn p op.chunk?.toList) ∧
      ∃ k, l.dropped op = l.entries.take k ∧ l.ids.drop k <+: (l.perform op).ids := by
  obtain ⟨hle, k, hids, htext⟩ := (change_perform h.nodup_ids op).balance h
  have hdropped : l.dropped op = l.entries.take k := by
    refine dropped_eq_take h.nodup_ids hids fun id hid hknown => ?_
    have hlt := h.id_lt hknown
    have hge := (List.mem_range'_1.1 hid).1
    omega
  refine ⟨hle, ?_, fun p => ?_, k, hdropped, hids ▸ List.prefix_append ..⟩
  · rw [hdropped, hids, List.map_take, ← List.append_assoc]
    exact congrArg (· ++ _) (List.take_append_drop k l.ids)
  · rw [hdropped, htext]

/-! ## The account of a run -/

/-- The numbers of the entries that went with a list of updates and of those that are kept after it
are the numbers of the entries before it, followed by all numbers given since. -/
lemma WellFormed.ids_gone {l : OutputLog} (h : l.WellFormed) (ops : List Operation) :
    l.nextId ≤ (l.run ops).nextId ∧
      (l.gone ops).map (·.id) ++ (l.run ops).ids =
        l.ids ++ List.range' l.nextId ((l.run ops).nextId - l.nextId) := by
  induction ops generalizing l with
  | nil =>
    refine ⟨Nat.le_refl _, ?_⟩
    show l.ids = l.ids ++ List.range' l.nextId (l.nextId - l.nextId)
    simp
  | cons op rest ih =>
    obtain ⟨hle, hids, -, -⟩ := h.dropped op
    obtain ⟨hle', hids'⟩ := ih (h.perform op)
    have hrun : l.run (op :: rest) = (l.perform op).run rest := rfl
    have hgiven :
        List.range' l.nextId ((l.perform op).nextId - l.nextId) ++
          List.range' (l.perform op).nextId
            (((l.perform op).run rest).nextId - (l.perform op).nextId) =
        List.range' l.nextId (((l.perform op).run rest).nextId - l.nextId) := by
      have hstart : (l.perform op).nextId =
          l.nextId + ((l.perform op).nextId - l.nextId) := by omega
      have hall : (l.perform op).nextId - l.nextId +
          (((l.perform op).run rest).nextId - (l.perform op).nextId) =
            ((l.perform op).run rest).nextId - l.nextId := by omega
      rw [← hall, ← List.range'_append_1, ← hstart]
    refine ⟨Nat.le_trans hle hle', ?_⟩
    rw [gone, hrun, List.map_append, List.append_assoc, hids', ← List.append_assoc, hids,
      List.append_assoc, hgiven]

/-- The text of the entries that went with a list of updates and of those that are kept after it is
the text of the entries before it, followed by the chunks. -/
lemma WellFormed.textOn_gone {l : OutputLog} (h : l.WellFormed) (p : OutputChannel → Bool)
    (ops : List Operation) :
    textOn p (l.gone ops) ++ textOn p (l.run ops).entries =
      textOn p l.entries ++ chunkTextOn p (chunks ops) := by
  induction ops generalizing l with
  | nil =>
    show "" ++ textOn p l.entries = textOn p l.entries ++ ""
    rw [String.empty_append, String.append_empty]
  | cons op rest ih =>
    obtain ⟨-, -, htext, -⟩ := h.dropped op
    have hchunks : chunks (op :: rest) = op.chunk?.toList ++ chunks rest := by
      cases hchunk : op.chunk? <;> simp [chunks, hchunk]
    calc textOn p (l.gone (op :: rest)) ++ textOn p (l.run (op :: rest)).entries
        = textOn p (l.dropped op) ++ (textOn p ((l.perform op).gone rest) ++
            textOn p ((l.perform op).run rest).entries) := by
          rw [gone, textOn_append, String.append_assoc]
          rfl
      _ = (textOn p (l.dropped op) ++ textOn p (l.perform op).entries) ++
            chunkTextOn p (chunks rest) := by
          rw [ih (h.perform op), String.append_assoc]
      _ = textOn p l.entries ++ chunkTextOn p (chunks (op :: rest)) := by
          rw [htext, hchunks, chunkTextOn_append, String.append_assoc]

/-- No entry that went with a list of updates is empty. -/
lemma WellFormed.nonempty_gone {l : OutputLog} (h : l.WellFormed) {ops : List Operation}
    {e : OutputEntry} (he : e ∈ l.gone ops) : e.text ≠ "" := by
  induction ops generalizing l with
  | nil => exact absurd he List.not_mem_nil
  | cons op rest ih =>
    rcases List.mem_append.1 he with hdropped | hlater
    · exact h.nonempty e (List.mem_filter.1 hdropped).1
    · exact ih (h.perform op) hlater

/-- No output is lost, repeated or moved.  Whatever chunks, flushes and clears a new log takes note
of, the texts of the entries that went and of those that are kept are together the text of all
chunks in the order in which they arrived, and so are those of every channel.  The entries bear the
numbers from zero on in that order; an update takes away oldest entries only, as wholes.  The kept
entries bear the last numbers, are at most as many as the capacity, and none is empty; of two
neighbours of one channel the earlier is sealed. -/
theorem gone_append_entries (capacity : Nat) (ops : List Operation) :
    let l := (new capacity).run ops
    let gone := (new capacity).gone ops
    textOf gone ++ textOf l.entries = String.join ((chunks ops).map (·.2)) ∧
    (∀ c, textOf (gone.filter (·.channel = c)) ++ textOf (l.entries.filter (·.channel = c)) =
      String.join (((chunks ops).filter (·.1 = c)).map (·.2))) ∧
    (gone ++ l.entries).map (·.id) = List.range l.nextId ∧
    (∀ op, ∃ k, l.dropped op = l.entries.take k ∧ l.ids.drop k <+: (l.perform op).ids) ∧
    l.entries.length ≤ l.nextId ∧
    l.ids = List.range' (l.nextId - l.entries.length) l.entries.length ∧
    l.entries.length ≤ max capacity 1 ∧
    (∀ e ∈ gone ++ l.entries, e.text ≠ "") ∧
    l.entries.IsChain fun a b => a.channel = b.channel → a.flushed = true := by
  intro l gone
  have hnew := WellFormed.new capacity
  have hl : l.WellFormed := hnew.run ops
  have htext (p : OutputChannel → Bool) :
      textOn p gone ++ textOn p l.entries = chunkTextOn p (chunks ops) := by
    have hall := hnew.textOn_gone p ops
    have hnone : textOn p (new capacity).entries = "" := rfl
    rwa [hnone, String.empty_append] at hall
  have hcapacity : l.capacity = max capacity 1 := capacity_run ..
  refine ⟨?_, fun c => htext fun c' => c' = c, ?_, fun op => ?_, hl.length_le_nextId, hl.ids_eq,
    hcapacity ▸ hl.length_le, fun e he => ?_, hl.apart⟩
  · simpa [textOn, chunkTextOn] using htext fun _ => true
  · obtain ⟨-, hids⟩ := hnew.ids_gone ops
    rw [List.map_append, List.range_eq_range']
    exact hids
  · exact (hl.dropped op).2.2.2
  · exact (List.mem_append.1 he).elim (fun h => hnew.nonempty_gone h) (hl.nonempty e)

end OutputLog

end TraceTimeline
