import TraceTimeline.Operator.Command
import TraceTimeline.Proofs.Text.Numeral

/-!
# Commands in writing

A command is written as one of its words, its number and its text, with blanks between these parts
and around them (`Command.written`).  Reading a line looks at its first word and, without the blanks
at the ends, at what follows the word (`Command.parse_of_word`); so it does not matter which blanks
separate the parts.  It reads a command if and only if the word is one of the command's words and
what follows stands for its number and its text (`Command.ofWord_eq_ok_iff`).

A command that was read can be written and read again, since the text that it holds has no blanks at
its ends.  The number that it holds is the one that the line says; a line that says a number out of
range is a mistake.
-/

namespace TraceTimeline

open Text (AllBlank IsWord SetApart Trimmed)

namespace Command

/-! ## Writing -/

/-- The words for a command. -/
def words : Command → List String
  | .resume => ["c", "continue"]
  | .seek _ => ["seek"]
  | .line _ => ["line"]
  | .follow => ["follow"]
  | .scope => ["scope"]
  | .output => ["output"]
  | .clear => ["clear"]
  | .edit .. => ["edit"]
  | .restart => ["restart"]
  | .quit => ["q", "quit", "exit"]

/-- The number in a command. -/
def number? : Command → Option Nat
  | .seek id => some id.toNat
  | .line target => some target.toNat
  | .edit target _ => some target.toNat
  | _ => none

/-- The text in a command. -/
def code : Command → String
  | .edit _ code => code
  | _ => ""

/-- The blanks before a command, after its word, after its number, and after all of it. -/
structure Spacing where
  before : String
  afterWord : String
  afterNumber : String
  after : String
  blank_before : AllBlank before
  blank_afterWord : AllBlank afterWord
  blank_afterNumber : AllBlank afterNumber
  blank_after : AllBlank after
  afterWord_ne : afterWord ≠ ""
  afterNumber_ne : afterNumber ≠ ""

/-- A number in writing: its decimal digits, after blanks. -/
def writtenNumber (gaps : Spacing) (n : Nat) : String :=
  gaps.afterWord ++ String.ofList (Text.digits n)

/-- A text in writing, after blanks.  Nothing is written of an empty one. -/
def writtenCode (gaps : Spacing) (code : String) : String :=
  if code = "" then "" else gaps.afterNumber ++ code

/-- What is written of a command after its word. -/
def arguments (gaps : Spacing) : Command → String
  | .seek id => writtenNumber gaps id.toNat
  | .line target => writtenNumber gaps target.toNat
  | .edit target code => writtenNumber gaps target.toNat ++ writtenCode gaps code
  | _ => ""

/-- A command in writing, with one of its words. -/
def written (c : Command) (word : String) (gaps : Spacing) : String :=
  gaps.before ++ word ++ c.arguments gaps ++ gaps.after

lemma isWord_of_mem_words {c : Command} {word : String} (h : word ∈ c.words) :
    IsWord word.toList := by
  revert word
  cases c <;> dsimp only [words] <;> decide +kernel

/-! ## Reading what follows the word -/

section

variable {α : Type} {argument : CommandArgument} {read : List Char → Option α} {f : α → Command}
  {cs rest : List Char} {c : Command} {word : String}

lemma map_number_eq_ok_iff (hnil : read [] = none) :
    (number argument read cs).map f = .ok c ↔ ∃ n, read cs = some n ∧ f n = c := by
  unfold number
  split
  · next hcs => simp [hcs, hnil, Except.map]
  · cases read cs <;> simp [Except.map]

lemma map_number_eq_error (hcs : cs ≠ []) (hread : read cs = none) :
    (number argument read cs).map f = .error (.invalidNumber (String.ofList cs)) := by
  rw [number, if_neg hcs, hread]
  rfl

/-- What follows the word of a command, without the blanks at its ends, stands for the number and
the text of the command.  Commands without a number take anything. -/
def Reads : Command → List Char → Prop
  | .seek id, rest => Text.readUInt64? rest = some id
  | .line target, rest => Text.readUInt32? rest = some target
  | .edit target code, rest =>
    Text.readUInt32? (Text.wordAndRest rest).1 = some target ∧
      String.ofList (Text.trimLeft (Text.wordAndRest rest).2) = code
  | _, _ => True

/-- A command is read from its words, if what follows stands for its number and its text. -/
theorem ofWord_eq_ok_iff : ofWord word rest = .ok c ↔ word ∈ c.words ∧ c.Reads rest := by
  constructor
  · intro h
    unfold ofWord at h
    split at h
    -- the words that take a number, the one that is no command's, and all others
    case h_3 =>
      obtain ⟨id, hid, rfl⟩ := (map_number_eq_ok_iff rfl).1 h
      exact ⟨List.mem_singleton_self _, hid⟩
    case h_4 =>
      obtain ⟨target, htarget, rfl⟩ := (map_number_eq_ok_iff rfl).1 h
      exact ⟨List.mem_singleton_self _, htarget⟩
    case h_9 =>
      obtain ⟨target, htarget, rfl⟩ := (map_number_eq_ok_iff rfl).1 h
      exact ⟨List.mem_singleton_self _, htarget, rfl⟩
    case h_14 => cases h
    all_goals
      obtain rfl := Except.ok.inj h
      exact ⟨by simp [words], trivial⟩
  · rintro ⟨hword, hreads⟩
    cases c with
    | seek id =>
      obtain rfl := List.mem_singleton.1 hword
      exact (map_number_eq_ok_iff rfl).2 ⟨id, hreads, rfl⟩
    | line target =>
      obtain rfl := List.mem_singleton.1 hword
      exact (map_number_eq_ok_iff rfl).2 ⟨target, hreads, rfl⟩
    | edit target code =>
      obtain rfl := List.mem_singleton.1 hword
      obtain ⟨htarget, rfl⟩ := hreads
      exact (map_number_eq_ok_iff rfl).2 ⟨target, htarget, rfl⟩
    | resume | follow | scope | output | clear | restart | quit =>
      revert word
      simp [words, ofWord]

end

/-! ## Reading a line -/

section

variable {line word : String} {c : Command} {before w rest : List Char}

/-- Of a line, the first word counts, and what follows it without the blanks at the ends. -/
lemma parse_of_word (hline : line.toList = before ++ (w ++ rest))
    (hbefore : ∀ d ∈ before, Text.isBlank d = true) (hw : IsWord w) (hrest : SetApart rest) :
    parse line = (ofWord (String.ofList w) (Text.trimChars rest)).map some := by
  have htrim : Text.trimChars line.toList = w ++ Text.trimRight rest := by
    rw [hline, hw.trimChars_append hbefore]
  unfold parse
  rw [htrim]
  split
  · next hnil => exact absurd (List.append_eq_nil_iff.1 hnil).1 hw.1
  · rw [parseTrimmed, hw.wordAndRest_append hrest.trimRight]
    dsimp only
    rw [hrest.trimChars_rest]

/-- A blank line is no command, and no mistake. -/
theorem parse_eq_none_iff : parse line = .ok none ↔ AllBlank line := by
  constructor
  · intro h
    by_contra hblank
    obtain ⟨before, w, rest, hline, hbefore, hw, hrest⟩ := Text.exists_word hblank
    rw [parse_of_word hline hbefore hw hrest] at h
    cases hword : ofWord (String.ofList w) (Text.trimChars rest) <;>
      simp [hword, Except.map] at h
  · intro h
    rw [parse, Text.trimChars_of_blank h]

/-- A line that a command is read from begins with one of its words, and what follows stands for
its number and its text. -/
theorem exists_of_parse (h : parse line = .ok (some c)) :
    ∃ before w rest : List Char, line.toList = before ++ (w ++ rest) ∧
      (∀ d ∈ before, Text.isBlank d = true) ∧ SetApart rest ∧ String.ofList w ∈ c.words ∧
        c.Reads (Text.trimChars rest) := by
  by_cases hblank : AllBlank line
  · rw [parse_eq_none_iff.2 hblank] at h
    cases h
  · obtain ⟨before, w, rest, hline, hbefore, hw, hrest⟩ := Text.exists_word hblank
    rw [parse_of_word hline hbefore hw hrest] at h
    cases hword : ofWord (String.ofList w) (Text.trimChars rest) with
    | error e => simp [hword, Except.map] at h
    | ok c' =>
      obtain rfl : c' = c := by simpa [hword, Except.map] using h
      exact ⟨before, w, rest, hline, hbefore, hrest, ofWord_eq_ok_iff.1 hword⟩

end

/-! ## Reading what was written -/

section

variable {c : Command} {gaps : Spacing} {word : String} {rest : List Char}

lemma setApart_writtenNumber (n : Nat) (after : String) :
    SetApart (writtenNumber gaps n ++ after).toList := by
  have hne : gaps.afterWord.toList ≠ [] := mt String.toList_eq_nil_iff.1 gaps.afterWord_ne
  rw [writtenNumber, String.append_assoc, String.toList_append]
  exact SetApart.of_gap hne gaps.blank_afterWord

/-- A text in writing is set apart from the number before it. -/
lemma setApart_writtenCode (code : String) :
    SetApart (writtenCode gaps code ++ gaps.after).toList := by
  unfold writtenCode
  split
  · rw [String.empty_append]
    exact SetApart.of_blank gaps.blank_after
  · have hne : gaps.afterNumber.toList ≠ [] :=
      mt String.toList_eq_nil_iff.1 gaps.afterNumber_ne
    rw [String.append_assoc, String.toList_append]
    exact SetApart.of_gap hne gaps.blank_afterNumber

/-- The blanks around a text in writing are cut off again. -/
lemma trimChars_writtenCode {code : String} (hcode : Trimmed code.toList) :
    Text.trimChars (writtenCode gaps code ++ gaps.after).toList = code.toList := by
  unfold writtenCode
  split
  · next hempty =>
    rw [hempty, String.empty_append, Text.trimChars_of_blank gaps.blank_after]
    rfl
  · rw [String.append_assoc, String.toList_append, String.toList_append,
      Text.trimChars_append gaps.blank_afterNumber gaps.blank_after, hcode.trimChars_eq]

lemma isWord_digits (n : Nat) : IsWord (Text.digits n) :=
  Text.isWord_of_readNat? (Text.readNat?_digits n)

/-- Of a number in writing the digits are left, and of what comes after it the trailing blanks are
cut off. -/
lemma trimChars_writtenNumber (n : Nat) (after : String) :
    Text.trimChars (writtenNumber gaps n ++ after).toList =
      Text.digits n ++ Text.trimRight after.toList := by
  rw [writtenNumber, String.append_assoc, String.toList_append, String.toList_append,
    String.toList_ofList, (isWord_digits n).trimChars_append gaps.blank_afterWord]

/-- What follows the word in writing is set apart from it. -/
lemma setApart_arguments : SetApart (c.arguments gaps ++ gaps.after).toList := by
  cases c with
  | seek id => exact setApart_writtenNumber _ _
  | line target => exact setApart_writtenNumber _ _
  | edit target code =>
    rw [arguments, String.append_assoc]
    exact setApart_writtenNumber _ _
  | resume | follow | scope | output | clear | restart | quit =>
    simpa [arguments] using SetApart.of_blank gaps.blank_after

/-- What follows the word in writing stands for the number and the text. -/
lemma reads_arguments (hcode : Trimmed c.code.toList) :
    c.Reads (Text.trimChars (c.arguments gaps ++ gaps.after).toList) := by
  have hafter : Text.trimRight gaps.after.toList = [] :=
    List.rdropWhile_eq_nil_iff.2 gaps.blank_after
  cases c with
  | seek id =>
    rw [arguments, trimChars_writtenNumber, hafter, List.append_nil]
    exact Text.readsBelow_uint64.eq_some_iff.2 (Text.readNat?_digits _)
  | line target =>
    rw [arguments, trimChars_writtenNumber, hafter, List.append_nil]
    exact Text.readsBelow_uint32.eq_some_iff.2 (Text.readNat?_digits _)
  | edit target code =>
    have hcode : Trimmed code.toList := hcode
    have hapart : SetApart (writtenCode gaps code ++ gaps.after).toList := setApart_writtenCode code
    rw [arguments, String.append_assoc, trimChars_writtenNumber, Reads,
      (isWord_digits _).wordAndRest_append hapart.trimRight]
    dsimp only
    rw [hapart.trimLeft_rest, trimChars_writtenCode hcode, String.ofList_toList]
    exact ⟨Text.readsBelow_uint32.eq_some_iff.2 (Text.readNat?_digits _), rfl⟩
  | resume | follow | scope | output | clear | restart | quit => trivial

/-- A command in writing is read as the command. -/
theorem parse_written (hword : word ∈ c.words) (hcode : Trimmed c.code.toList) (gaps : Spacing) :
    parse (c.written word gaps) = .ok (some c) := by
  have hline : (c.written word gaps).toList = gaps.before.toList ++ (word.toList ++
      (c.arguments gaps ++ gaps.after).toList) := by
    simp [written]
  rw [parse_of_word hline gaps.blank_before (isWord_of_mem_words hword) setApart_arguments,
    String.ofList_toList, ofWord_eq_ok_iff.2 ⟨hword, reads_arguments hcode⟩]
  rfl

/-- The text in a command that was read has no blanks at its ends. -/
lemma Reads.trimmed_code (h : c.Reads (Text.trimChars rest)) : Trimmed c.code.toList := by
  cases c with
  | edit target code =>
    obtain ⟨-, rfl⟩ := h
    rw [code, String.toList_ofList]
    exact Text.trimmed_trimLeft_rest rest
  | _ => exact ⟨by simp [code], by simp [code]⟩

end

/-! ## Numbers -/

section

variable {line word argument : String} {c : Command} {n bound : Nat} {z : Int}
  {before w gap cs rest after : List Char}

/-- A line has a text as the argument of a word.  Only blanks come before the word and between the
two.  After the argument there are only blanks, or in an `edit` anything that is set apart. -/
def HasArgument (line word argument : String) : Prop :=
  ∃ before gap after : List Char,
    line.toList = before ++ (word.toList ++ (gap ++ (argument.toList ++ after))) ∧
      (∀ d ∈ before, Text.isBlank d = true) ∧ gap ≠ [] ∧ (∀ d ∈ gap, Text.isBlank d = true) ∧
        ((∀ d ∈ after, Text.isBlank d = true) ∨ word = "edit" ∧ SetApart after)

/-- How many numbers a word may take as its argument, counted from zero. -/
def bound? : String → Option Nat
  | "seek" => some UInt64.size
  | "line" => some UInt32.size
  | "edit" => some UInt32.size
  | _ => none

lemma isWord_of_bound (h : bound? word = some bound) : IsWord word.toList := by
  unfold bound? at h
  split at h
  case h_4 => cases h
  all_goals decide +kernel

/-- What stands for a number after a word is its argument. -/
lemma hasArgument_of_split (hline : line.toList = before ++ (w ++ rest))
    (hbefore : ∀ d ∈ before, Text.isBlank d = true) (hrest : SetApart rest)
    (hsplit : rest = gap ++ (cs ++ after)) (hgap : ∀ d ∈ gap, Text.isBlank d = true)
    (hafter : (∀ d ∈ after, Text.isBlank d = true) ∨ String.ofList w = "edit" ∧ SetApart after)
    (hread : Text.readNat? cs = some n) :
    HasArgument line (String.ofList w) (String.ofList cs) ∧
      Text.readInt? (String.ofList cs).toList = some (n : Int) := by
  rw [hsplit] at hrest
  refine ⟨⟨before, gap, after, ?_, hbefore, hrest.gap_ne_nil (Text.isWord_of_readNat? hread), hgap,
    hafter⟩, ?_⟩
  · rw [hline, hsplit, String.toList_ofList, String.toList_ofList]
  · rw [String.toList_ofList, Text.readInt?_of_readNat? hread]

/-- The number in a command that was read is the one that the line says. -/
theorem exists_argument (h : parse line = .ok (some c)) (hn : c.number? = some n) :
    ∃ word ∈ c.words, ∃ argument, HasArgument line word argument ∧
      Text.readInt? argument.toList = some (n : Int) := by
  obtain ⟨before, w, rest, hline, hbefore, hrest, hword, hreads⟩ := exists_of_parse h
  obtain ⟨gap, tail, hgap, htail, hsplit⟩ := Text.exists_trimChars rest
  refine ⟨_, hword, ?_⟩
  cases c with
  | seek id =>
    obtain rfl : id.toNat = n := Option.some.inj hn
    exact ⟨_, hasArgument_of_split hline hbefore hrest hsplit hgap (.inl htail)
      (Text.readsBelow_uint64.eq_some_iff.1 hreads)⟩
  | line target =>
    obtain rfl : target.toNat = n := Option.some.inj hn
    exact ⟨_, hasArgument_of_split hline hbefore hrest hsplit hgap (.inl htail)
      (Text.readsBelow_uint32.eq_some_iff.1 hreads)⟩
  | edit target code =>
    obtain rfl : target.toNat = n := Option.some.inj hn
    have hafter := (Text.setApart_dropWhile (Text.trimChars rest)).append htail
    rw [← List.takeWhile_append_dropWhile (p := fun d => !Text.isBlank d)
      (l := Text.trimChars rest), List.append_assoc] at hsplit
    exact ⟨_, hasArgument_of_split hline hbefore hrest hsplit hgap
      (.inr ⟨List.mem_singleton.1 hword, hafter⟩) (Text.readsBelow_uint32.eq_some_iff.1 hreads.1)⟩
  | resume | follow | scope | output | clear | restart | quit => cases hn

/-- The text that a word takes as its argument, of what follows it without the blanks at the ends:
all of it, or in an `edit` its first word. -/
def argumentOf (word : String) (rest : List Char) : List Char :=
  if word = "edit" then (Text.wordAndRest rest).1 else rest

/-- The argument of a word is found whatever blanks stand around it. -/
lemma argumentOf_trimChars (hcs : IsWord cs) (hgap : ∀ d ∈ gap, Text.isBlank d = true)
    (hafter : (∀ d ∈ after, Text.isBlank d = true) ∨ word = "edit" ∧ SetApart after) :
    argumentOf word (Text.trimChars (gap ++ (cs ++ after))) = cs := by
  unfold argumentOf
  split
  · have hapart : SetApart after := hafter.elim SetApart.of_blank And.right
    rw [hcs.trimChars_append hgap, hcs.wordAndRest_append hapart.trimRight]
  · next hword =>
    exact hcs.trimChars_surrounded hgap (hafter.resolve_right fun h => hword h.1)

/-- A number out of range is not read. -/
lemma ofWord_eq_error (hbound : bound? word = some bound)
    (hz : Text.readInt? (argumentOf word rest) = some z) (hout : ¬(0 ≤ z ∧ z < bound)) :
    ofWord word rest = .error (.invalidNumber (String.ofList (argumentOf word rest))) := by
  have hne : argumentOf word rest ≠ [] := (Text.isWord_of_readInt? hz).1
  unfold bound? at hbound
  split at hbound
  · obtain rfl := Option.some.inj hbound
    exact map_number_eq_error hne (Text.readsBelow_uint64.eq_none hz hout)
  · obtain rfl := Option.some.inj hbound
    exact map_number_eq_error hne (Text.readsBelow_uint32.eq_none hz hout)
  · obtain rfl := Option.some.inj hbound
    exact map_number_eq_error hne (Text.readsBelow_uint32.eq_none hz hout)
  · cases hbound

/-- A line that says a number out of range is a mistake, and the mistake names what it says. -/
theorem parse_eq_invalidNumber (h : HasArgument line word argument)
    (hbound : bound? word = some bound) (hz : Text.readInt? argument.toList = some z)
    (hout : ¬(0 ≤ z ∧ z < bound)) : parse line = .error (.invalidNumber argument) := by
  obtain ⟨before, gap, after, hline, hbefore, hne, hgap, hafter⟩ := h
  have hword : IsWord word.toList := isWord_of_bound hbound
  have hargument := argumentOf_trimChars (Text.isWord_of_readInt? hz) hgap hafter
  rw [← hargument] at hz
  rw [parse_of_word hline hbefore hword (SetApart.of_gap hne hgap), String.ofList_toList,
    ofWord_eq_error hbound hz hout, hargument, String.ofList_toList]
  rfl

end

/-- Reading inverts writing.  A command is read from its words in writing, with any blanks between
the parts and around them, if its text has no blanks at the ends.  Of any line: nothing is read if
and only if it is blank; the text of an `edit` that is read has no blanks at its ends; a command
that is read can be written in any way and read again; its number is the whole number that the line
has as the argument of the word; and a line that has a whole number out of range as the argument of
a word is a mistake, which names the number as it stands there. -/
theorem reading_inverts_writing :
    (∀ (c : Command) (word : String) (gaps : Spacing), word ∈ c.words → Trimmed c.code.toList →
      parse (c.written word gaps) = .ok (some c)) ∧
    ∀ line : String,
      (parse line = .ok none ↔ AllBlank line) ∧
      (∀ (target : SourceLine) (code : String),
        parse line = .ok (some (.edit target code)) → Trimmed code.toList) ∧
      (∀ c, parse line = .ok (some c) → ∀ (word : String) (gaps : Spacing), word ∈ c.words →
        parse (c.written word gaps) = .ok (some c)) ∧
      (∀ c n, parse line = .ok (some c) → c.number? = some n →
        ∃ word ∈ c.words, ∃ argument, HasArgument line word argument ∧
          Text.readInt? argument.toList = some (n : Int)) ∧
      ∀ (word argument : String) (bound : Nat) (z : Int), HasArgument line word argument →
        bound? word = some bound → Text.readInt? argument.toList = some z →
          ¬(0 ≤ z ∧ z < bound) → parse line = .error (.invalidNumber argument) := by
  have htrimmed {line : String} {c : Command} (h : parse line = .ok (some c)) :
      Trimmed c.code.toList := by
    obtain ⟨before, w, rest, -, -, -, -, hreads⟩ := exists_of_parse h
    exact hreads.trimmed_code
  refine ⟨fun c word gaps hword hcode => parse_written hword hcode gaps, fun line => ⟨
    parse_eq_none_iff, fun target code h => htrimmed h,
    fun c h word gaps hword => parse_written hword (htrimmed h) gaps,
    fun c n h hn => exists_argument h hn,
    fun word argument bound z h hbound hz hout => parse_eq_invalidNumber h hbound hz hout⟩⟩

/-- A text that looks like another command is the text of an `edit` all the same, between blanks of
several kinds; and the first number that has more than 64 bits is a mistake. -/
theorem reading_inverts_writing_between_blanks :
    parse "\u3000edit\t4294967295\u00a0seek 1  = 2\n" =
        .ok (some (.edit 4294967295 "seek 1  = 2")) ∧
      parse " seek  18446744073709551616" = .error (.invalidNumber "18446744073709551616") := by
  obtain ⟨hwritten, hread⟩ := reading_inverts_writing
  let gaps : Spacing := ⟨"\u3000", "\t", "\u00a0", "\n", by decide +kernel, by decide +kernel,
    by decide +kernel, by decide +kernel, by decide, by decide⟩
  have hedit : (Command.edit 4294967295 "seek 1  = 2").written "edit" gaps =
      "\u3000edit\t4294967295\u00a0seek 1  = 2\n" := by decide +kernel
  have hone : AllBlank " " := by decide +kernel
  have htwo : AllBlank "  " := by decide +kernel
  have hseek : HasArgument " seek  18446744073709551616" "seek" "18446744073709551616" :=
    ⟨" ".toList, "  ".toList, [], by decide +kernel, hone, by decide +kernel, htwo,
      .inl (List.forall_mem_nil _)⟩
  refine ⟨?_, (hread _).2.2.2.2 "seek" _ _ 18446744073709551616 hseek rfl (by decide +kernel)
    (by decide)⟩
  rw [← hedit]
  exact hwritten _ _ gaps (by decide) (by decide +kernel)

end Command

end TraceTimeline
