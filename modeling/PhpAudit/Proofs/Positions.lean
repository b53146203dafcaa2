/-
This file proves that reported positions are exact. A line is one plus the number of newline bytes in
front of an offset, a column one plus the number of characters since the last newline, and both together
increase along the text. An issue about a range of the text gets a line that exists, and it does not end
before it starts.

Offsets count bytes and columns count characters. No byte of a character of several bytes is a newline,
so lines may be counted in either. At the end of a character both ways to measure a prefix of the text
agree; inside of a character only lines are exact.
-/

import Mathlib.Data.List.TakeWhile
import Mathlib.Order.Nat
import PhpAudit.Issue

namespace PhpAudit.Text

/-! ### Bytes -/

/-- The UTF-8 bytes of a text, in order. -/
def bytes (text : String) : List UInt8 :=
  text.toUTF8.data.toList

def newline : UInt8 := 10

/-- The number of newlines among the bytes before `offset`. -/
def newlinesBefore (text : String) (offset : Nat) : Nat :=
  ((bytes text).take offset).count newline

/-- The UTF-8 bytes of a row of characters. -/
abbrev utf8 (chars : List Char) : List UInt8 :=
  chars.flatMap String.utf8EncodeChar

theorem bytes_eq (text : String) : bytes text = utf8 text.toList := by
  have ofList (chars : List Char) : bytes (String.ofList chars) = utf8 chars := by
    simp [bytes, List.utf8Encode]
  rw [← ofList, String.ofList_toList]

theorem length_utf8 (chars : List Char) : (utf8 chars).length = byteLength chars := by
  induction chars with
  | nil => rfl
  | cons char rest inductionHypothesis =>
    rw [utf8, List.flatMap_cons, List.length_append, String.length_utf8EncodeChar, byteLength]
    exact congrArg _ inductionHypothesis

theorem byteLength_toList (text : String) : byteLength text.toList = text.utf8ByteSize := by
  rw [← length_utf8, ← bytes_eq]
  rfl

theorem byteLength_append (first second : List Char) :
    byteLength (first ++ second) = byteLength first + byteLength second := by
  rw [← length_utf8, utf8, List.flatMap_append, List.length_append, length_utf8, length_utf8]

theorem newline_eq_ofNat {value : Nat} : newline = UInt8.ofNat value ↔ value % 256 = 10 := by
  rw [← UInt8.toNat_inj, UInt8.toNat_ofNat', eq_comm]
  rfl

theorem newline_mem_utf8EncodeChar {char : Char} :
    newline ∈ String.utf8EncodeChar char ↔ char = '\n' := by
  have code : char = '\n' ↔ char.val.toNat = 10 := by
    rw [← Char.val_inj, ← UInt32.toNat_inj]
    rfl
  rw [code, String.utf8EncodeChar]
  -- all bytes of a longer form are at least 128
  split_ifs
  all_goals
    simp only [List.mem_cons, List.not_mem_nil, or_false, newline_eq_ofNat]
    omega

theorem count_utf8EncodeChar (char : Char) :
    (String.utf8EncodeChar char).count newline = if char = '\n' then 1 else 0 := by
  split
  · next same =>
    rw [same]
    decide
  · next other => exact List.count_eq_zero.mpr (newline_mem_utf8EncodeChar.not.mpr other)

theorem count_utf8 (chars : List Char) : (utf8 chars).count newline = chars.count '\n' := by
  induction chars with
  | nil => rfl
  | cons char rest inductionHypothesis =>
    rw [utf8, List.flatMap_cons, List.count_append, count_utf8EncodeChar, List.count_cons,
      inductionHypothesis, Nat.add_comm]
    simp

/-! ### Starts of lines -/

/-- Behind a character starts a line if the character is a newline. -/
theorem startsAfterNewline_cons (base : Nat) (char : Char) (rest : List Char) :
    startsAfterNewline base (char :: rest) =
      (if char = '\n' then [base + 1] else []) ++
        startsAfterNewline (base + char.utf8Size) rest := by
  rw [startsAfterNewline]
  by_cases same : char = '\n'
  · subst same
    rfl
  · simp [same]

theorem startsAfterNewline_append (base : Nat) (first second : List Char) :
    startsAfterNewline base (first ++ second) =
      startsAfterNewline base first ++ startsAfterNewline (base + byteLength first) second := by
  induction first generalizing base with
  | nil => rfl
  | cons char rest inductionHypothesis =>
    rw [List.cons_append, startsAfterNewline_cons, startsAfterNewline_cons, inductionHypothesis,
      byteLength, List.append_assoc, Nat.add_assoc]

theorem bounds_startsAfterNewline {base start : Nat} {chars : List Char}
    (member : start ∈ startsAfterNewline base chars) :
    base < start ∧ start ≤ base + byteLength chars := by
  induction chars generalizing base with
  | nil => cases member
  | cons char rest inductionHypothesis =>
    have positive := char.utf8Size_pos
    rw [byteLength]
    rw [startsAfterNewline_cons, List.mem_append] at member
    rcases member with member | member
    · split at member
      · have := List.mem_singleton.mp member
        omega
      · cases member
    · have := inductionHypothesis member
      omega

theorem length_startsAfterNewline (base : Nat) (chars : List Char) :
    (startsAfterNewline base chars).length = chars.count '\n' := by
  induction chars generalizing base with
  | nil => rfl
  | cons char rest inductionHypothesis =>
    rw [startsAfterNewline_cons, List.length_append, inductionHypothesis, List.count_cons,
      Nat.add_comm]
    by_cases same : char = '\n' <;> simp [same]

theorem sorted_startsAfterNewline (base : Nat) (chars : List Char) :
    (startsAfterNewline base chars).Pairwise (· < ·) := by
  induction chars generalizing base with
  | nil => exact .nil
  | cons char rest inductionHypothesis =>
    rw [startsAfterNewline_cons]
    split
    · refine List.pairwise_cons.mpr ⟨fun start member => ?_, inductionHypothesis _⟩
      have := (bounds_startsAfterNewline member).1
      have := char.utf8Size_pos
      omega
    · exact inductionHypothesis _

/-- A newline is a single byte, so the line behind it starts at an offset or after it. -/
theorem countP_startAfter (base offset : Nat) (char : Char) :
    (if char = '\n' then [base + 1] else []).countP (· ≤ base + offset) =
      ((String.utf8EncodeChar char).take offset).count newline := by
  by_cases same : char = '\n'
  · subst same
    cases offset with
    | zero => simp
    | succ offset => simp [String.utf8EncodeChar, newline]
  · rw [if_neg same, List.countP_nil, eq_comm, List.count_eq_zero]
    exact fun member => same (newline_mem_utf8EncodeChar.mp (List.mem_of_mem_take member))

/-- The starts up to an offset are those behind the newlines among the bytes before it. -/
theorem countP_startsAfterNewline (base offset : Nat) (chars : List Char) :
    (startsAfterNewline base chars).countP (· ≤ base + offset) =
      ((utf8 chars).take offset).count newline := by
  induction chars generalizing base offset with
  | nil => simp [startsAfterNewline]
  | cons char rest inductionHypothesis =>
    have later : (startsAfterNewline (base + char.utf8Size) rest).countP (· ≤ base + offset) =
        ((utf8 rest).take (offset - char.utf8Size)).count newline := by
      rcases Nat.lt_or_ge offset char.utf8Size with inside | beyond
      · rw [Nat.sub_eq_zero_of_le inside.le, List.take_zero, List.count_nil, List.countP_eq_zero]
        intro start member
        have := bounds_startsAfterNewline member
        simp only [decide_eq_true_eq]
        omega
      · rw [← inductionHypothesis, show base + char.utf8Size + (offset - char.utf8Size) =
          base + offset by omega]
    rw [startsAfterNewline_cons, utf8, List.flatMap_cons, List.take_append, List.count_append,
      List.countP_append, String.length_utf8EncodeChar, countP_startAfter, later]

/-- The line of what follows `head` starts right behind it. -/
theorem getD_lineStarts {text : String} {head rest : List Char} (split : text.toList = head ++ rest)
    (ended : head = [] ∨ head.getLast? = some '\n') :
    (lineStarts text).getD (head.count '\n') 0 = byteLength head := by
  rw [lineStarts, split]
  rcases ended with rfl | ended
  · rfl
  · obtain ⟨lines, rfl⟩ := List.getLast?_eq_some_iff.mp ended
    rw [startsAfterNewline_append, startsAfterNewline_append, List.count_append, byteLength_append,
      ← length_startsAfterNewline 0 lines]
    simp [startsAfterNewline, byteLength]

theorem length_splitChars (chars : List Char) :
    (splitChars (· == '\n') chars).length = chars.count '\n' + 1 := by
  induction chars with
  | nil => rfl
  | cons char rest inductionHypothesis =>
    rw [splitChars, List.count_cons]
    split
    · rw [List.length_cons, inductionHypothesis]
    · rw [Nat.add_zero, ← inductionHypothesis]
      split
      · next nothing =>
        rw [nothing] at inductionHypothesis
        cases inductionHypothesis
      · next parts =>
        rw [parts]
        rfl

/-! ### Cuts at boundaries -/

theorem dropBytes?_cons {count : Nat} {char : Char} (rest : List Char)
    (fits : char.utf8Size ≤ count) :
    dropBytes? count (char :: rest) = dropBytes? (count - char.utf8Size) rest := by
  cases count with
  | zero => exact absurd fits (Nat.not_le.mpr char.utf8Size_pos)
  | succ count => rw [dropBytes?, if_pos fits]

theorem takeBytes?_cons {count : Nat} {char : Char} (rest : List Char)
    (fits : char.utf8Size ≤ count) :
    takeBytes? count (char :: rest) =
      (takeBytes? (count - char.utf8Size) rest).map (char :: ·) := by
  cases count with
  | zero => exact absurd fits (Nat.not_le.mpr char.utf8Size_pos)
  | succ count => rw [takeBytes?, if_pos fits]

theorem dropBytes?_append (first second : List Char) :
    dropBytes? (byteLength first) (first ++ second) = some second := by
  induction first with
  | nil => rw [byteLength, List.nil_append, dropBytes?]
  | cons char rest inductionHypothesis =>
    rw [byteLength, List.cons_append, dropBytes?_cons _ (Nat.le_add_right _ _),
      Nat.add_sub_cancel_left, inductionHypothesis]

theorem takeBytes?_append (first second : List Char) :
    takeBytes? (byteLength first) (first ++ second) = some first := by
  induction first with
  | nil => rw [byteLength, takeBytes?]
  | cons char rest inductionHypothesis =>
    rw [byteLength, List.cons_append, takeBytes?_cons _ (Nat.le_add_right _ _),
      Nat.add_sub_cancel_left, inductionHypothesis, Option.map_some]

theorem charsBetween?_append (head middle tail : List Char) :
    charsBetween? (head ++ middle ++ tail) (byteLength head) (byteLength (head ++ middle)) =
      some middle := by
  rw [charsBetween?, byteLength_append, if_pos (Nat.le_add_right _ _), List.append_assoc,
    dropBytes?_append, Option.bind_some, Nat.add_sub_cancel_left, takeBytes?_append]

/-! ### The last line of a prefix -/

/-- The characters between the start of the line in which `before` ends and that end. -/
def sinceNewline (before : String) : List Char :=
  (before.toList.reverse.takeWhile (· != '\n')).reverse

theorem exists_line (before : String) :
    ∃ head, before.toList = head ++ sinceNewline before ∧
      (head = [] ∨ head.getLast? = some '\n') ∧ head.count '\n' = before.toList.count '\n' := by
  let backwards := before.toList.reverse
  have parts : before.toList =
      (backwards.dropWhile (· != '\n')).reverse ++ sinceNewline before := by
    rw [sinceNewline, ← List.reverse_append, List.takeWhile_append_dropWhile, List.reverse_reverse]
  refine ⟨(backwards.dropWhile (· != '\n')).reverse, parts, ?_, ?_⟩
  · rw [List.getLast?_reverse, List.reverse_eq_nil_iff]
    cases dropped : backwards.dropWhile (· != '\n') with
    | nil => exact .inl rfl
    | cons char rest =>
      have stopped := List.head?_dropWhile_not (· != '\n') backwards
      rw [dropped] at stopped
      exact .inr (by simpa using stopped)
  · have free : (sinceNewline before).count '\n' = 0 := by
      rw [sinceNewline, List.count_reverse, List.count_eq_zero]
      intro member
      simpa using List.mem_takeWhile_imp member
    conv_rhs => rw [parts, List.count_append, free]
    rfl

theorem sinceNewline_append {before middle : String} (same : '\n' ∉ middle.toList) :
    sinceNewline (before ++ middle) = sinceNewline before ++ middle.toList := by
  rw [sinceNewline, String.toList_append, List.reverse_append, List.takeWhile_append_of_pos,
    List.reverse_append, List.reverse_reverse, sinceNewline]
  intro char member
  rw [List.mem_reverse] at member
  have other : char ≠ '\n' := ne_of_mem_of_not_mem member same
  simpa using other

/-! ### Binary search -/

/--
What is read off a binary search among increasing values: one more than the place at which the wanted
value was found, or the place at which it would have to be inserted.
-/
inductive Sought (values : List Nat) (wanted : Nat) : Nat → Prop where
  | found {place : Nat} (stands : values[place]? = some wanted) : Sought values wanted (place + 1)
  | missing {place : Nat} (within : place ≤ values.length)
    (below : ∀ value ∈ values.take place, value < wanted)
    (above : ∀ value ∈ values.drop place, wanted < value) : Sought values wanted place

theorem countP_of_split {values : List Nat} {wanted place : Nat} (within : place ≤ values.length)
    (below : ∀ value ∈ values.take place, value ≤ wanted)
    (above : ∀ value ∈ values.drop place, wanted < value) :
    values.countP (· ≤ wanted) = place := by
  conv_lhs => rw [← List.take_append_drop place values]
  rw [List.countP_append, List.countP_eq_length.mpr (by simpa using below),
    List.countP_eq_zero.mpr (by simpa using above), List.length_take, Nat.min_eq_left within,
    Nat.add_zero]

namespace Sought

variable {values : List Nat} {wanted place : Nat}

/-- Both outcomes count the values up to the one that is wanted. -/
theorem countP_eq (sought : Sought values wanted place) (sorted : values.Pairwise (· < ·)) :
    values.countP (· ≤ wanted) = place := by
  cases sought with
  | missing within below above =>
    exact countP_of_split within (fun value member => (below value member).le) above
  | @found place stands =>
    obtain ⟨within, equal⟩ := List.getElem?_eq_some_iff.mp stands
    have parts := List.take_append_drop place values
    rw [List.drop_eq_getElem_cons within, equal] at parts
    rw [← parts, List.pairwise_append, List.pairwise_cons] at sorted
    refine countP_of_split within (fun value member => ?_) sorted.2.1.1
    rw [List.take_add_one, stands] at member
    rcases List.mem_append.mp member with member | member
    · exact (sorted.2.2 value member wanted List.mem_cons_self).le
    · exact (List.mem_singleton.mp member).le

/-- A search in a list with a smaller value in front. -/
theorem cons {first : Nat} (sought : Sought values wanted place) (smaller : first < wanted) :
    Sought (first :: values) wanted (place + 1) := by
  cases sought with
  | found stands => exact .found stands
  | missing within below above =>
    refine .missing (Nat.succ_le_succ within) ?_ above
    rw [List.take_succ_cons]
    exact List.forall_mem_cons.mpr ⟨smaller, below⟩

theorem of_sorted (sorted : values.Pairwise (· < ·)) (wanted : Nat) :
    Sought values wanted (values.countP (· ≤ wanted)) := by
  induction values with
  | nil => exact .missing le_rfl nofun nofun
  | cons first rest inductionHypothesis =>
    obtain ⟨larger, sorted⟩ := List.pairwise_cons.mp sorted
    rcases Nat.lt_trichotomy first wanted with smaller | rfl | above
    · rw [List.countP_cons_of_pos (by simpa using smaller.le)]
      exact (inductionHypothesis sorted).cons smaller
    · rw [List.countP_cons_of_pos (by simp), List.countP_eq_zero.mpr (by simpa using larger)]
      exact .found rfl
    · have all : ∀ value ∈ first :: rest, wanted < value :=
        List.forall_mem_cons.mpr ⟨above, fun value member => above.trans (larger value member)⟩
      rw [List.countP_eq_zero.mpr (by simpa using all)]
      exact .missing (Nat.zero_le _) nofun all

end Sought

/-! ### Lines and columns -/

namespace Lines

variable {text : String}

theorem line_eq (offset : Nat) :
    (Lines.of text).line offset = newlinesBefore text offset + 1 := by
  have starts := countP_startsAfterNewline 0 offset text.toList
  rw [Nat.zero_add, ← bytes_eq] at starts
  rw [newlinesBefore, ← starts]
  simp [line, Lines.of, lineStarts]

theorem length_starts : (Lines.of text).starts.length = text.toList.count '\n' + 1 := by
  rw [Lines.of, lineStarts, List.length_cons, length_startsAfterNewline]

theorem length_lengths : (Lines.of text).lengths.length = (Lines.of text).starts.length := by
  rw [length_starts, lengths, List.length_map, splitBy, List.length_map]
  exact length_splitChars text.toList

theorem sorted_starts : (Lines.of text).starts.Pairwise (· < ·) :=
  List.pairwise_cons.mpr ⟨fun _ member => (bounds_startsAfterNewline member).1,
    sorted_startsAfterNewline 0 text.toList⟩

theorem le_of_mem_starts {start : Nat} (member : start ∈ (Lines.of text).starts) :
    start ≤ text.utf8ByteSize := by
  rcases List.mem_cons.mp member with rfl | member
  · exact Nat.zero_le _
  · have bound := (bounds_startsAfterNewline member).2
    rwa [Nat.zero_add, byteLength_toList] at bound

theorem sought_iff {offset place : Nat} :
    Sought (Lines.of text).starts offset place ↔ place = (Lines.of text).line offset := by
  constructor
  · intro sought
    exact (sought.countP_eq sorted_starts).symm
  · rintro rfl
    exact .of_sorted sorted_starts offset

theorem line_pos (offset : Nat) : 1 ≤ (Lines.of text).line offset := by
  rw [line_eq]
  exact Nat.le_add_left 1 _

theorem line_le (offset : Nat) : (Lines.of text).line offset ≤ (Lines.of text).starts.length :=
  List.countP_le_length

theorem column_pos (lines : Lines) (offset : Nat) : 1 ≤ lines.column offset := by
  unfold column
  dsimp only
  split <;> exact Nat.le_add_left 1 _

/-- At a boundary the line may be counted in characters. -/
theorem line_boundary {before after : String} (split : text = before ++ after) :
    (Lines.of text).line before.utf8ByteSize = before.toList.count '\n' + 1 := by
  rw [line_eq, newlinesBefore, split, bytes_eq, String.toList_append, utf8, List.flatMap_append,
    ← byteLength_toList, ← length_utf8, List.take_left, count_utf8]

/-- The column of a boundary is its distance from the start of its line, in characters. -/
theorem column_boundary {before after : String} (split : text = before ++ after) :
    (Lines.of text).column before.utf8ByteSize = (sinceNewline before).length + 1 := by
  obtain ⟨head, parts, ended, lines⟩ := exists_line before
  have whole : text.toList = head ++ sinceNewline before ++ after.toList := by
    rw [split, String.toList_append, parts]
  have start : (Lines.of text).start ((Lines.of text).line before.utf8ByteSize) =
      byteLength head := by
    rw [line_boundary split, start, Nat.add_sub_cancel, ← lines]
    exact getD_lineStarts (whole.trans (List.append_assoc _ _ _)) ended
  have stop : min before.utf8ByteSize text.utf8ByteSize =
      byteLength (head ++ sinceNewline before) := by
    rw [← parts, byteLength_toList, split, String.utf8ByteSize_append]
    exact Nat.min_eq_left (Nat.le_add_right _ _)
  rw [column, start, show (Lines.of text).text = text from rfl, stop, whole, charsBetween?_append]

/-- Lines and columns increase from one boundary to the next. -/
theorem position_lt {before middle after : String} (split : text = before ++ middle ++ after)
    (apart : middle ≠ "") :
    let lines := Lines.of text
    let first := before.utf8ByteSize
    let second := (before ++ middle).utf8ByteSize
    lines.line first < lines.line second ∨
      lines.line first = lines.line second ∧ lines.column first < lines.column second := by
  intro lines first second
  have atFirst : text = before ++ (middle ++ after) := split.trans String.append_assoc
  rw [line_boundary atFirst, line_boundary split, column_boundary atFirst, column_boundary split,
    String.toList_append, List.count_append]
  by_cases crossed : '\n' ∈ middle.toList
  · have := List.count_pos_iff.mpr crossed
    omega
  · have nonempty : middle.toList ≠ [] := fun nothing => apart (String.toList_eq_nil_iff.mp nothing)
    have := List.count_eq_zero.mpr crossed
    have := List.length_pos_iff.mpr nonempty
    rw [sinceNewline_append crossed, List.length_append]
    omega

end Lines

end PhpAudit.Text

namespace PhpAudit

open Text

/-! ### Reports -/

/-- How an issue about a range of a source is placed. -/
structure Source.Places (source : Source) (span : Span) (issue : Issue) : Prop where
  line : issue.line = source.line span.start
  line_pos : 1 ≤ issue.line
  line_le : issue.line ≤ source.text.toList.count '\n' + 1
  start : issue.startChar + 1 = source.lines.column span.start
  /-- A range that stays on its first line ends before the column of its end, or where it starts -/
  stop : source.line span.stop = issue.line →
    issue.endChar + 1 = max (source.lines.column span.stop) (source.lines.column span.start)
  /-- A range of several lines is clipped to the length of the first, which is known -/
  clipped : source.line span.stop ≠ issue.line →
    ∃ length, source.lines.lengths[issue.line - 1]? = some length ∧
      issue.endChar = max length issue.startChar
  ordered : issue.startChar ≤ issue.endChar

namespace Source

section

variable {source : Source} {span : Span} {severity : Severity} {check message : String}

theorem endChar_issueAt_of_same (same : source.line span.stop = source.line span.start) :
    (source.issueAt span severity check message).endChar =
      max (source.lines.column span.stop - 1) (source.lines.column span.start - 1) := by
  simp [issueAt, Issue.locate, same]

theorem endChar_issueAt_of_other (other : source.line span.stop ≠ source.line span.start) :
    (source.issueAt span severity check message).endChar =
      max (source.lines.lengths.getD (source.line span.start - 1) (source.lines.column span.start - 1))
        (source.lines.column span.start - 1) := by
  simp [issueAt, Issue.locate, other]

end

theorem places_issueAt (name text : String) (span : Span) (severity : Severity)
    (check message : String) :
    (Source.of name text).Places span ((Source.of name text).issueAt span severity check message) := by
  let lines := Lines.of text
  have pos : 1 ≤ lines.line span.start := Lines.line_pos span.start
  have le : lines.line span.start ≤ lines.starts.length := Lines.line_le span.start
  have startPos := lines.column_pos span.start
  have stopPos := lines.column_pos span.stop
  constructor
  · rfl
  · exact pos
  · exact le.trans_eq Lines.length_starts
  · exact Nat.sub_add_cancel startPos
  · intro same
    rw [endChar_issueAt_of_same same]
    show max (lines.column span.stop - 1) (lines.column span.start - 1) + 1 =
      max (lines.column span.stop) (lines.column span.start)
    omega
  · intro other
    have known : lines.line span.start - 1 < lines.lengths.length := by
      rw [Lines.length_lengths]
      exact (Nat.sub_lt pos Nat.one_pos).trans_le le
    refine ⟨lines.lengths[lines.line span.start - 1], List.getElem?_eq_getElem known, ?_⟩
    rw [endChar_issueAt_of_other other, List.getD_eq_getElem?_getD]
    show max (lines.lengths[lines.line span.start - 1]?.getD _) _ = _
    rw [List.getElem?_eq_getElem known]
    rfl
  · exact Nat.le_max_right _ _

/--
Positions are exact. In every source of fewer than 2^32 bytes the offsets at which lines start fit into
32 bits; the line of an offset is one plus the number of newline bytes before it, which is what a binary
search among the starts tells whether it finds the offset or not; the column of a boundary between
characters is one plus the number of characters between the start of its line and the boundary; and
lines and columns increase from boundary to boundary. For every range inside of the source, a report
adds an issue whose line exists and whose end is not before its start. No line or column from which one
is taken is zero, and no list is read behind its end.
-/
theorem positions_exact (name text : String) (small : text.utf8ByteSize < UInt32.size) :
    let source := Source.of name text
    (∀ start ∈ source.lines.starts, start < UInt32.size) ∧
      (∀ offset ≤ text.utf8ByteSize,
        source.line offset = newlinesBefore text offset + 1 ∧
          (∀ place, Sought source.lines.starts offset place ↔ place = source.line offset) ∧
          source.line offset ≤ source.lines.starts.length ∧ 1 ≤ source.lines.column offset) ∧
      (∀ before after, text = before ++ after →
        source.lines.column before.utf8ByteSize = (sinceNewline before).length + 1) ∧
      (∀ before middle after, text = before ++ middle ++ after → middle ≠ "" →
        let first := before.utf8ByteSize
        let second := (before ++ middle).utf8ByteSize
        source.line first < source.line second ∨
          source.line first = source.line second ∧
            source.lines.column first < source.lines.column second) ∧
      ∀ (span : Span) (severity : Severity) (check message : String) (report : Report),
        span.start ≤ span.stop → span.stop ≤ text.utf8ByteSize → report.enabled = true →
          ∃ issue, report.add source span severity check message =
              { report with issues := report.issues ++ [issue] } ∧
            source.Places span issue := by
  intro source
  refine ⟨fun start member => (Lines.le_of_mem_starts member).trans_lt small,
    fun offset _ => ⟨Lines.line_eq offset, fun _ => Lines.sought_iff, Lines.line_le offset,
      Lines.column_pos _ offset⟩,
    fun _ _ => Lines.column_boundary, fun _ _ _ => Lines.position_lt, ?_⟩
  intro span severity check message report _ _ enabled
  refine ⟨_, ?_, places_issueAt name text span severity check message⟩
  rw [Report.add, if_pos enabled]

/-- Two lines, the first of which ends in a carriage return, with a character of two bytes. -/
def accented : String :=
  "<?php\r\n$s = 'é'; $x;\n"

/-- The range of `$x` starts behind eleven bytes and ten characters of the second line. -/
theorem positions_exact_accented :
    accented.utf8ByteSize < UInt32.size ∧ (Source.of "a.php" accented).line 18 = 2 ∧
      (Source.of "a.php" accented).lines.column 18 = 11 ∧
      ∃ issue, ({ enabled := true } : Report).add (Source.of "a.php" accented) ⟨18, 20⟩ .error
          "undefined" "Undefined variable: $x" = { enabled := true, issues := [issue] } ∧
        (Source.of "a.php" accented).Places ⟨18, 20⟩ issue := by
  have small : accented.utf8ByteSize < UInt32.size := by decide
  obtain ⟨_, lines, columns, _, reports⟩ := positions_exact "a.php" accented small
  exact ⟨small, (lines 18 (by decide)).1.trans (by decide +kernel),
    columns "<?php\r\n$s = 'é'; " "$x;\n" (by decide), reports ⟨18, 20⟩ .error "undefined"
      "Undefined variable: $x" { enabled := true } (by decide) (by decide) rfl⟩

end Source

end PhpAudit
