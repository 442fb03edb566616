import Telemetry.Proofs.Tallies

/-!
# An exposition can be read back

Names are written as they are and are made of lower-case letters and
underscores. Values may hold anything, also the marks that stand between labels.
They cannot be mistaken for these marks: a quote inside a value follows a
backslash, and a backslash is followed by one that belongs to it. So a reader
that goes through a line once, from left to right, finds the name of the series,
its labels and its count again.

From this it follows that two series never have the same text, and that no value
forges a label or a line.
-/
namespace Telemetry.Metering

/-- The characters of names. -/
def isNameChar (c : Char) : Bool := c.isLower || c = '_'

/-- A name of lower-case letters and underscores. -/
def Plain (name : String) : Prop := ∀ c ∈ name.toList, isNameChar c = true

/-- Labels with such names, and with any values. -/
def Key.Plain (key : Key) : Prop := ∀ label ∈ key, Metering.Plain label.1

instance (name : String) : Decidable (Plain name) :=
  List.decidableBAll (fun c => isNameChar c = true) name.toList

instance (key : Key) : Decidable key.Plain :=
  inferInstanceAs (Decidable (∀ label ∈ key, Plain label.1))

/-- Sorting labels leaves their names plain, since it brings no new label in. -/
theorem Key.plain_ofLabels {labels : List Label} (plain : Key.Plain labels) :
    Key.Plain (Key.ofLabels labels) := fun label member =>
  plain label (List.mem_mergeSort.mp member)

section Readers

/-- The character that stands behind a backslash. -/
def unescape (c : Char) : Char := if c = 'n' then '\n' else c

mutual

/-- Read labels up to the brace that closes them. Of the first label's name some
characters have been read. -/
def readLabels (name : List Char) : List Char → Option (Key × List Char)
  | [] => none
  | '=' :: '"' :: rest => readValue name [] rest
  | c :: rest => if isNameChar c then readLabels (name ++ [c]) rest else none

/-- Read labels from inside the first one's value, of which some characters have
been read. -/
def readValue (name value : List Char) : List Char → Option (Key × List Char)
  | [] => none
  | '"' :: '\x7d' :: rest => some ([(String.ofList name, String.ofList value)], rest)
  | '"' :: ',' :: rest =>
    (readLabels [] rest).map fun (key, after) =>
      ((String.ofList name, String.ofList value) :: key, after)
  | '"' :: _ => none
  | '\\' :: c :: rest => readValue name (value ++ [unescape c]) rest
  | c :: rest => readValue name (value ++ [c]) rest

end

/-- Read a series, and what follows it. -/
def readSeries (text : List Char) : Option (String × Key × List Char) :=
  let name := String.ofList (text.takeWhile isNameChar)
  match text.dropWhile isNameChar with
  | '\x7b' :: rest => (readLabels [] rest).map fun (key, after) => (name, key, after)
  | rest => some (name, [], rest)

/-- Read a count to the end of the line. -/
def readCount (digits : List Char) : Option Nat :=
  if digits ≠ [] ∧ digits.all Char.isDigit then some (Nat.ofDigitChars 10 digits 0) else none

/-- Read the row of a series with its count. -/
def readRow (row : String) : Option (String × Key × Nat) :=
  match readSeries row.toList with
  | some (name, key, ' ' :: digits) => (readCount digits).map fun count => (name, key, count)
  | _ => none

end Readers

section Escaping

/-- Write a character everywhere in another way. -/
def substitute (c : Char) (written : List Char) (text : List Char) : List Char :=
  text.flatMap fun other => if other = c then written else [other]

/-- A character is written as it is, unless it is one of the three that are
escaped. -/
theorem Label.escapeChar_of_ordinary {c : Char} (backslash : c ≠ '\\') (quote : c ≠ '"')
    (feed : c ≠ '\n') : Label.escapeChar c = [c] := by
  rw [Label.escapeChar, if_neg backslash, if_neg quote, if_neg feed]

/-- A value is escaped by three substitutions in the whole text, first of the
backslashes. In any other order the backslashes written for quotes would be
escaped again. -/
theorem Label.toList_escape (value : String) :
    (Label.escape value).toList =
      substitute '\n' ['\\', 'n'] (substitute '"' ['\\', '"']
        (substitute '\\' ['\\', '\\'] value.toList)) := by
  simp only [Label.escape, substitute, String.toList_ofList, List.flatMap_assoc]
  congr 1
  funext c
  by_cases backslash : c = '\\'
  · subst backslash; rfl
  by_cases quote : c = '"'
  · subst quote; rfl
  by_cases feed : c = '\n'
  · subst feed; rfl
  · simp [Label.escapeChar_of_ordinary backslash quote feed, backslash, quote, feed]

/-- An escaped value is read back up to the quote behind it. Inside it every
quote follows a backslash, which the reader takes together with what it stands
for. -/
theorem readValue_escaped (name soFar value rest : List Char) :
    readValue name soFar (value.flatMap Label.escapeChar ++ '"' :: rest) =
      readValue name (soFar ++ value) ('"' :: rest) := by
  induction value generalizing soFar with
  | nil => rw [List.append_nil]; rfl
  | cons c value inductionHypothesis =>
    have later := inductionHypothesis (soFar ++ [c])
    rw [List.append_assoc, List.singleton_append] at later
    rw [← later, List.flatMap_cons, List.append_assoc]
    by_cases backslash : c = '\\'
    · subst backslash; rfl
    by_cases quote : c = '"'
    · subst quote; rfl
    by_cases feed : c = '\n'
    · subst feed; rfl
    · rw [Label.escapeChar_of_ordinary backslash quote feed, List.singleton_append, readValue]
      all_goals simp [backslash, quote]

end Escaping

section Series

/-- A plain name is read up to the mark that ends it, as none of its characters
is a mark. -/
theorem readLabels_name {name : List Char} (plain : ∀ c ∈ name, isNameChar c = true)
    (soFar rest : List Char) :
    readLabels soFar (name ++ '=' :: '"' :: rest) = readValue (soFar ++ name) [] rest := by
  induction name generalizing soFar with
  | nil => rw [List.append_nil]; rfl
  | cons c name inductionHypothesis =>
    obtain ⟨first, others⟩ := List.forall_mem_cons.mp plain
    have inName : c ≠ '=' := by
      rintro rfl
      exact absurd first (by decide)
    rw [List.cons_append, readLabels, if_pos first, inductionHypothesis others,
      List.append_assoc, List.singleton_append]
    exact fun _ equals _ => inName equals

/-- The text of a label, up to the quote that ends it. The name and the value
are then known, and what follows the quote tells whether there are more
labels. -/
theorem readLabels_label {label : Label} (plain : Plain label.1) (rest : List Char) :
    readLabels [] (label.text.toList ++ rest) =
      readValue label.1.toList label.2.toList ('"' :: rest) := by
  have text : label.text.toList ++ rest =
      label.1.toList ++ '=' :: '"' :: (label.2.toList.flatMap Label.escapeChar ++ '"' :: rest) := by
    simp [Label.text, Label.escape, String.toList_append]
  rw [text, readLabels_name plain, readValue_escaped]
  rfl

/-- One label is written without a comma. -/
theorem toList_text_singleton (label : Label) : (Key.text [label]).toList = label.text.toList := by
  simp [Key.text]

/-- Between two labels stands one comma. -/
theorem toList_text_cons_cons (label next : Label) (later : Key) :
    (Key.text (label :: next :: later)).toList =
      label.text.toList ++ ',' :: (Key.text (next :: later)).toList := by
  simp [Key.text, String.toList_intercalate]

/-- Labels are found again, whatever follows their brace. The induction is along
the labels, and what one leaves to be read is the text of the others. -/
theorem readLabels_text {key : Key} (labelled : key ≠ []) (plain : key.Plain)
    (rest : List Char) :
    readLabels [] (key.text.toList ++ '\x7d' :: rest) = some (key, rest) := by
  induction key with
  | nil => exact absurd rfl labelled
  | cons label others inductionHypothesis =>
    obtain ⟨first, plainOthers⟩ := List.forall_mem_cons.mp plain
    cases others with
    | nil =>
      rw [toList_text_singleton, readLabels_label first, readValue, String.ofList_toList,
        String.ofList_toList]
    | cons next later =>
      rw [toList_text_cons_cons, List.append_assoc, readLabels_label first, List.cons_append,
        readValue, inductionHypothesis (List.cons_ne_nil _ _) plainOthers, String.ofList_toList,
        String.ofList_toList]
      rfl

/-- A plain name ends where the first mark stands, so both parts of the text are
known. -/
theorem span_name {name : List Char} (plain : ∀ c ∈ name, isNameChar c = true) (mark : Char)
    (marked : isNameChar mark = false) (rest : List Char) :
    (name ++ mark :: rest).takeWhile isNameChar = name ∧
      (name ++ mark :: rest).dropWhile isNameChar = mark :: rest := by
  rw [List.takeWhile_append_of_pos plain, List.dropWhile_append_of_pos plain]
  simp [marked]

/-- A series is found again, whatever follows the blank behind it. A blank and a
brace are no characters of names, hence either of them ends the name of the
series. -/
theorem readSeries_series {name : String} {key : Key} (plainName : Plain name)
    (plain : key.Plain) (rest : List Char) :
    readSeries ((key.series name).toList ++ ' ' :: rest) = some (name, key, ' ' :: rest) := by
  cases key with
  | nil =>
    obtain ⟨taken, left⟩ := span_name plainName ' ' (by decide) rest
    have text : Key.series name [] = name := rfl
    simp only [readSeries, text, taken, left, String.ofList_toList]
    rfl
  | cons label others =>
    have text : (Key.series name (label :: others)).toList ++ ' ' :: rest =
        name.toList ++
          '\x7b' :: ((Key.text (label :: others)).toList ++ '\x7d' :: ' ' :: rest) := by
      simp [Key.series, String.toList_append]
    obtain ⟨taken, left⟩ := span_name plainName '\x7b' (by decide)
      ((Key.text (label :: others)).toList ++ '\x7d' :: ' ' :: rest)
    have labels := readLabels_text (List.cons_ne_nil label others) plain (' ' :: rest)
    simp only [readSeries, text, taken, left, labels, String.ofList_toList, Option.map_some]

/-- A line that begins with a series and a blank belongs to no other series:
reading the line gives back both, and it can be read in one way only. -/
theorem series_eq_of_prefix {name other : String} {key otherKey : Key} (plainName : Plain name)
    (plain : key.Plain) (plainOther : Plain other) (otherPlain : otherKey.Plain) {rest : List Char}
    (begins : (otherKey.series other).toList ++ [' '] <+: (key.series name).toList ++ ' ' :: rest) :
    other = name ∧ otherKey = key := by
  obtain ⟨behind, same⟩ := begins
  have first := readSeries_series plainOther otherPlain behind
  rw [List.append_assoc, List.singleton_append] at same
  rw [same, readSeries_series plainName plain] at first
  simp only [Option.some.injEq, Prod.mk.injEq] at first
  exact ⟨first.1.symm, first.2.1.symm⟩

/-- There is no line feed in a plain name. -/
theorem newline_not_mem_name {name : String} (plain : Plain name) : '\n' ∉ name.toList :=
  fun member => absurd (plain _ member) (by decide)

/-- There is none in an escaped value, in which it is written with a
backslash. -/
theorem newline_not_mem_escaped (value : List Char) : '\n' ∉ value.flatMap Label.escapeChar := by
  rw [List.mem_flatMap]
  rintro ⟨c, -, written⟩
  by_cases backslash : c = '\\'
  · subst backslash; exact absurd written (by decide)
  by_cases quote : c = '"'
  · subst quote; exact absurd written (by decide)
  by_cases feed : c = '\n'
  · subst feed; exact absurd written (by decide)
  · rw [Label.escapeChar_of_ordinary backslash quote feed] at written
    exact feed (List.mem_singleton.mp written).symm

/-- So there is none in the text of a label with a plain name. -/
theorem newline_not_mem_label {label : Label} (plain : Plain label.1) :
    '\n' ∉ label.text.toList := by
  have inName := newline_not_mem_name plain
  have inValue := newline_not_mem_escaped label.2.toList
  simp [Label.text, Label.escape, String.toList_append, inName, inValue]

/-- Nor is there one in the text of several, which adds commas only. -/
theorem newline_not_mem_text {key : Key} (plain : key.Plain) : '\n' ∉ key.text.toList := by
  induction key with
  | nil => simp [Key.text]
  | cons label others inductionHypothesis =>
    obtain ⟨first, plainOthers⟩ := List.forall_mem_cons.mp plain
    have inLabel := newline_not_mem_label first
    cases others with
    | nil => rwa [toList_text_singleton]
    | cons next later =>
      have inOthers := inductionHypothesis plainOthers
      simp [toList_text_cons_cons, inLabel, inOthers]

/-- No line feed gets into a series, whatever the values of its labels. So a row
stays one line. -/
theorem newline_not_mem_series {name : String} {key : Key} (plainName : Plain name)
    (plain : key.Plain) : '\n' ∉ (key.series name).toList := by
  have inName := newline_not_mem_name plainName
  have inKey := newline_not_mem_text plain
  unfold Key.series
  split
  · exact inName
  · simp [String.toList_append, inName, inKey]

end Series

section Lines

/-- A row that is one line: no line feed breaks it, and no carriage return gets
lost at its end. -/
structure OneLine (row : String) : Prop where
  unbroken : '\n' ∉ row.toList
  closed : row.toList.getLast? ≠ some '\r'

/-- A text is taken apart behind a line that no line feed breaks. The condition
on its end keeps a carriage return from being counted to the line end. -/
theorem splitLines_append {line : List Char} (unbroken : '\n' ∉ line)
    (closed : line.getLast? ≠ some '\r') (rest : List Char) :
    splitLines (line ++ '\n' :: rest) = line :: splitLines rest := by
  induction line with
  | nil => simp [splitLines]
  | cons c line inductionHypothesis =>
    obtain ⟨first, others⟩ := not_or.mp (mt List.mem_cons.mpr unbroken)
    have later : splitLines (line ++ '\n' :: rest) = line :: splitLines rest := by
      refine inductionHypothesis others ?_
      cases line with
      | nil => simp
      | cons next line => simpa using closed
    rw [List.cons_append, splitLines, later]
    · exact fun feed => first feed.symm
    · -- A line feed directly behind `c` is the one that ends the line.
      rintro after rfl follows
      cases line with
      | nil => exact closed rfl
      | cons next line =>
        obtain ⟨rfl, -⟩ := List.cons.inj follows
        exact others List.mem_cons_self

/-- A row that is one line is taken apart into itself. -/
theorem rowLines_of_oneLine {row : String} (oneLine : OneLine row) : rowLines row = [row] := by
  rw [rowLines, splitLines_append oneLine.unbroken oneLine.closed]
  simp [splitLines]

/-- Rows that are one line each stay what they are when they are taken apart
into lines. -/
theorem flatMap_rowLines {rows : List String} (oneLine : ∀ row ∈ rows, OneLine row) :
    rows.flatMap rowLines = rows := by
  induction rows with
  | nil => rfl
  | cons row rest inductionHypothesis =>
    obtain ⟨first, others⟩ := List.forall_mem_cons.mp oneLine
    rw [List.flatMap_cons, rowLines_of_oneLine first, inductionHypothesis others]
    rfl

/-- Where no line is a header, all lines stand in front of the first one. -/
theorem sections_of_not_header {lines : List String}
    (body : ∀ line ∈ lines, isHeader line = false) :
    sections lines = (lines, []) := by
  induction lines with
  | nil => rfl
  | cons line rest inductionHypothesis =>
    obtain ⟨first, others⟩ := List.forall_mem_cons.mp body
    simp [sections, inductionHypothesis others, first]

/-- Lines that come in blocks of one height are grouped by these blocks, because
each group takes just as many lines as a block has. -/
theorem groups_flatten {height : Nat} (positive : 0 < height) {blocks : List (List String)}
    (even : ∀ block ∈ blocks, block.length = height) : groups height blocks.flatten = blocks := by
  induction blocks with
  | nil => simp [groups]
  | cons block rest inductionHypothesis =>
    obtain ⟨first, others⟩ := List.forall_mem_cons.mp even
    cases block with
    | nil => exact absurd first.symm (Nat.ne_of_gt positive)
    | cons line tail =>
      have behind : tail.length = height - 1 := by
        rw [← first, List.length_cons, Nat.add_sub_cancel]
      rw [List.flatten_cons, List.cons_append, groups, List.take_left' behind,
        List.drop_left' behind, inductionHypothesis others]

/-- A family whose series have one height is shown as its header and the blocks
of its series, in some order. Sorting moves whole blocks, since the lines are
grouped before. -/
theorem Family.lines_blocks {α : Type} (family : Family α) {name type : String} {height : Nat}
    (positive : 0 < height) (series : Key → α → List String) (head : OneLine (header name type))
    (even : ∀ entry ∈ family.entries, (series entry.1 entry.2).length = height)
    (oneLine : ∀ entry ∈ family.entries, ∀ row ∈ series entry.1 entry.2, OneLine row)
    (body : ∀ entry ∈ family.entries, ∀ row ∈ series entry.1 entry.2, isHeader row = false) :
    ∃ blocks : List (List String),
      blocks.Perm (family.entries.map fun entry => series entry.1 entry.2) ∧
        family.lines name type height series = header name type :: blocks.flatten := by
  have opens : isHeader (header name type) = true := by
    simp [isHeader, header, String.toList_append]
  have evenBlocks : ∀ block ∈ family.entries.map fun entry => series entry.1 entry.2,
      block.length = height := List.forall_mem_map.mpr even
  have grouped := groups_flatten positive evenBlocks
  rw [← List.flatMap_def] at grouped
  have inBlocks {holds : String → Prop}
      (all : ∀ entry ∈ family.entries, ∀ row ∈ series entry.1 entry.2, holds row) :
      ∀ row ∈ family.entries.flatMap fun entry => series entry.1 entry.2, holds row := by
    intro row member
    obtain ⟨entry, stored, listed⟩ := List.mem_flatMap.mp member
    exact all entry stored row listed
  have noHeader := sections_of_not_header (inBlocks body)
  have unsplit := flatMap_rowLines (List.forall_mem_cons.mpr ⟨head, inBlocks oneLine⟩)
  refine ⟨_, List.mergeSort_perm _ fun left right => !decide (groupText right < groupText left), ?_⟩
  change arrange height (header name type ::
    family.entries.flatMap fun entry => series entry.1 entry.2) = _
  rw [arrange, unsplit]
  simp [sections, noHeader, opens, orderGroups, grouped, groups]

/-- A family whose series are one line each is shown as its header and these
lines, in some order. A block is then a line. -/
theorem Family.lines_perm {α : Type} (family : Family α) {name type : String}
    {row : Key × α → String} (head : OneLine (header name type))
    (oneLine : ∀ entry ∈ family.entries, OneLine (row entry))
    (body : ∀ entry ∈ family.entries, isHeader (row entry) = false) :
    ∃ rows, family.lines name type 1 (fun key value => [row (key, value)]) =
        header name type :: rows ∧
      rows.Perm (family.entries.map row) := by
  obtain ⟨blocks, ordered, shown⟩ := family.lines_blocks Nat.one_pos
    (fun key value => [row (key, value)]) head (fun _ _ => rfl)
    (fun entry member => List.forall_mem_singleton.mpr (oneLine entry member))
    (fun entry member => List.forall_mem_singleton.mpr (body entry member))
  refine ⟨blocks.flatten, shown, ?_⟩
  have lined := ordered.flatten
  rwa [← List.flatMap_def, ← List.map_eq_flatMap] at lined

/-- A header is one line, as it is made of plain names and ends in one. -/
theorem oneLine_header {name type : String} (plainName : Plain name) (plainType : Plain type)
    (typed : type.toList ≠ []) : OneLine (header name type) := by
  have inName := newline_not_mem_name plainName
  have inType := newline_not_mem_name plainType
  constructor
  · simp [header, String.toList_append, inName, inType]
  · rw [header, String.toList_append, List.getLast?_append_of_ne_nil _ typed]
    intro last
    exact absurd (plainType _ (List.mem_of_getLast? last)) (by decide)

end Lines

namespace Counters

/-- The row of a count. -/
def row (name : String) (entry : Key × UInt64) : String :=
  entry.1.series name ++ " " ++ toString entry.2.toNat

/-- A row is its series, a blank and the digits of the count. -/
theorem toList_row (name : String) (entry : Key × UInt64) :
    (row name entry).toList =
      (entry.1.series name).toList ++ ' ' :: Nat.toDigits 10 entry.2.toNat := by
  simp [row, String.toList_append, Nat.toString_eq_repr, Nat.toList_repr]

/-- The digits of a count are read back as the count. -/
theorem readCount_toDigits (count : Nat) : readCount (Nat.toDigits 10 count) = some count := by
  have digits : (Nat.toDigits 10 count).all Char.isDigit = true :=
    List.all_eq_true.mpr fun c member =>
      Nat.isDigit_of_mem_toDigits (by decide) (by decide) member
  rw [readCount, if_pos ⟨Nat.toDigits_ne_nil, digits⟩,
    Nat.ofDigitChars_toDigits (by decide) (by decide)]

section Rows

variable {name : String} {entry : Key × UInt64}

/-- A row tells its series and its count. The reader finds the series, then the
blank, and takes the rest as digits. -/
theorem readRow_row (plainName : Plain name) (plain : entry.1.Plain) :
    readRow (row name entry) = some (name, entry.1, entry.2.toNat) := by
  rw [readRow, toList_row, readSeries_series plainName plain]
  simp only [readCount_toDigits, Option.map_some]

/-- A row is one line: there is no line feed in its series, and it ends in a
digit. -/
theorem oneLine_row (plainName : Plain name) (plain : entry.1.Plain) :
    OneLine (row name entry) := by
  have digit : ∀ c ∈ Nat.toDigits 10 entry.2.toNat, c.isDigit = true := fun c member =>
    Nat.isDigit_of_mem_toDigits (by decide) (by decide) member
  constructor
  · rw [toList_row, List.mem_append, List.mem_cons]
    rintro (inSeries | feed | inDigits)
    · exact newline_not_mem_series plainName plain inSeries
    · exact absurd feed (by decide)
    · exact absurd (digit _ inDigits) (by decide)
  · rw [toList_row, List.getLast?_append_of_ne_nil _ (List.cons_ne_nil _ _),
      List.getLast?_cons_of_ne_nil Nat.toDigits_ne_nil]
    intro last
    exact absurd (digit _ (List.mem_of_getLast? last)) (by decide)

/-- A row does not read as a header, since a header does not begin with a
series: its first character is no character of a name. -/
theorem isHeader_row (plainName : Plain name) (plain : entry.1.Plain) :
    isHeader (row name entry) = false := by
  refine Bool.eq_false_iff.mpr fun reads => ?_
  obtain ⟨rest, same⟩ := List.isPrefixOf_iff_prefix.mp reads
  have asHeader : readSeries ("# TYPE ".toList ++ rest) =
      some ("", [], "# TYPE ".toList ++ rest) := rfl
  rw [same, toList_row, readSeries_series plainName plain] at asHeader
  simp only [Option.some.injEq, Prod.mk.injEq] at asHeader
  obtain ⟨-, -, blank⟩ := asHeader
  rw [← toList_row, ← same] at blank
  exact absurd (List.cons.inj blank).1 (by decide)

end Rows

/-- What was counted under labels, by additions one after another. -/
def ofAdditions (additions : List (List Label × UInt64)) : Counters :=
  additions.foldl (fun counters (labels, amount) => counters.add labels amount) {}

/-- The stored keys, in the order in which they were first touched. -/
def keys (counters : Counters) : List Key := counters.entries.map Prod.fst

/-- After any additions, the stored keys are those that were touched, each of
them once. The amounts that were added have no part in it. -/
theorem keys_ofAdditions (additions : List (List Label × UInt64)) :
    (ofAdditions additions).keys.Nodup ∧
      ∀ key, key ∈ (ofAdditions additions).keys ↔
        key ∈ additions.map fun addition => Key.ofLabels addition.1 :=
  Family.keys_foldl (fun _ => 0) (fun amount count => count + amount) additions

/-- The lines that begin with a series: one if the series is stored, and none
otherwise. Two such lines would have one key, and the keys are distinct. -/
theorem countP_begins {name other : String} {otherKey : Key} (plainName : Plain name)
    (plainOther : Plain other) (otherPlain : otherKey.Plain) {counters : Counters}
    (distinct : counters.keys.Nodup) (plain : ∀ entry ∈ counters.entries, entry.1.Plain) :
    ((counters.entries.map (row name)).countP fun row =>
        ((otherKey.series other).toList ++ [' ']).isPrefixOf row.toList) =
      if other = name ∧ otherKey ∈ counters.keys then 1 else 0 := by
  have begins : ∀ entry ∈ counters.entries,
      (((otherKey.series other).toList ++ [' ']).isPrefixOf (row name entry).toList = true ↔
        other = name ∧ otherKey = entry.1) := by
    intro entry member
    rw [List.isPrefixOf_iff_prefix, toList_row]
    constructor
    · exact series_eq_of_prefix plainName (plain entry member) plainOther otherPlain
    · rintro ⟨rfl, rfl⟩
      exact ⟨Nat.toDigits 10 entry.2.toNat, by simp⟩
  rw [List.countP_map]
  by_cases same : other = name
  · have counted : counters.keys.count otherKey = if otherKey ∈ counters.keys then 1 else 0 :=
      distinct.count
    simp only [same, true_and] at begins ⊢
    rw [← counted, keys, List.count, List.countP_map]
    refine List.countP_congr fun entry member => ?_
    simp only [Function.comp_apply, begins entry member, beq_iff_eq]
    exact eq_comm
  · simp only [same, false_and, ↓reduceIte, List.countP_eq_zero]
    exact fun entry member reads => same ((begins entry member).mp reads).1

/-- An exposition of counts cannot be misread. Two series never have the same
text, and none holds a line feed. Whatever was counted is shown as a header with
one line for each stored key; a line gives its key and its count back, and a
line that begins with a series is that series' own.

A reader that goes through a row once gives back what it was written from, so
rows of different series differ, and a row that begins like another is that
one. -/
theorem exposition_read_back {name : String} (plainName : Plain name)
    {additions : List (List Label × UInt64)}
    (plainLabels : ∀ addition ∈ additions, Key.Plain addition.1) :
    let counters := ofAdditions additions
    (∀ value, (Label.escape value).toList =
      substitute '\n' ['\\', 'n'] (substitute '"' ['\\', '"']
        (substitute '\\' ['\\', '\\'] value.toList))) ∧
    (∀ key, Key.Plain key → '\n' ∉ (key.series name).toList ∧
      ∀ other otherKey, Plain other → Key.Plain otherKey →
        otherKey.series other = key.series name → other = name ∧ otherKey = key) ∧
    ∃ rows, counters.lines name = header name "counter" :: rows ∧
      rows.Perm (counters.entries.map (row name)) ∧
      (∀ entry ∈ counters.entries, readRow (row name entry) = some (name, entry.1, entry.2.toNat) ∧
        ∀ labels, Key.ofLabels labels = entry.1 → counters.get labels = entry.2) ∧
      ∀ other otherKey, Plain other → Key.Plain otherKey →
        (rows.countP fun row => ((otherKey.series other).toList ++ [' ']).isPrefixOf row.toList) =
          if other = name ∧ otherKey ∈ additions.map (fun addition => Key.ofLabels addition.1)
          then 1 else 0 := by
  intro counters
  obtain ⟨distinct, touched⟩ := keys_ofAdditions additions
  have plain : ∀ entry ∈ counters.entries, entry.1.Plain := by
    intro entry member
    have stored : entry.1 ∈ counters.keys := List.mem_map_of_mem member
    obtain ⟨addition, listed, same⟩ := List.mem_map.mp ((touched entry.1).mp stored)
    exact same ▸ Key.plain_ofLabels (plainLabels addition listed)
  refine ⟨Label.toList_escape, ?_, ?_⟩
  · intro key plainKey
    refine ⟨newline_not_mem_series plainName plainKey, ?_⟩
    intro other otherKey plainOther otherPlain same
    have begins : (otherKey.series other).toList ++ [' '] <+: (key.series name).toList ++ [' '] :=
      same ▸ List.prefix_rfl
    exact series_eq_of_prefix plainName plainKey plainOther otherPlain begins
  · obtain ⟨rows, shown, ordered⟩ := Family.lines_perm counters
      (oneLine_header plainName (by decide : Plain "counter") (by decide))
      (fun entry member => oneLine_row plainName (plain entry member))
      (fun entry member => isHeader_row plainName (plain entry member))
    refine ⟨rows, shown, ordered, ?_, ?_⟩
    · intro entry member
      refine ⟨readRow_row plainName (plain entry member), ?_⟩
      rintro labels same
      have distinctKeys : (counters.entries.map Prod.fst).Nodup := distinct
      have found := (lookup_eq_some_iff_mem distinctKeys entry.1 entry.2).mpr member
      rw [get, Family.get?, same, found, Option.getD_some]
    · intro other otherKey plainOther otherPlain
      simp only [ordered.countP_eq, ← touched]
      exact countP_begins plainName plainOther otherPlain distinct plain

/-- A value that ends in a backslash and looks like the end of its line and like
a series of its own is shown in one line, and no line begins with the series
that it holds. -/
theorem exposition_read_back_forgery :
    let forgery := "a\"\x7d 7\nalerts_total\x7bkind=\"b\"\x7d 8\\"
    let additions : List (List Label × UInt64) :=
      [([("kind", forgery)], 1), ([("kind", "a")], 2), ([("kind", forgery)], 3)]
    Plain "alerts_total" ∧ (∀ addition ∈ additions, Key.Plain addition.1) ∧
      ∃ rows,
        (ofAdditions additions).lines "alerts_total" = header "alerts_total" "counter" :: rows ∧
        (rows.countP fun row =>
          ("alerts_total\x7bkind=\"b\"\x7d".toList ++ [' ']).isPrefixOf row.toList) = 0 := by
  intro forgery additions
  have plainName : Plain "alerts_total" := by decide
  have plainLabels : ∀ addition ∈ additions, Key.Plain addition.1 := by decide
  obtain ⟨-, -, rows, shown, -, -, begins⟩ := exposition_read_back plainName plainLabels
  have none := begins "alerts_total" [("kind", "b")] plainName (by decide)
  rw [if_neg (by simp [additions, forgery])] at none
  exact ⟨plainName, plainLabels, rows, shown, none⟩

end Counters

end Telemetry.Metering
