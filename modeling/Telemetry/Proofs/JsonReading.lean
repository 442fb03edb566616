import Mathlib.Data.List.TakeDrop
import Mathlib.Data.List.TakeWhile
import Telemetry.Json.Reader

/-!
# Written documents read back

A document keeps the text of its leaves, so that writing it is only laying out.
The reader finds the same structure again, provided that it accepts each leaf: a
number literal must be one of the format, and a string literal must end where
its quote stands. Nothing is assumed about what the leaves mean.

A leaf is read up to its own end. For a string that is its closing quote. A
number literal has no closing mark, so what follows it must not go on with it;
in a document a comma, a bracket or a brace follows, or nothing. The escapes of
any text are such a string literal, and have that text.
-/
namespace Telemetry.Json

open Telemetry.Number

/-!
## Strings
-/

/-- A control character has a code of two digits behind two zeros, and the code
is read as the character's own. There are 32 of them, and each is tried. -/
theorem codeValue?_control :
    ∀ code < 32, codeValue? '0' '0' (Hexadecimal.digit (code / 16))
      (Hexadecimal.digit (code % 16)) = some code := by
  decide

/-- A character is written by a letter, by a code if it is a control character,
or as it is. In the last case it is none of those that end a literal or open an
escape, which is what the reader needs to know of it. -/
theorem escapeChar_cases (c : Char) :
    (∃ letter, escapeChar c = ['\\', letter] ∧ escapeLetter? letter = some c) ∨
      (c.toNat < 32 ∧ escapeChar c = ['\\', 'u', '0', '0', Hexadecimal.digit (c.toNat / 16),
        Hexadecimal.digit (c.toNat % 16)]) ∨
      (c ≠ '"' ∧ c ≠ '\\' ∧ 32 ≤ c.toNat ∧ escapeChar c = [c]) := by
  unfold escapeChar
  split_ifs with quote backslash backspace formFeed newline carriage tab code
  · exact .inl ⟨'"', rfl, by rw [quote]; rfl⟩
  · exact .inl ⟨'\\', rfl, by rw [backslash]; rfl⟩
  · exact .inl ⟨'b', rfl, by rw [backspace]; rfl⟩
  · exact .inl ⟨'f', rfl, by rw [formFeed]; rfl⟩
  · exact .inl ⟨'n', rfl, by rw [newline]; rfl⟩
  · exact .inl ⟨'r', rfl, by rw [carriage]; rfl⟩
  · exact .inl ⟨'t', rfl, by rw [tab]; rfl⟩
  · exact .inr (.inl ⟨code, rfl⟩)
  · exact .inr (.inr ⟨quote, backslash, Nat.le_of_not_lt code, rfl⟩)

/-- The letter that opens a code is no escape letter, so the two kinds of escape
are never confused. -/
theorem ne_u_of_escapeLetter? {letter c : Char} (named : escapeLetter? letter = some c) :
    letter ≠ 'u' := by
  rintro rfl
  simp [escapeLetter?] at named

/-- The reader passes the escape of a character as a whole: each of the three
ways to write a character is one branch of the reader. -/
theorem takeString_escapeChar (c : Char) (input : List Char) :
    takeString (escapeChar c ++ input) =
      (takeString input).map fun (literal, after) => (escapeChar c ++ literal, after) := by
  obtain ⟨letter, written, named⟩ | ⟨code, written⟩ | ⟨quote, backslash, printable, written⟩ :=
    escapeChar_cases c
  · have other := ne_u_of_escapeLetter? named
    simp [written, takeString, named, other]
  · simp [written, takeString, codeValue?_control _ code]
  · have visible : ¬c.toNat < 0x20 := Nat.not_lt.mpr printable
    simp [written, takeString, backslash, visible]

/-- The escape of a character names that character. A control character is no
half of a pair, so its code stands for it alone. -/
theorem unescape?_escapeChar (c : Char) (input : List Char) :
    unescape? none (escapeChar c ++ input) = (unescape? none input).map (c :: ·) := by
  obtain ⟨letter, written, named⟩ | ⟨code, written⟩ | ⟨quote, backslash, printable, written⟩ :=
    escapeChar_cases c
  · have other := ne_u_of_escapeLetter? named
    simp [written, unescape?, named, other]
  · have whole : isHighHalf c.toNat = false ∧ isLowHalf c.toNat = false := by
      simp [isHighHalf, isLowHalf]
      omega
    simp [written, unescape?, codeValue?_control _ code, whole]
  · simp [written, unescape?, backslash]

/-- A string literal is read the same whatever follows its quote. The induction
is that of the reader; none of its branches looks behind the quote. -/
theorem takeString_append {input literal after : List Char}
    (taken : takeString input = some (literal, after)) (rest : List Char) :
    takeString (input ++ rest) = some (literal, after ++ rest) := by
  fun_induction takeString input generalizing literal with
  | case1 | case4 | case6 | case7 => cases taken
  | case2 =>
    cases taken
    rfl
  | case3 a b c d others code inductionHypothesis =>
    obtain ⟨⟨tail, behind⟩, found, made⟩ := Option.map_eq_some_iff.mp taken
    cases made
    simp [takeString, code, inductionHypothesis found]
  | case5 letter others notCode named inductionHypothesis =>
    obtain ⟨⟨tail, behind⟩, found, made⟩ := Option.map_eq_some_iff.mp taken
    cases made
    obtain ⟨character, names⟩ := Option.isSome_iff_exists.mp named
    simp [takeString, named, ne_u_of_escapeLetter? names, inductionHypothesis found]
  | case8 c others quote notCode notLetter plain inductionHypothesis =>
    obtain ⟨⟨tail, behind⟩, found, made⟩ := Option.map_eq_some_iff.mp taken
    cases made
    obtain ⟨backslash, printable⟩ := not_or.mp plain
    simp [takeString, backslash, printable, inductionHypothesis found]

/-- The escapes of a text are read up to the quote behind them. A quote in the
text is escaped, so the first bare one is the one that was put there. -/
theorem takeString_escape (text : String) (rest : List Char) :
    takeString (escape text ++ '"' :: rest) = some (escape text, rest) := by
  unfold escape
  induction text.toList with
  | nil => simp [takeString]
  | cons c others inductionHypothesis =>
    rw [List.flatMap_cons, List.append_assoc, takeString_escapeChar, inductionHypothesis]
    rfl

/-- The escapes of a text have that text, whichever characters it holds. So
names survive in keys and values alike. -/
@[simp] theorem text?_escape (text : String) : text? (escape text) = some text := by
  have characters (chars : List Char) :
      unescape? none (chars.flatMap escapeChar) = some chars := by
    induction chars with
    | nil => rw [List.flatMap_nil, unescape?]
    | cons c others inductionHypothesis =>
      rw [List.flatMap_cons, unescape?_escapeChar, inductionHypothesis, Option.map_some]
  rw [text?, escape, characters, Option.map_some, String.ofList_toList]

/-!
## Number literals
-/

/-- The run of digits at the start of an input, taken one character at a
time. -/
theorem spanDigits_cons (c : Char) (input : List Char) :
    spanDigits (c :: input) =
      if c.isDigit then (c :: (spanDigits input).1, (spanDigits input).2)
      else ([], c :: input) := by
  simp only [spanDigits, List.span_eq_takeWhile_dropWhile, List.takeWhile_cons, List.dropWhile_cons]
  split <;> rfl

/-- A run of digits ends at the first character that is none. What follows the
input is not looked at if it does not go on with digits. -/
theorem spanDigits_append {rest : List Char} (ends : ∀ c ∈ rest.head?, c.isDigit = false)
    (input : List Char) :
    spanDigits (input ++ rest) = ((spanDigits input).1, (spanDigits input).2 ++ rest) := by
  induction input with
  | nil =>
    cases rest with
    | nil => rfl
    | cons c others =>
      rw [List.nil_append, spanDigits_cons, ends c rfl]
      rfl
  | cons c others inductionHypothesis =>
    rw [List.cons_append, spanDigits_cons, spanDigits_cons, inductionHypothesis]
    split <;> rfl

/-- A run of digits with at least one digit: each part of a number literal has
one. -/
def run? (input : List Char) : Option (List Char × List Char) :=
  if (spanDigits input).1.isEmpty then none else some (spanDigits input)

/-- A run of at least one digit is read the same in front of whatever is no
digit. -/
theorem run?_append {input digits after rest : List Char}
    (taken : run? input = some (digits, after)) (ends : ∀ c ∈ rest.head?, c.isDigit = false) :
    run? (input ++ rest) = some (digits, after ++ rest) := by
  obtain ⟨nonempty, span⟩ := Option.ite_none_left_eq_some.mp taken
  rw [Option.some.injEq] at span
  rw [span] at nonempty
  rw [run?, spanDigits_append ends, span, if_neg nonempty]

/-- Digits in front of something else are found as they are, as long as there is
one. -/
theorem run?_digits {digits rest : List Char} (all : ∀ c ∈ digits, c.isDigit = true)
    (nonempty : digits ≠ []) (ends : ∀ c ∈ rest.head?, c.isDigit = false) :
    run? (digits ++ rest) = some (digits, rest) := by
  have span : spanDigits digits = (digits, []) := by
    rw [spanDigits, List.span_eq_takeWhile_dropWhile, List.takeWhile_eq_self_iff.mpr all,
      List.dropWhile_eq_nil_iff.mpr all]
  have alone : run? digits = some (digits, []) := by
    rw [run?, span, if_neg (by simpa using nonempty)]
  exact run?_append alone ends

/-- The whole part is a single zero or a run of digits. A zero ends it, so that
no number is written with zeros in front. -/
theorem takeWhole_cons (c : Char) (input : List Char) :
    takeWhole (c :: input) = if c = '0' then some (['0'], input) else run? (c :: input) := by
  split_ifs with zero
  · subst c
    rfl
  · simp [takeWhole, run?, zero]

/-- A fraction is there only if a point is, and then it has at least one
digit. -/
theorem takeFraction_cons (c : Char) (input : List Char) :
    takeFraction (c :: input) = if c = '.' then run? input else some ([], c :: input) := by
  split_ifs with point
  · subst c
    rfl
  · simp [takeFraction, point]

/-- An exponent is there only if its letter is, and then it has at least one
digit behind an optional sign. -/
theorem takePower_cons (c : Char) (input : List Char) :
    takePower (c :: input) =
      if c = 'e' ∨ c = 'E' then
        (run? (takeSign input).2).map fun (digits, rest) =>
          (some ((takeSign input).1, digits), rest)
      else some (none, c :: input) := by
  simp only [takePower, run?]
  split_ifs <;> rfl

/-- The sign of an exponent is read from its first character, so that what
follows later does not matter. -/
theorem takeSign_cons_append (c : Char) (input rest : List Char) :
    takeSign (c :: (input ++ rest)) =
      ((takeSign (c :: input)).1, (takeSign (c :: input)).2 ++ rest) := by
  unfold takeSign
  split <;> simp_all

/-- What follows a number literal and does not go on with it. -/
def Ends (rest : List Char) : Prop :=
  ∀ c ∈ rest.head?, c.isDigit = false ∧ c ≠ '.' ∧ c ≠ 'e' ∧ c ≠ 'E'

section Append

variable {input after rest : List Char} (ends : Ends rest)
include ends

/-- The whole part is read the same in front of what ends a number literal,
because that is no digit. -/
theorem takeWhole_append {whole : List Char} (taken : takeWhole input = some (whole, after)) :
    takeWhole (input ++ rest) = some (whole, after ++ rest) := by
  -- A zero is a whole part by itself, so that what follows it is not looked at.
  cases input with
  | nil => cases taken
  | cons c others =>
    rw [takeWhole_cons] at taken
    rw [List.cons_append, takeWhole_cons]
    split_ifs at taken ⊢ with zero
    · cases taken
      rfl
    · exact run?_append taken fun c first => (ends c first).1

/-- The fraction is read the same in front of what ends a number literal. If
there is none, the end must not be mistaken for a point; otherwise its digits
must not go on. -/
theorem takeFraction_append {fraction : List Char}
    (taken : takeFraction input = some (fraction, after)) :
    takeFraction (input ++ rest) = some (fraction, after ++ rest) := by
  cases input with
  | nil =>
    cases taken
    cases rest with
    | nil => rfl
    | cons c others => rw [List.nil_append, takeFraction_cons, if_neg (ends c rfl).2.1]
  | cons c others =>
    rw [takeFraction_cons] at taken
    rw [List.cons_append, takeFraction_cons]
    split_ifs at taken ⊢ with point
    · exact run?_append taken fun c first => (ends c first).1
    · cases taken
      rfl

/-- The exponent is read the same in front of what ends a number literal. If
there is none, the end must not be mistaken for its letter; otherwise its digits
must not go on. -/
theorem takePower_append {power : Option (Bool × List Char)}
    (taken : takePower input = some (power, after)) :
    takePower (input ++ rest) = some (power, after ++ rest) := by
  cases input with
  | nil =>
    cases taken
    cases rest with
    | nil => rfl
    | cons c others =>
      have unmarked : ¬ (c = 'e' ∨ c = 'E') := not_or.mpr (ends c rfl).2.2
      rw [List.nil_append, takePower_cons, if_neg unmarked]
  | cons c others =>
    rw [takePower_cons] at taken
    rw [List.cons_append, takePower_cons]
    split_ifs at taken ⊢ with mark
    · obtain ⟨⟨digits, behind⟩, run, found⟩ := Option.map_eq_some_iff.mp taken
      cases found
      -- The digits may not be missing, so the sign stands before the end.
      cases others with
      | nil => cases run
      | cons sign digits =>
        rw [List.cons_append, takeSign_cons_append, run?_append run fun c first => (ends c first).1]
        rfl
    · cases taken
      rfl

end Append

namespace Literal

/-- A number literal behind its sign. -/
def unsigned? (negative : Bool) (input : List Char) : Option (Literal × List Char) := do
  let (whole, afterWhole) ← takeWhole input
  let (fraction, afterFraction) ← takeFraction afterWhole
  let (exponent, rest) ← takePower afterFraction
  return (⟨negative, whole, fraction, exponent⟩, rest)

/-- A minus in front is taken off first, and what is left is read without a
sign. -/
theorem take?_minus (input : List Char) : take? ('-' :: input) = unsigned? true input := rfl

/-- Without a minus in front, the whole input is read without a sign. There is
no other sign, so a plus is refused with the digits that are missing. -/
theorem take?_of_ne {c : Char} (plain : c ≠ '-') (input : List Char) :
    take? (c :: input) = unsigned? false (c :: input) := by
  simp [take?, unsigned?, plain]

/-- The three parts of a literal are read one after another, each up to what
ends the literal or starts the next part, so the end may be anything that
continues none of them. -/
theorem unsigned?_append {negative : Bool} {literal : Literal} {input after rest : List Char}
    (taken : unsigned? negative input = some (literal, after)) (ends : Ends rest) :
    unsigned? negative (input ++ rest) = some (literal, after ++ rest) := by
  simp only [unsigned?, Option.bind_eq_bind, Option.bind_eq_some_iff, Prod.exists] at taken
  obtain ⟨whole, afterWhole, first, fraction, afterFraction, second, power, last, third, made⟩ :=
    taken
  cases made
  simp only [unsigned?, Option.bind_eq_bind, takeWhole_append ends first, Option.bind_some,
    takeFraction_append ends second, takePower_append ends third, Option.pure_def]

/-- A number literal is read the same whatever ends it, with a sign or
without. -/
theorem take?_append {literal : Literal} {input after rest : List Char}
    (taken : take? input = some (literal, after)) (ends : Ends rest) :
    take? (input ++ rest) = some (literal, after ++ rest) := by
  cases input with
  | nil => cases taken
  | cons c others =>
    rw [List.cons_append]
    by_cases minus : c = '-'
    · subst c
      rw [take?_minus] at taken ⊢
      exact unsigned?_append taken ends
    · rw [take?_of_ne minus] at taken ⊢
      exact unsigned?_append taken ends

/-- Behind its sign a number literal starts with a digit: neither a zero nor a
run of digits starts with anything else. -/
theorem exists_digit {negative : Bool} {literal : Literal} {input after : List Char}
    (taken : unsigned? negative input = some (literal, after)) :
    ∃ c others, input = c :: others ∧ c.isDigit = true := by
  cases input with
  | nil => cases taken
  | cons c others =>
    refine ⟨c, others, rfl, ?_⟩
    by_contra other
    have zero : c ≠ '0' := by
      rintro rfl
      exact other (by decide)
    rw [unsigned?, takeWhole_cons, if_neg zero, run?, spanDigits_cons, if_neg other] at taken
    cases taken

/-- A number literal starts with a minus or a digit. No other value of the
format does, so the first character decides which reader is asked. -/
theorem exists_first {literal : Literal} {input after : List Char}
    (taken : take? input = some (literal, after)) :
    ∃ c others, input = c :: others ∧ (c = '-' ∨ c.isDigit = true) := by
  cases input with
  | nil => cases taken
  | cons c others =>
    refine ⟨c, others, rfl, ?_⟩
    by_cases minus : c = '-'
    · exact .inl minus
    · rw [take?_of_ne minus] at taken
      obtain ⟨_, _, same, digit⟩ := exists_digit taken
      cases same
      exact .inr digit

end Literal

/-!
## Documents
-/

/-- The leaves of a document are as the reader accepts them. -/
inductive Grammatical : Json → Prop where
  | null : Grammatical .null
  | bool (value : Bool) : Grammatical (.bool value)
  | number {literal : List Char} {parts : Literal}
      (whole : Literal.take? literal = some (parts, [])) : Grammatical (.number literal)
  | string {literal : List Char} (closed : takeString (literal ++ ['"']) = some (literal, [])) :
      Grammatical (.string literal)
  | array {items : List Json} (each : ∀ item ∈ items, Grammatical item) : Grammatical (.array items)
  | object {members : List (List Char × Json)}
      (keys : ∀ member ∈ members, takeString (member.1 ++ ['"']) = some (member.1, []))
      (each : ∀ member ∈ members, Grammatical member.2) : Grammatical (.object members)

/-- The reader finds a document again in front of whatever follows it. Two steps
for each character suffice. -/
def Reads (document : Json) : Prop :=
  ∀ fuel rest, 2 * document.chars.length < fuel → Ends rest →
    takeValue fuel (document.chars ++ rest) = some (document, rest)

/-- A visible character stops the search for one. -/
theorem skipBlanks_cons {c : Char} (visible : isBlank c = false) (input : List Char) :
    skipBlanks (c :: input) = c :: input := by
  simp [skipBlanks, visible]

/-- What starts a number literal starts nothing else. This is what tells it from
a word, a string, an array or an object. -/
theorem ne_of_number {c other : Char} (first : c = '-' ∨ c.isDigit = true)
    (differs : other ≠ '-' ∧ other.isDigit = false) : c ≠ other := by
  rintro rfl
  obtain minus | digit := first
  · exact differs.1 minus
  · exact Bool.false_ne_true (differs.2.symm.trans digit)

/-- No blank starts a number literal, so that nothing of it is skipped. -/
theorem visible_of_number {c : Char} (first : c = '-' ∨ c.isDigit = true) : isBlank c = false := by
  simp [isBlank, ne_of_number first]

/-- A document starts with a visible character, which closes nothing. So the
reader does not take the first item of an array for its end. -/
theorem Grammatical.exists_first {document : Json} (grammatical : document.Grammatical) :
    ∃ c others, document.chars = c :: others ∧ isBlank c = false ∧ c ≠ ']' := by
  cases grammatical with
  | number whole =>
    obtain ⟨c, others, start, first⟩ := Literal.exists_first whole
    exact ⟨c, others, start, visible_of_number first, ne_of_number first (by decide)⟩
  | bool value => cases value <;> exact ⟨_, _, rfl, by decide, by decide⟩
  | _ => exact ⟨_, _, rfl, by decide, by decide⟩

/-- An input that starts like a number is handed to the reader of numbers, and
the literal is as much of the input as that reader has passed. -/
theorem takeValue_of_number {c : Char} (first : c = '-' ∨ c.isDigit = true) (fuel : Nat)
    (input : List Char) :
    takeValue (fuel + 1) (c :: input) =
      (Literal.take? (c :: input)).map fun (_, after) =>
        (.number ((c :: input).take ((c :: input).length - after.length)), after) := by
  rw [takeValue, skipBlanks_cons (visible_of_number first)]
  simp [ne_of_number first]

/-- The three words are read as they are written, whatever follows. -/
theorem reads_word {document : Json} (word : document = .null ∨ ∃ value, document = .bool value) :
    Reads document := by
  rintro (_ | fuel) rest enough ends
  · exact absurd enough (Nat.not_lt_zero _)
  obtain rfl | ⟨_ | _, rfl⟩ := word <;>
    simp [chars, takeValue, skipBlanks_cons, isBlank, afterWord?]

/-- A number literal is found again in front of what ends it. It is kept as it
was written, since the reader passes exactly its characters. -/
theorem reads_number {literal : List Char} {parts : Literal}
    (whole : Literal.take? literal = some (parts, [])) : Reads (.number literal) := by
  rintro (_ | fuel) rest enough ends
  · exact absurd enough (Nat.not_lt_zero _)
  obtain ⟨c, others, rfl, first⟩ := Literal.exists_first whole
  have taken := Literal.take?_append whole ends
  have passed : ((c :: others) ++ rest).take (((c :: others) ++ rest).length - rest.length) =
      c :: others := by
    rw [List.length_append, Nat.add_sub_cancel, List.take_left]
  rw [List.nil_append, List.cons_append] at taken
  rw [List.cons_append] at passed
  rw [chars, List.cons_append, takeValue_of_number first, taken, Option.map_some]
  simp only [passed]

/-- A string literal is found again between its quotes. It ends at the second
one, so that anything may follow. -/
theorem reads_string {literal : List Char}
    (closed : takeString (literal ++ ['"']) = some (literal, [])) : Reads (.string literal) := by
  rintro (_ | fuel) rest enough ends
  · exact absurd enough (Nat.not_lt_zero _)
  have taken := takeString_append closed rest
  rw [List.append_assoc, List.singleton_append] at taken
  simp [chars, quote, takeValue, skipBlanks_cons, isBlank, taken]

/-- The marks that follow a value inside a document end a number literal. -/
theorem ends_of_mark {c : Char} (mark : c = ',' ∨ c = ']' ∨ c = '}') (rest : List Char) :
    Ends (c :: rest) := by
  rintro _ ⟨⟩
  obtain rfl | rfl | rfl := mark <;> decide

/-- Items are found again, each in front of the comma or the bracket that
follows it. The induction is on the items; two steps for each character are
enough for one more item, because each has a mark behind it. -/
theorem takeItems_itemChars {items : List Json} (nonempty : items ≠ [])
    (each : ∀ item ∈ items, item.Reads) {fuel : Nat} {rest : List Char}
    (enough : 2 * (itemChars items).length + 1 < fuel) :
    takeItems fuel (itemChars items ++ ']' :: rest) = some (items, rest) := by
  induction items generalizing fuel with
  | nil => exact absurd rfl nonempty
  | cons item others inductionHypothesis =>
    obtain _ | fuel := fuel
    · exact absurd enough (Nat.not_lt_zero _)
    have first := each item List.mem_cons_self
    cases others with
    | nil =>
      rw [itemChars] at enough ⊢
      have taken := first fuel (']' :: rest) (by omega) (ends_of_mark (by simp) rest)
      simp [takeItems, taken, skipBlanks_cons, isBlank]
    | cons next others =>
      rw [itemChars, List.length_append, List.length_cons] at enough
      have taken := first fuel (',' :: (itemChars (next :: others) ++ ']' :: rest)) (by omega)
        (ends_of_mark (by simp) _)
      have later := inductionHypothesis (List.cons_ne_nil next others)
        (fun item member => each item (List.mem_cons_of_mem _ member))
        (by omega : 2 * (itemChars (next :: others)).length + 1 < fuel)
      simp [itemChars, takeItems, taken, skipBlanks_cons, isBlank, later]

/-- Members are found again like items, with a key in front of each value. Keys
are read up to their quote, so only that quote is asked of them. -/
theorem takeMembers_memberChars {members : List (List Char × Json)} (nonempty : members ≠ [])
    (keys : ∀ member ∈ members, takeString (member.1 ++ ['"']) = some (member.1, []))
    (each : ∀ member ∈ members, member.2.Reads) {fuel : Nat} {rest : List Char}
    (enough : 2 * (memberChars members).length + 1 < fuel) :
    takeMembers fuel (memberChars members ++ '}' :: rest) = some (members, rest) := by
  induction members generalizing fuel with
  | nil => exact absurd rfl nonempty
  | cons member others inductionHypothesis =>
    obtain _ | fuel := fuel
    · exact absurd enough (Nat.not_lt_zero _)
    obtain ⟨key, value⟩ := member
    have first : value.Reads := each (key, value) List.mem_cons_self
    cases others with
    | nil =>
      rw [memberChars, List.length_append, List.length_cons] at enough
      have taken := first fuel ('}' :: rest) (by omega) (ends_of_mark (by simp) rest)
      have key := takeString_append (keys (key, value) List.mem_cons_self)
        (':' :: (value.chars ++ '}' :: rest))
      rw [List.append_assoc, List.singleton_append] at key
      simp [memberChars, quote, takeMembers, skipBlanks_cons, isBlank, key, taken]
    | cons next others =>
      rw [memberChars, List.length_append, List.length_append, List.length_cons,
        List.length_cons] at enough
      have taken := first fuel (',' :: (memberChars (next :: others) ++ '}' :: rest)) (by omega)
        (ends_of_mark (by simp) _)
      have key := takeString_append (keys (key, value) List.mem_cons_self)
        (':' :: (value.chars ++ ',' :: (memberChars (next :: others) ++ '}' :: rest)))
      rw [List.append_assoc, List.singleton_append] at key
      have later := inductionHypothesis (List.cons_ne_nil next others)
        (fun member among => keys member (List.mem_cons_of_mem _ among))
        (fun member among => each member (List.mem_cons_of_mem _ among))
        (by omega : 2 * (memberChars (next :: others)).length + 1 < fuel)
      simp [memberChars, quote, takeMembers, skipBlanks_cons, isBlank, key, taken, later]

/-- An array is found again if its items are. The first character behind the
opening bracket tells an empty array from one with items, since no item starts
with a closing bracket. -/
theorem reads_array {items : List Json} (each : ∀ item ∈ items, item.Reads)
    (grammatical : ∀ item ∈ items, item.Grammatical) : Reads (.array items) := by
  rintro (_ | fuel) rest enough ends
  · exact absurd enough (Nat.not_lt_zero _)
  cases items with
  | nil => simp [chars, itemChars, takeValue, skipBlanks_cons, isBlank]
  | cons item others =>
    obtain ⟨c, tail, start, visible, opens⟩ := (grammatical item List.mem_cons_self).exists_first
    obtain ⟨listed, start⟩ : ∃ listed, itemChars (item :: others) = c :: listed := by
      cases others with
      | nil => exact ⟨tail, start⟩
      | cons next others => exact ⟨_, by rw [itemChars, start, List.cons_append]⟩
    simp only [chars, List.length_cons, List.length_append] at enough
    have taken : takeItems fuel (itemChars (item :: others) ++ ']' :: rest) = _ :=
      takeItems_itemChars (List.cons_ne_nil item others) each (by omega)
    rw [start, List.cons_append] at taken
    have skipped := skipBlanks_cons visible (listed ++ ']' :: rest)
    simp [chars, start, takeValue, skipBlanks_cons, isBlank, skipped, opens, taken]

/-- An object is found again if its values are and its keys end at their quotes.
The first character behind the brace is a quote, unless the object is empty. -/
theorem reads_object {members : List (List Char × Json)}
    (keys : ∀ member ∈ members, takeString (member.1 ++ ['"']) = some (member.1, []))
    (each : ∀ member ∈ members, member.2.Reads) : Reads (.object members) := by
  rintro (_ | fuel) rest enough ends
  · exact absurd enough (Nat.not_lt_zero _)
  cases members with
  | nil => simp [chars, memberChars, takeValue, skipBlanks_cons, isBlank]
  | cons member others =>
    obtain ⟨listed, start⟩ : ∃ listed, memberChars (member :: others) = '"' :: listed := by
      cases others <;> exact ⟨_, by rw [memberChars]; rfl⟩
    simp only [chars, List.length_cons, List.length_append] at enough
    have taken : takeMembers fuel (memberChars (member :: others) ++ '}' :: rest) = _ :=
      takeMembers_memberChars (List.cons_ne_nil member others) keys each (by omega)
    rw [start, List.cons_append] at taken
    simp [chars, start, takeValue, skipBlanks_cons, isBlank, taken]

/-- Every document whose leaves are accepted is found again. The induction is on
the document, and each kind of value is one of the lemmas above. -/
theorem Grammatical.reads {document : Json} (grammatical : document.Grammatical) :
    document.Reads := by
  induction grammatical with
  | null => exact reads_word (.inl rfl)
  | bool value => exact reads_word (.inr ⟨value, rfl⟩)
  | number whole => exact reads_number whole
  | string closed => exact reads_string closed
  | array each inductionHypothesis => exact reads_array inductionHypothesis each
  | object keys each inductionHypothesis => exact reads_object keys inductionHypothesis

/-- The text of a document is read as that document. Nothing follows it, and the
fuel that the reader gives itself is two steps for each character and one
more. -/
theorem Grammatical.parse?_compact {document : Json} (grammatical : document.Grammatical) :
    parse? document.compact = some document := by
  have taken := grammatical.reads (2 * document.chars.length + 1) [] (by omega) nofun
  rw [List.append_nil] at taken
  simp [parse?, compact, taken, skipBlanks]

end Telemetry.Json
