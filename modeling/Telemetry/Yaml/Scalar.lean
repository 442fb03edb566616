import Telemetry.Hexadecimal
import Telemetry.Yaml.Glyph

/-!
# Scalars

A scalar is written plainly, between single quotes, where a doubled quote stands
for one, or between double quotes, where a backslash starts an escape. All three
may run over several lines. What stands between two words is kept as a `Gap`
until the next word shows that the scalar goes on: blanks alone are kept, a
single line end becomes a space, and of several line ends the first is dropped.
-/
namespace Telemetry.Yaml

/-- What has been passed since the last word. -/
structure Gap where
  /-- The blanks before the first line end. -/
  blanks : List Char
  /-- The line ends, in order. -/
  breaks : List Char
  /-- Whether a line end has been passed, written or escaped. -/
  broken : Bool

namespace Gap

/-- Nothing between two characters of a word. -/
def empty : Gap := ⟨[], [], false⟩

/-- The gap that an escaped line end leaves: nothing is written for it. -/
def escapedBreak : Gap := ⟨[], [], true⟩

/-- A blank counts only before the first line end. -/
def addBlank (gap : Gap) (c : Char) : Gap :=
  if gap.broken then gap else { gap with blanks := gap.blanks ++ [c] }

/-- A line end makes the blanks before it disappear. The first line end written
after an escaped one is kept as it is. -/
def addBreak (gap : Gap) (c : Char) : Gap :=
  if gap.broken then { gap with breaks := gap.breaks ++ [c] } else ⟨[], [c], true⟩

end Gap

/-- The text that a gap stands for. `escaped` says that it began with an escaped
line end, which takes the place of the one that would be dropped. -/
def Gap.fold (gap : Gap) (escaped : Bool) : List Char :=
  if ¬ gap.broken then gap.blanks
  else if escaped then gap.breaks
  else
    match gap.breaks with
    | ['\n'] => [' ']
    | '\n' :: more => more
    | others => others

/-- The brackets and the comma that end a plain scalar in a flow collection. -/
def isFlowIndicator (c : Char) : Bool :=
  c == ',' || c == '[' || c == ']' || c == '{' || c == '}'

/-- The characters that cannot start a plain scalar on their own. -/
def isReserved (c : Char) : Bool :=
  isFlowIndicator c || "-?:#&*!|>'\"%@\x60".toList.contains c

/-- Whether a plain scalar can start here. A dash starts one if a blank does not
follow; in a block so do a question mark and a colon. -/
def startsPlain (inFlow : Bool) : List Glyph → Bool
  | [] => false
  | glyph :: rest =>
    let c := glyph.char
    !(isBlank c || isBreak c) &&
      (!isReserved c || (c == '-' && !endsWord rest) ||
        (!inFlow && (c == '?' || c == ':') && !endsWord rest))

/-- Whether a plain scalar ends before this character. After a gap it also ends
at a comment, a document marker and, in a block, where the line is not indented
to `floor`. -/
def endsPlain (inFlow : Bool) (floor : Nat) (gap : Gap) : List Glyph → Bool
  | [] => true
  | glyph :: rest =>
    (gap.broken && !inFlow && glyph.column < floor) ||
      ((gap.broken || !gap.blanks.isEmpty) &&
        (glyph.char == '#' || isMarker '-' (glyph :: rest) || isMarker '.' (glyph :: rest))) ||
      isIndicator ':' (glyph :: rest) || (inFlow && isFlowIndicator glyph.char)

/-- A colon that a flow collection cannot take inside a plain scalar. -/
def isStrayColon : List Glyph → Bool
  | colon :: next :: _ => colon.char == ':' && (isFlowIndicator next.char || next.char == '?')
  | _ => false

/-- A plain scalar from its first character, or from a gap inside it. The gap
behind its last word is passed too. -/
def takePlain (inFlow : Bool) (floor : Nat) : Gap → List Glyph → Option (List Char × Cursor)
  | gap, [] => some ([], ⟨[], gap.broken⟩)
  | gap, glyph :: rest =>
    if isBlank glyph.char then
      if gap.broken ∧ glyph.column < floor ∧ glyph.char = '\t' then none
      else takePlain inFlow floor (gap.addBlank glyph.char) rest
    else if isBreak glyph.char then takePlain inFlow floor (gap.addBreak glyph.char) rest
    else if endsPlain inFlow floor gap (glyph :: rest) then
      some ([], ⟨glyph :: rest, gap.broken⟩)
    else if inFlow ∧ isStrayColon (glyph :: rest) then none
    else
      (takePlain inFlow floor .empty rest).map fun (text, after) =>
        (gap.fold false ++ glyph.char :: text, after)

/-- A single-quoted scalar after its opening quote. A document marker may not
stand in it. -/
def takeSingle : Gap → List Glyph → Option (List Char × Cursor)
  | _, [] => none
  | gap, glyph :: rest =>
    if isMarker '-' (glyph :: rest) ∨ isMarker '.' (glyph :: rest) then none
    else if isBlank glyph.char then takeSingle (gap.addBlank glyph.char) rest
    else if isBreak glyph.char then takeSingle (gap.addBreak glyph.char) rest
    else if glyph.char = '\'' then
      match rest with
      | next :: others =>
        if next.char = '\'' then
          (takeSingle .empty others).map fun (text, after) =>
            (gap.fold false ++ '\'' :: text, after)
        else some (gap.fold false, ⟨rest, false⟩)
      | [] => some (gap.fold false, ⟨[], false⟩)
    else
      (takeSingle .empty rest).map fun (text, after) =>
        (gap.fold false ++ glyph.char :: text, after)

/-- The character that an escape letter stands for. -/
def escapeLetter? (letter : Char) : Option Char :=
  [('0', '\x00'), ('a', '\x07'), ('b', '\x08'), ('t', '\t'), ('\t', '\t'), ('n', '\n'),
    ('v', '\x0b'), ('f', '\x0c'), ('r', '\r'), ('e', '\x1b'), (' ', ' '), ('"', '"'), ('/', '/'),
    ('\\', '\\'), ('N', '\u0085'), ('_', '\u00a0'), ('L', '\u2028'), ('P', '\u2029')].lookup letter

/-- How many hexadecimal digits follow an escape letter. -/
def codeLength? (letter : Char) : Option Nat :=
  [('x', 2), ('u', 4), ('U', 8)].lookup letter

/-- The character with a given code, if there is one. -/
def charOfCode? (code : Nat) : Option Char :=
  if code.isValidChar then some (Char.ofNat code) else none

/-- Where the reader of a double-quoted scalar stands. -/
inductive QuoteState where
  /-- Between characters, after a gap. -/
  | open (gap : Gap) (escaped : Bool)
  /-- Behind a backslash. -/
  | backslash
  /-- Inside a numeric escape: how many digits are still to come, and their
  value. -/
  | code (digits value : Nat)

/-- A double-quoted scalar after its opening quote. -/
def takeDouble : QuoteState → List Glyph → Option (List Char × Cursor)
  | _, [] => none
  | .open gap escaped, glyph :: rest =>
    if isMarker '-' (glyph :: rest) ∨ isMarker '.' (glyph :: rest) then none
    else if isBlank glyph.char then takeDouble (.open (gap.addBlank glyph.char) escaped) rest
    else if isBreak glyph.char then takeDouble (.open (gap.addBreak glyph.char) escaped) rest
    else
      let written := gap.fold escaped
      if glyph.char = '"' then some (written, ⟨rest, false⟩)
      else if glyph.char = '\\' then
        (takeDouble .backslash rest).map fun (text, after) => (written ++ text, after)
      else
        (takeDouble (.open .empty false) rest).map fun (text, after) =>
          (written ++ glyph.char :: text, after)
  | .backslash, glyph :: rest =>
    if isBreak glyph.char then takeDouble (.open .escapedBreak true) rest
    else
      match escapeLetter? glyph.char, codeLength? glyph.char with
      | some c, _ =>
        (takeDouble (.open .empty false) rest).map fun (text, after) => (c :: text, after)
      | none, some digits => takeDouble (.code digits 0) rest
      | none, none => none
  | .code digits value, glyph :: rest =>
    match Hexadecimal.value? glyph.char with
    | none => none
    | some digit =>
      let longer := 16 * value + digit
      if digits ≤ 1 then
        match charOfCode? longer with
        | some c =>
          (takeDouble (.open .empty false) rest).map fun (text, after) => (c :: text, after)
        | none => none
      else takeDouble (.code (digits - 1) longer) rest

end Telemetry.Yaml
