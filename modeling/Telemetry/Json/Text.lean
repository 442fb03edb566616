import Telemetry.Hexadecimal
import Telemetry.Json.Basic

/-!
# Text in JSON strings

Quotes, backslashes and control characters are escaped, by a letter where the
format has one and by a four-digit code otherwise; every other character stands
for itself. Reading takes any escape of the format. Two codes that form a
surrogate pair name one character; half of a pair names none, and a literal that
holds one has no text.
-/
namespace Telemetry.Json

/-- How one character is written. -/
def escapeChar (c : Char) : List Char :=
  if c = '"' then ['\\', '"']
  else if c = '\\' then ['\\', '\\']
  else if c = '\x08' then ['\\', 'b']
  else if c = '\x0c' then ['\\', 'f']
  else if c = '\n' then ['\\', 'n']
  else if c = '\r' then ['\\', 'r']
  else if c = '\t' then ['\\', 't']
  else if c.toNat < 0x20 then
    ['\\', 'u', '0', '0', Hexadecimal.digit (c.toNat / 16), Hexadecimal.digit (c.toNat % 16)]
  else [c]

/-- The literal of a text. -/
def escape (text : String) : List Char := text.toList.flatMap escapeChar

/-- The string of a text. -/
def ofText (text : String) : Json := .string (escape text)

/-- The character that an escape letter stands for. -/
def escapeLetter? (letter : Char) : Option Char :=
  if letter = '"' ∨ letter = '\\' ∨ letter = '/' then some letter
  else if letter = 'b' then some '\x08'
  else if letter = 'f' then some '\x0c'
  else if letter = 'n' then some '\n'
  else if letter = 'r' then some '\r'
  else if letter = 't' then some '\t'
  else none

/-- The value of a four-digit code. -/
def codeValue? (a b c d : Char) : Option Nat := do
  let high := 16 * (← Hexadecimal.value? a) + (← Hexadecimal.value? b)
  let low := 16 * (← Hexadecimal.value? c) + (← Hexadecimal.value? d)
  return 256 * high + low

/-- The first half of a surrogate pair. -/
def isHighHalf (code : Nat) : Bool := decide (0xD800 ≤ code ∧ code < 0xDC00)

/-- The second half of a surrogate pair. -/
def isLowHalf (code : Nat) : Bool := decide (0xDC00 ≤ code ∧ code < 0xE000)

/-- The characters of a literal, if each escape names one. `pending` is the
first half of a pair whose second half must come next. -/
def unescape? : (pending : Option Nat) → List Char → Option (List Char)
  | none, [] => some []
  | some _, [] => none
  | pending, '\\' :: 'u' :: a :: b :: c :: d :: rest =>
    match codeValue? a b c d, pending with
    | none, _ => none
    | some code, some high =>
      if isLowHalf code then
        (unescape? none rest).map
          (Char.ofNat (0x10000 + (high - 0xD800) * 0x400 + (code - 0xDC00)) :: ·)
      else none
    | some code, none =>
      if isHighHalf code then unescape? (some code) rest
      else if isLowHalf code then none
      else (unescape? none rest).map (Char.ofNat code :: ·)
  | none, '\\' :: letter :: rest =>
    match escapeLetter? letter with
    | some c => (unescape? none rest).map (c :: ·)
    | none => none
  | none, c :: rest => if c = '\\' then none else (unescape? none rest).map (c :: ·)
  | some _, _ :: _ => none

/-- The text of a literal. -/
def text? (literal : List Char) : Option String := (unescape? none literal).map String.ofList

end Telemetry.Json
