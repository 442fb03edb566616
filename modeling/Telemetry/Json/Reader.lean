import Telemetry.Json.Number
import Telemetry.Json.Text

/-!
# Reading JSON documents

A document is one value with blanks around its parts and nothing after it. The
reader checks the grammar of every leaf, also of those that nobody will look at,
but gives no leaf a meaning: a number may still prove too large and a string may
still lack a text when it is asked for. Every call of the reader passes at least
one character, so the length of the input bounds how deep it goes.
-/
namespace Telemetry.Json

/-- The four blanks of the format. -/
def isBlank (c : Char) : Bool := c == ' ' || c == '\t' || c == '\n' || c == '\r'

/-- What follows leading blanks. -/
def skipBlanks (input : List Char) : List Char := input.dropWhile isBlank

/-- The rest of a string literal after its opening quote, and what follows its
closing one. Control characters may not stand in it, and a backslash needs an
escape of the format behind it. -/
def takeString : List Char → Option (List Char × List Char)
  | [] => none
  | '"' :: rest => some ([], rest)
  | '\\' :: 'u' :: a :: b :: c :: d :: rest =>
    if (codeValue? a b c d).isSome then
      (takeString rest).map fun (literal, after) =>
        ('\\' :: 'u' :: a :: b :: c :: d :: literal, after)
    else none
  | '\\' :: letter :: rest =>
    if (escapeLetter? letter).isSome then
      (takeString rest).map fun (literal, after) => ('\\' :: letter :: literal, after)
    else none
  | c :: rest =>
    if c = '\\' ∨ c.toNat < 0x20 then none
    else (takeString rest).map fun (literal, after) => (c :: literal, after)

/-- What follows a fixed word. -/
def afterWord? (word input : List Char) : Option (List Char) :=
  if word.isPrefixOf input then some (input.drop word.length) else none

mutual

/-- A value at the front of the input, behind blanks. -/
def takeValue (fuel : Nat) (input : List Char) : Option (Json × List Char) :=
  match fuel with
  | 0 => none
  | fuel + 1 =>
    match skipBlanks input with
    | '"' :: rest => (takeString rest).map fun (literal, after) => (.string literal, after)
    | '[' :: rest =>
      match skipBlanks rest with
      | ']' :: after => some (.array [], after)
      | _ => (takeItems fuel rest).map fun (items, after) => (.array items, after)
    | '{' :: rest =>
      match skipBlanks rest with
      | '}' :: after => some (.object [], after)
      | _ => (takeMembers fuel rest).map fun (members, after) => (.object members, after)
    | 'n' :: rest => (afterWord? "ull".toList rest).map fun after => (.null, after)
    | 't' :: rest => (afterWord? "rue".toList rest).map fun after => (.bool true, after)
    | 'f' :: rest => (afterWord? "alse".toList rest).map fun after => (.bool false, after)
    | start =>
      (Literal.take? start).map fun (_, after) =>
        (.number (start.take (start.length - after.length)), after)

/-- The items of an array up to its closing bracket; at least one. -/
def takeItems (fuel : Nat) (input : List Char) : Option (List Json × List Char) :=
  match fuel with
  | 0 => none
  | fuel + 1 => do
    let (item, after) ← takeValue fuel input
    match skipBlanks after with
    | ']' :: rest => return ([item], rest)
    | ',' :: rest =>
      let (items, final) ← takeItems fuel rest
      return (item :: items, final)
    | _ => none

/-- The members of an object up to its closing brace; at least one. -/
def takeMembers (fuel : Nat) (input : List Char) :
    Option (List (List Char × Json) × List Char) :=
  match fuel with
  | 0 => none
  | fuel + 1 =>
    match skipBlanks input with
    | '"' :: start => do
      let (key, afterKey) ← takeString start
      match skipBlanks afterKey with
      | ':' :: afterColon =>
        let (value, after) ← takeValue fuel afterColon
        match skipBlanks after with
        | '}' :: rest => return ([(key, value)], rest)
        | ',' :: rest =>
          let (members, final) ← takeMembers fuel rest
          return ((key, value) :: members, final)
        | _ => none
      | _ => none
    | _ => none

end

/-- The document that a text is, if it is one. -/
def parse? (source : String) : Option Json :=
  let input := source.toList
  match takeValue (2 * input.length + 1) input with
  | some (document, after) => if (skipBlanks after).isEmpty then some document else none
  | none => none

end Telemetry.Json
