/-!
# JSON documents

A document is kept by its structure, with the text of its leaves as it stands: a
number is its digits, a string the characters between its quotes. Writing a
document is then only laying out; what a leaf means is decided where it is read.
Written documents are compact, without blanks.
-/
namespace Telemetry

/-- The structure of a JSON document. -/
inductive Json where
  | null
  | bool (value : Bool)
  | number (literal : List Char)
  | string (literal : List Char)
  | array (items : List Json)
  | object (members : List (List Char × Json))

namespace Json

/-- A string literal with its quotes. -/
def quote (literal : List Char) : List Char := '"' :: literal ++ ['"']

mutual

/-- The text of a document. -/
def chars : Json → List Char
  | null => "null".toList
  | bool true => "true".toList
  | bool false => "false".toList
  | number literal => literal
  | string literal => quote literal
  | array items => '[' :: itemChars items ++ [']']
  | object members => '{' :: memberChars members ++ ['}']

/-- The items of an array, with commas between them. -/
def itemChars : List Json → List Char
  | [] => []
  | [item] => item.chars
  | item :: next :: rest => item.chars ++ ',' :: itemChars (next :: rest)

/-- The members of an object, with commas between them. -/
def memberChars : List (List Char × Json) → List Char
  | [] => []
  | [(key, value)] => quote key ++ ':' :: value.chars
  | (key, value) :: next :: rest =>
    quote key ++ ':' :: value.chars ++ ',' :: memberChars (next :: rest)

end

/-- The text of a document. -/
def compact (document : Json) : String := String.ofList document.chars

end Json

end Telemetry
