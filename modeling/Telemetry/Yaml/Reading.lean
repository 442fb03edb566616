import Telemetry.Number.Literal
import Telemetry.Yaml.Node

/-!
# What a node can be read as

Any scalar is a text. Numbers, truth values and null are plain scalars in one of
their spellings; quotes always make a text. A record is a mapping in which every
key is one of the record's fields and none occurs twice. Where a collection is
expected, a plain scalar without text stands for an empty one.
-/
namespace Telemetry.Yaml.Node

open Telemetry.Number

/-- Any scalar, as written. -/
def text? : Node → Option String
  | scalar _ text => some text
  | _ => none

/-- A scalar that was written plainly. -/
def plain? : Node → Option String
  | scalar true text => some text
  | _ => none

/-- The spellings of truth. -/
def bool? (node : Node) : Option Bool := do
  let text ← node.plain?
  if ["true", "True", "TRUE"].contains text then return true
  else if ["false", "False", "FALSE"].contains text then return false
  else none

/-- The spellings of nothing. -/
def isNull : Node → Bool
  | scalar true text => ["", "~", "null", "Null", "NULL"].contains text
  | _ => false

/-- Something, or nothing. -/
def optional? {α : Type} (read : Node → Option α) (node : Node) : Option (Option α) :=
  if node.isNull then some none else (read node).map some

/-- The input after a plus sign, which no other sign may follow. -/
def afterPlus : List Char → Option (List Char)
  | '+' :: rest => if rest.head? = some '+' ∨ rest.head? = some '-' then none else some rest
  | input => some input

/-- A decimal literal within range, or one of the words for NaN and the
infinities. -/
def float? (node : Node) : Option Float := do
  let text ← node.plain?
  let unsigned ← afterPlus text.toList
  if [".inf", ".Inf", ".INF"].contains (String.ofList unsigned) then return 1.0 / 0.0
  else if ["-.inf", "-.Inf", "-.INF"].contains text then return -1.0 / 0.0
  else if [".nan", ".NaN", ".NAN"].contains text then return 0.0 / 0.0
  else
    let value ← readLiteral? unsigned
    if value.isFinite then return value else none

/-- The value of a digit in bases up to sixteen. -/
def digitValue? (base : Nat) (c : Char) : Option Nat :=
  match Hexadecimal.value? c with
  | some value => if value < base then some value else none
  | none => none

/-- The value of a run of digits in a base; there must be one. -/
def digits? (base : Nat) (digits : List Char) : Option Nat :=
  if digits.isEmpty then none
  else
    digits.foldl
      (fun value digit => do return base * (← value) + (← digitValue? base digit)) (some 0)

/-- A whole number below a limit: decimal without leading zeros, or with a mark
for another base. -/
def unsigned? (limit : Nat) (node : Node) : Option Nat := do
  let text ← node.plain?
  let unsigned ← afterPlus text.toList
  let value ←
    match unsigned with
    | '0' :: 'x' :: digits => digits? 16 digits
    | '0' :: 'o' :: digits => digits? 8 digits
    | '0' :: 'b' :: digits => digits? 2 digits
    | '0' :: _ :: _ => none
    | digits => digits? 10 digits
  if value < limit then return value else none

/-- A scalar that is one of a set of names. -/
def choice? {α : Type} (ofName? : String → Option α) (node : Node) : Option α :=
  node.text?.bind ofName?

/-- Read every node of a list. -/
def readAll {α : Type} (read : Node → Option α) : List Node → Option (List α)
  | [] => some []
  | node :: rest => do return (← read node) :: (← readAll read rest)

/-- A sequence of things of one kind. -/
def list? {α : Type} (read : Node → Option α) : Node → Option (List α)
  | sequence items => readAll read items
  | scalar true "" => some []
  | _ => none

/-- The entries of a mapping by the texts of their keys. -/
def keyed? : List (Node × Node) → Option (List (String × Node))
  | [] => some []
  | (key, value) :: rest => do return (← key.text?, value) :: (← keyed? rest)

/-- The fields of a record with their values. -/
def fields? (known : List String) (node : Node) : Option (List (String × Node)) := do
  let entries ←
    match node with
    | mapping entries => keyed? entries
    | scalar true "" => some []
    | _ => none
  let names := entries.map Prod.fst
  if names.Nodup ∧ names.all known.contains then return entries else none

/-- A field that must be there. -/
def required? {α : Type} (fields : List (String × Node)) (name : String)
    (read : Node → Option α) : Option α :=
  (fields.lookup name).bind read

/-- A field with a value to fall back on when it is left out. -/
def orElse? {α : Type} (fields : List (String × Node)) (name : String) (fallback : α)
    (read : Node → Option α) : Option α :=
  match fields.lookup name with
  | some node => read node
  | none => some fallback

end Telemetry.Yaml.Node
