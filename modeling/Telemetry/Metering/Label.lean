/-!
# Labels and series

A series is a metric's name with labels in braces. Labels are pairs of texts; in
which order they are given does not matter, because a key holds them sorted. In
a label's value backslashes, quotes and line feeds are escaped, so that a value
never breaks a line and can be taken apart again. Names are written as they are.
-/
namespace Telemetry.Metering

/-- A name and a value. -/
abbrev Label := String × String

namespace Label

/-- Labels are ordered by name, then by value. -/
def le (left right : Label) : Bool :=
  decide (left.1 < right.1 ∨ (left.1 = right.1 ∧ ¬ right.2 < left.2))

/-- How one character of a value is written. -/
def escapeChar (c : Char) : List Char :=
  if c = '\\' then ['\\', '\\']
  else if c = '"' then ['\\', '"']
  else if c = '\n' then ['\\', 'n']
  else [c]

/-- A value between its quotes. -/
def escape (value : String) : String := String.ofList (value.toList.flatMap escapeChar)

/-- A label as it is written. -/
def text (label : Label) : String := label.1 ++ "=\"" ++ escape label.2 ++ "\""

end Label

/-- The labels of a series, sorted. -/
abbrev Key := List Label

namespace Key

/-- The key of a set of labels. -/
def ofLabels (labels : List Label) : Key := labels.mergeSort Label.le

/-- The labels with commas between them. -/
def text (key : Key) : String := String.intercalate "," (key.map Label.text)

/-- The name of a series. Without labels there are no braces. -/
def series (name : String) (key : Key) : String :=
  if key.isEmpty then name else name ++ "\x7b" ++ key.text ++ "\x7d"

end Key

end Telemetry.Metering
