/-!
# The lines of an exposition

An exposition is a text in which every row ends with a line feed. A header opens
a family and the rows of its series follow. A row is one line unless a name in
it holds a line feed, since names are written as they are.

Series have no order of their own, so the finished lines are ordered: those
below a header are taken in groups, as many lines to a group as a series has
rows, and the groups are ordered by their text. Headers stay where they are.
-/
namespace Telemetry.Metering

/-- Take a text apart at its line feeds. A carriage return in front of a line
feed belongs to the line end, and behind the last line feed no line starts. -/
def splitLines : List Char → List (List Char)
  | [] => []
  | '\n' :: rest => [] :: splitLines rest
  | '\r' :: '\n' :: rest => [] :: splitLines rest
  | c :: rest =>
    match splitLines rest with
    | [] => [[c]]
    | line :: later => (c :: line) :: later

/-- The lines of one row, with the line feed that ends it. -/
def rowLines (row : String) : List String :=
  (splitLines (row.toList ++ ['\n'])).map String.ofList

/-- The header of a family. -/
def header (name type : String) : String := "# TYPE " ++ name ++ " " ++ type

/-- Whether a line reads as a header. -/
def isHeader (line : String) : Bool := "# TYPE ".toList.isPrefixOf line.toList

/-- The lines in front of the first header, and each header with the lines below
it. -/
def sections : List String → List String × List (String × List String)
  | [] => ([], [])
  | line :: rest =>
    let (body, later) := sections rest
    if isHeader line then ([], (line, body) :: later) else (line :: body, later)

/-- Groups of `height` lines. The last one may be smaller. -/
def groups (height : Nat) : List String → List (List String)
  | [] => []
  | line :: rest =>
    (line :: rest.take (height - 1)) :: groups height (rest.drop (height - 1))
termination_by lines => lines.length
decreasing_by
  rw [List.length_drop]
  exact Nat.lt_succ_of_le (Nat.sub_le _ _)

/-- The text of a group. -/
def groupText (group : List String) : String := String.intercalate "\n" group

/-- Lines with their groups ordered by text. -/
def orderGroups (height : Nat) (lines : List String) : List String :=
  ((groups height lines).mergeSort fun left right =>
    !decide (groupText right < groupText left)).flatten

/-- Rows as ordered lines. -/
def arrange (height : Nat) (rows : List String) : List String :=
  let (front, later) := sections (rows.flatMap rowLines)
  orderGroups height front ++ later.flatMap fun (line, body) => line :: orderGroups height body

end Telemetry.Metering
