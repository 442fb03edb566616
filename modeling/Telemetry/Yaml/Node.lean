import Telemetry.Yaml.Scalar

/-!
# Documents

A document is a tree of scalars, sequences and mappings. In block style the
columns give the tree: a collection lives at the column of its first dash or
key, its parts stand further right, and it ends at the first line that stands
further left. A mapping's value may be a sequence at the mapping's own column.
In flow style brackets give the tree and columns do not matter.

Anchors, aliases, tags, directives and block scalars are not part of the format
that is read here, and a text that holds one is refused. Every call of the
reader either passes a character or hands on to a call that does, so four times
the length of the text bounds its depth.
-/
namespace Telemetry.Yaml

/-- A document or a part of one. Whether a scalar was written plainly decides
what it can be read as. -/
inductive Node where
  | scalar (plain : Bool) (text : String)
  | sequence (items : List Node)
  | mapping (entries : List (Node × Node))

/-- What stands where nothing is written. -/
def Node.nothing : Node := .scalar true ""

/-- Where the part behind an indicator of a collection at some column lies. -/
inductive Position where
  /-- The collection is over, or its next part follows. -/
  | outside
  /-- At the column of the collection itself. -/
  | level
  /-- Further right. -/
  | inside

/-- The position of a settled cursor relative to a collection. -/
def Cursor.position (column : Nat) (cursor : Cursor) : Position :=
  match cursor.rest with
  | [] => .outside
  | glyph :: rest =>
    if atEnd (glyph :: rest) ∨ glyph.column < column then .outside
    else if glyph.column = column then .level
    else .inside

/-- Whether a flow entry stops here, so that a missing part is nothing. -/
def stopsEntry (close : Char) : List Glyph → Bool
  | glyph :: _ => glyph.char == ',' || glyph.char == close
  | [] => false

mutual

/-- A scalar or a flow collection. `floor` is the least column at which a plain
scalar in a block can go on. -/
def takeLeaf (fuel : Nat) (inFlow : Bool) (floor : Nat) (cursor : Cursor) :
    Option (Node × Cursor) :=
  match fuel, cursor.rest with
  | 0, _ => none
  | _, [] => none
  | fuel + 1, glyph :: rest =>
    if atEnd (glyph :: rest) then none
    else if glyph.char = '[' then
      (takeItems fuel floor ⟨rest, true⟩).map fun (items, after) => (.sequence items, after)
    else if glyph.char = '{' then
      (takePairs fuel floor ⟨rest, true⟩).map fun (pairs, after) => (.mapping pairs, after)
    else if glyph.char = '\'' then
      (takeSingle .empty rest).map fun (text, after) => (.scalar false (String.ofList text), after)
    else if glyph.char = '"' then
      (takeDouble (.open .empty false) rest).map fun (text, after) =>
        (.scalar false (String.ofList text), after)
    else if startsPlain inFlow (glyph :: rest) then
      (takePlain inFlow floor .empty (glyph :: rest)).map fun (text, after) =>
        (.scalar true (String.ofList text), after)
    else none

/-- The value of a flow entry, if a colon stands here. -/
def takeFlowValue (fuel : Nat) (floor : Nat) (close : Char) (cursor : Cursor) :
    Option (Node × Cursor) :=
  match fuel with
  | 0 => none
  | fuel + 1 =>
    let settled := cursor.settle true
    match settled.rest with
    | [] => none
    | glyph :: _ =>
      if glyph.char = ':' then
        let behind := (settled.pass false).settle true
        if stopsEntry close behind.rest then some (.nothing, behind)
        else takeLeaf fuel true floor behind
      else some (.nothing, settled)

/-- A flow entry: its key or its only part, whether it has a key, and its
value. -/
def takeFlowEntry (fuel : Nat) (floor : Nat) (close : Char) (cursor : Cursor) :
    Option ((Node × Bool × Node) × Cursor) :=
  match fuel, cursor.rest with
  | 0, _ => none
  | _, [] => none
  | fuel + 1, glyph :: _ =>
    if glyph.char = '?' then do
      let behind := (cursor.pass false).settle true
      let (key, afterKey) ←
        if stopsEntry close behind.rest ∨ behind.rest.head?.any (·.char == ':') then
          some (Node.nothing, behind)
        else takeLeaf fuel true floor behind
      let (value, after) ← takeFlowValue fuel floor close afterKey
      return ((key, true, value), after)
    else do
      let (key, afterKey) ← takeLeaf fuel true floor cursor
      if isKey true glyph afterKey then
        let (value, after) ← takeFlowValue fuel floor close afterKey
        return ((key, true, value), after)
      else return ((key, false, .nothing), afterKey)

/-- The items of a flow sequence up to its bracket. An entry with a key is a
mapping of its own. A comma may stand behind the last item. -/
def takeItems (fuel : Nat) (floor : Nat) (cursor : Cursor) : Option (List Node × Cursor) :=
  match fuel with
  | 0 => none
  | fuel + 1 =>
    let settled := cursor.settle true
    if settled.rest.head?.any (·.char == ']') then some ([], settled.pass false)
    else do
      let ((key, keyed, value), afterEntry) ← takeFlowEntry fuel floor ']' settled
      let item := if keyed then .mapping [(key, value)] else key
      let next := afterEntry.settle true
      match next.rest with
      | glyph :: _ =>
        if glyph.char = ']' then return ([item], next.pass false)
        else if glyph.char = ',' then
          let (items, after) ← takeItems fuel floor (next.pass true)
          return (item :: items, after)
        else none
      | [] => none

/-- The entries of a flow mapping up to its brace. An entry without a colon has
nothing for its value. -/
def takePairs (fuel : Nat) (floor : Nat) (cursor : Cursor) :
    Option (List (Node × Node) × Cursor) :=
  match fuel with
  | 0 => none
  | fuel + 1 =>
    let settled := cursor.settle true
    if settled.rest.head?.any (·.char == '}') then some ([], settled.pass false)
    else do
      let ((key, _, value), afterEntry) ← takeFlowEntry fuel floor '}' settled
      let next := afterEntry.settle true
      match next.rest with
      | glyph :: _ =>
        if glyph.char = '}' then return ([(key, value)], next.pass false)
        else if glyph.char = ',' then
          let (pairs, after) ← takePairs fuel floor (next.pass true)
          return ((key, value) :: pairs, after)
        else none
      | [] => none

end

mutual

/-- A node in block style. The cursor is settled, and stands at `floor` or
further right. A collection can start only where the cursor is fresh. -/
def takeBlock (fuel : Nat) (floor : Nat) (cursor : Cursor) : Option (Node × Cursor) :=
  match fuel, cursor.rest with
  | 0, _ => none
  | _, [] => none
  | fuel + 1, glyph :: rest =>
    if isIndicator '-' (glyph :: rest) then
      if cursor.fresh then
        (takeDashes fuel glyph.column false cursor).map fun (items, after) =>
          (.sequence items, after)
      else none
    else if isIndicator '?' (glyph :: rest) then
      if cursor.fresh then
        (takeKeys fuel glyph.column cursor).map fun (entries, after) => (.mapping entries, after)
      else none
    else do
      let (leaf, after) ← takeLeaf fuel false floor cursor
      if cursor.fresh ∧ isKey false glyph after then
        let (entries, final) ← takeKeys fuel glyph.column cursor
        return (.mapping entries, final)
      else return (leaf, after)
termination_by structural fuel

/-- What stands behind a question mark or a colon of a mapping at `column`:
nothing, a sequence at that same column, or a node further right. -/
def takePart (fuel : Nat) (column : Nat) (cursor : Cursor) : Option (Node × Cursor) :=
  match fuel with
  | 0 => none
  | fuel + 1 =>
    let settled := cursor.settle false
    match settled.position column with
    | .outside => some (.nothing, settled)
    | .level =>
      if isIndicator '-' settled.rest then
        (takeDashes fuel column true settled).map fun (items, after) => (.sequence items, after)
      else some (.nothing, settled)
    | .inside => takeBlock fuel (column + 1) settled
termination_by structural fuel

/-- The items of a block sequence whose next dash stands here. A sequence that
shares the column of a mapping (`shared`) ends at the mapping's next key. -/
def takeDashes (fuel : Nat) (column : Nat) (shared : Bool) (cursor : Cursor) :
    Option (List Node × Cursor) :=
  match fuel with
  | 0 => none
  | fuel + 1 => do
    let behind := (cursor.pass true).settle false
    let (item, afterItem) ←
      match behind.position column with
      | .inside => takeBlock fuel (column + 1) behind
      | _ => some (.nothing, behind)
    let next := afterItem.settle false
    match next.position column with
    | .outside => return ([item], next)
    | .level =>
      if isIndicator '-' next.rest then
        let (items, after) ← takeDashes fuel column shared next
        return (item :: items, after)
      else if shared then return ([item], next)
      else none
    | .inside => none
termination_by structural fuel

/-- The entries of a block mapping whose next key stands here. -/
def takeKeys (fuel : Nat) (column : Nat) (cursor : Cursor) :
    Option (List (Node × Node) × Cursor) :=
  match fuel, cursor.rest with
  | 0, _ => none
  | _, [] => none
  | fuel + 1, glyph :: rest => do
    let (key, value, afterValue) ←
      if isIndicator '?' (glyph :: rest) then do
        let (key, afterKey) ← takePart fuel column (cursor.pass true)
        let settled := afterKey.settle false
        match settled.position column with
        | .level =>
          if isIndicator ':' settled.rest then
            let (value, after) ← takePart fuel column (settled.pass true)
            pure (key, value, after)
          else pure (key, Node.nothing, settled)
        | _ => pure (key, Node.nothing, settled)
      else do
        let (key, afterKey) ← takeLeaf fuel false (column + 1) cursor
        if isKey false glyph afterKey then
          let (value, after) ← takePart fuel column ((afterKey.settle false).pass false)
          pure (key, value, after)
        else none
    let next := afterValue.settle false
    match next.position column with
    | .outside => return ([(key, value)], next)
    | .level =>
      let (entries, after) ← takeKeys fuel column next
      return ((key, value) :: entries, after)
    | .inside => none
termination_by structural fuel

end

/-- Whether only end markers follow. -/
def onlyEnds (fuel : Nat) (cursor : Cursor) : Bool :=
  match fuel with
  | 0 => false
  | fuel + 1 =>
    let settled := cursor.settle false
    if settled.rest.isEmpty then true
    else if isMarker '.' settled.rest then onlyEnds fuel ⟨settled.rest.drop 3, false⟩
    else false

/-- The one document of a text. A start marker may precede it and end markers
may follow; a text without a document has none. -/
def Node.parse? (source : String) : Option Node := do
  let text ← glyphs? source
  let fuel := 4 * (text.length + 1)
  let first := (Cursor.mk text true).settle false
  let marked := isMarker '-' first.rest
  let start := if marked then (Cursor.mk (first.rest.drop 3) false).settle false else first
  let (document, after) ←
    if atEnd start.rest then
      if marked then some (Node.nothing, start) else none
    else takeBlock fuel 0 start
  if onlyEnds fuel after then return document else none

end Telemetry.Yaml
