/-!
# Characters with their places

Indentation gives structure in YAML, so the reader never looks at a bare
character: a `Glyph` knows its line, its column and its index in the text.
Carriage returns and the next-line character are made plain line feeds first,
and a text with a character outside the printable set is refused as a whole.

A `Cursor` is what remains of the text together with one bit of context: whether
a new key or list item may start here. Blanks, comments and line ends between
the parts of a document are skipped by `Cursor.settle`, and so is a byte order
mark at the start of a line.
-/
namespace Telemetry.Yaml

/-- A line feed or one of the two Unicode separators. -/
def isBreak (c : Char) : Bool := c == '\n' || c == '\u2028' || c == '\u2029'

/-- A blank inside a line. -/
def isBlank (c : Char) : Bool := c == ' ' || c == '\t'

/-- The characters that a text may hold. -/
def isAllowed (c : Char) : Bool :=
  c == '\t' || c == '\n' || c == '\r' || (' ' ≤ c && c ≤ '~') || c == '\u0085' ||
    ('\u00a0' ≤ c && c ≤ '\ufffd') || 0x10000 ≤ c.toNat

/-- Write every line end but the two separators as a line feed. -/
def unifyBreaks : List Char → List Char
  | '\r' :: '\n' :: rest => '\n' :: unifyBreaks rest
  | c :: rest => (if c = '\r' ∨ c = '\u0085' then '\n' else c) :: unifyBreaks rest
  | [] => []

/-- A character and where it stands. -/
structure Glyph where
  char : Char
  line : Nat
  column : Nat
  index : Nat
deriving DecidableEq, Repr

/-- Number the characters of a text from a given place on. -/
def locate (line column index : Nat) : List Char → List Glyph
  | [] => []
  | c :: rest =>
    ⟨c, line, column, index⟩ ::
      if isBreak c then locate (line + 1) 0 (index + 1) rest
      else locate line (column + 1) (index + 1) rest

/-- The glyphs of a text, if every character is allowed. -/
def glyphs? (source : String) : Option (List Glyph) :=
  let text := source.toList
  if text.all isAllowed then some (locate 0 0 0 (unifyBreaks text)) else none

/-- Whether a word ends here: at a blank, a line end or the end of the text. -/
def endsWord : List Glyph → Bool
  | [] => true
  | glyph :: _ => isBlank glyph.char || isBreak glyph.char

/-- The three characters of a document marker at the start of a line. -/
def isMarker (mark : Char) : List Glyph → Bool
  | a :: b :: c :: rest =>
    a.column == 0 && a.char == mark && b.char == mark && c.char == mark && endsWord rest
  | _ => false

/-- Whether the document ends here. -/
def atEnd (rest : List Glyph) : Bool := rest.isEmpty || isMarker '-' rest || isMarker '.' rest

/-- Whether an indicator stands here: the character itself, with its word ending
behind it. -/
def isIndicator (mark : Char) : List Glyph → Bool
  | glyph :: rest => glyph.char == mark && endsWord rest
  | [] => false

/-- What remains of a text, and whether a key or item may start here. -/
structure Cursor where
  rest : List Glyph
  fresh : Bool

/-- Whether a byte order mark opens a line here. It may do so in front of any
line, not of the first alone, and takes up a column like a blank. Elsewhere the
character is an ordinary one. -/
def Glyph.opensLine (glyph : Glyph) : Bool := glyph.column == 0 && glyph.char == '\ufeff'

/-- Skip blanks, comments and line ends. In a block a line end makes the cursor
fresh, and a tab may not stand where structure could start. -/
def settleFrom (inFlow fresh inComment : Bool) : List Glyph → Cursor
  | [] => ⟨[], fresh⟩
  | glyph :: rest =>
    if isBreak glyph.char then settleFrom inFlow (fresh || !inFlow) false rest
    else if inComment then settleFrom inFlow fresh true rest
    else if glyph.opensLine then settleFrom inFlow fresh false rest
    else if glyph.char = ' ' ∨ (glyph.char = '\t' ∧ (inFlow ∨ ¬ fresh)) then
      settleFrom inFlow fresh false rest
    else if glyph.char = '#' then settleFrom inFlow fresh true rest
    else ⟨glyph :: rest, fresh⟩

/-- The next character that matters. -/
def Cursor.settle (inFlow : Bool) (cursor : Cursor) : Cursor :=
  settleFrom inFlow cursor.fresh false cursor.rest

/-- Pass one character; whether a key or item may follow is for the caller to
say. -/
def Cursor.pass (fresh : Bool) (cursor : Cursor) : Cursor := ⟨cursor.rest.tail, fresh⟩

/-- How far a key may reach before its colon. -/
def longestKey : Nat := 1024

/-- Whether a colon follows that makes a key of what was read since `start`: on
the same line and not too far. In a flow collection the colon needs nothing
behind it. -/
def isKey (inFlow : Bool) (start : Glyph) (after : Cursor) : Bool :=
  let settled := (after.settle inFlow).rest
  match settled with
  | colon :: _ =>
    (isIndicator ':' settled || (inFlow && colon.char == ':')) && colon.line == start.line &&
      colon.index ≤ start.index + longestKey
  | [] => false

end Telemetry.Yaml
