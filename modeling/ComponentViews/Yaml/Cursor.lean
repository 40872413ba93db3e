/-!
# Places in a YAML text

A cursor is a place in a text: the characters that follow, how many bytes come before, the line,
and the column. Line breaks are those of the carriage return, the line feed, both together, and
three characters beyond ASCII.

## Main definitions

* `isBreak`, `isGap`, `isReadable`: classes of characters.
* `Mark`, `Cursor`: places.
* `Cursor.skip`, `Cursor.skipWhile`, `Cursor.skipBreak`: places further on.
* `startsGap`, `isDocumentMarker`: what follows.
-/

namespace ComponentViews.Yaml

/-! ## Characters -/

/-- Whether a character breaks a line. -/
def isBreak (c : Char) : Bool :=
  c = '\n' || c = '\r' || c = '\u0085' || c = '\u2028' || c = '\u2029'

/-- Whether a character is white space within a line. -/
def isGap (c : Char) : Bool := c = ' ' || c = '\t'

/-- Whether a character may stand in a text. -/
def isReadable (c : Char) : Bool :=
  let n := c.toNat
  n = 0x09 || n = 0x0A || n = 0x0D || (0x20 ≤ n && n ≤ 0x7E) || n = 0x85 ||
    (0xA0 ≤ n && n ≤ 0xFFFD) || 0x10000 ≤ n

/-- Whether a character may stand in a name of an anchor or of a directive. -/
def isNameChar (c : Char) : Bool := c.isAlphanum || c = '-' || c = '_'

/-- Whether white space, a line break or the end follows. -/
def startsGap : List Char → Bool
  | [] => true
  | c :: _ => isGap c || isBreak c

/-- Whether a line break or the end follows. -/
def startsBreak : List Char → Bool
  | [] => true
  | c :: _ => isBreak c

/-- Whether one of the given characters follows. -/
def startsWithAny (set : List Char) : List Char → Bool
  | [] => false
  | c :: _ => set.contains c

/-- Whether the sign between documents follows, if this is the start of a line. -/
def isDocumentMarker : List Char → Bool
  | '-' :: '-' :: '-' :: cs => startsGap cs
  | '.' :: '.' :: '.' :: cs => startsGap cs
  | _ => false

/-- The character that a line break contributes to a scalar. -/
def breakValue (c : Char) : Char :=
  if c = '\u2028' ∨ c = '\u2029' then c else '\n'

/-! ## Cursors -/

/-- How many bytes some characters have. -/
def byteCount (cs : List Char) : Nat := cs.foldl (fun n c => n + c.utf8Size) 0

/-- A place in a text. -/
structure Mark where
  /-- How many bytes come before. -/
  index : Nat := 0
  /-- How many lines come before. -/
  line : Nat := 0
  /-- How many characters of the line come before. -/
  column : Nat := 0
  deriving DecidableEq, Repr

/-- The place after some characters of the line. -/
def Mark.advance (m : Mark) (passed : List Char) : Mark :=
  { m with index := m.index + byteCount passed, column := m.column + passed.length }

/-- The place after the characters of a line break. -/
def Mark.newline (m : Mark) (passed : List Char) : Mark :=
  { index := m.index + byteCount passed, line := m.line + 1, column := 0 }

/-- A place in a text with the text that follows. -/
structure Cursor where
  /-- The characters that follow. -/
  rest : List Char
  /-- The place. -/
  mark : Mark := {}
  deriving Repr

namespace Cursor

/-- The column. -/
def column (c : Cursor) : Nat := c.mark.column

/-- Pass some characters of the line. -/
def skip (c : Cursor) (n : Nat) : Cursor := ⟨c.rest.drop n, c.mark.advance (c.rest.take n)⟩

/-- Pass characters of the line while they are of a class. -/
def skipWhile (c : Cursor) (p : Char → Bool) : Cursor := c.skip (c.rest.takeWhile p).length

/-- Pass a line break if one follows. -/
def skipBreak (c : Cursor) : Cursor :=
  match c.rest with
  | '\r' :: '\n' :: cs => ⟨cs, c.mark.newline ['\r', '\n']⟩
  | b :: cs => if isBreak b then ⟨cs, c.mark.newline [b]⟩ else c
  | [] => c

/-- Whether this is the start of a line with the sign between documents. -/
def atDocumentMarker (c : Cursor) : Bool := c.column = 0 && isDocumentMarker c.rest

end Cursor

end ComponentViews.Yaml
