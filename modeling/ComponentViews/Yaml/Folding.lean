import ComponentViews.Yaml.Cursor

/-!
# White space in scalars

White space between two parts of a scalar that is not a block is kept within a line. Across lines
it is folded: one line break becomes a space, and of several the first is dropped.

## Main definitions

* `Folding`: white space between two parts of a scalar.
* `Folding.scan?`: the white space that follows.
* `Folding.text`: what it contributes to the scalar.
-/

namespace ComponentViews.Yaml

/-- White space between two parts of a scalar. -/
structure Folding where
  /-- The white space before the first line break. -/
  blanks : List Char := []
  /-- The values of the line breaks. -/
  breaks : List Char := []
  /-- Whether there is a line break, or was one before. -/
  broken : Bool := false
  deriving Repr

namespace Folding

/-- The white space with one more character at its start. -/
def addBlank (c : Char) (f : Folding) : Folding := { f with blanks := c :: f.blanks }

/-- The white space with one more line break at its start. -/
def addBreak (c : Char) (f : Folding) : Folding := { f with breaks := c :: f.breaks }

/-- The white space that follows. After a line break, a tab left of the limit is a mistake. -/
def scan? (limit : Int) (broken : Bool) (m : Mark) : List Char → Option (Folding × Cursor)
  | '\r' :: '\n' :: cs => do
    let (f, c) ← scan? limit true (m.newline ['\r', '\n']) cs
    pure (f.addBreak '\n', c)
  | b :: cs =>
    if isGap b then
      if broken then
        -- White space at the start of a line is indentation and says nothing.
        if b = '\t' ∧ m.column < limit then none else scan? limit true (m.advance [b]) cs
      else do
        let (f, c) ← scan? limit false (m.advance [b]) cs
        pure (f.addBlank b, c)
    else if isBreak b then do
      let (f, c) ← scan? limit true (m.newline [b]) cs
      pure (f.addBreak (breakValue b), c)
    else some ({ broken }, ⟨b :: cs, m⟩)
  | [] => some ({ broken }, ⟨[], m⟩)

/-- What the white space contributes to a scalar. -/
def text (f : Folding) : List Char :=
  match f.breaks with
  | [] => f.blanks
  | ['\n'] => [' ']
  | '\n' :: more => more
  | breaks => breaks

end Folding

/-- The white space that follows, where tabs may stand anywhere, and the place after it. -/
def Cursor.scanFolding (c : Cursor) (broken : Bool) : Option (Folding × Cursor) :=
  Folding.scan? (-1) broken c.mark c.rest

end ComponentViews.Yaml
