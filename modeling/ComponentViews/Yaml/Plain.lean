import ComponentViews.Yaml.Folding

/-!
# Plain scalars

A scalar without quotation marks goes on over several lines while they are indented enough. It ends
at a colon before white space, at a number sign after white space, and between brackets also at a
comma or a bracket.

## Main definitions

* `plainPart?`: the part of a scalar up to white space or its end.
* `plainScalar?`: the scalar that follows.
-/

namespace ComponentViews.Yaml

/-- The signs that end a plain scalar between brackets. -/
def flowSigns : List Char := [',', '[', ']', '\x7b', '\x7d']

/-- Whether a plain scalar ends before a character, given what follows it. -/
def endsPlain (inFlow : Bool) (c : Char) (cs : List Char) : Bool :=
  (c = ':' && startsGap cs) || (inFlow && flowSigns.contains c)

/-- The part of a plain scalar up to white space or the end of the scalar, and the text after it.
Between brackets, a colon before a sign is a mistake. -/
def plainPart? (inFlow : Bool) : List Char → Option (List Char × List Char)
  | [] => some ([], [])
  | c :: cs =>
    if isGap c || isBreak c then some ([], c :: cs)
    else if inFlow && c = ':' && startsWithAny ('?' :: flowSigns) cs then none
    else if endsPlain inFlow c cs then some ([], c :: cs)
    else do
      let (part, rest) ← plainPart? inFlow cs
      pure (c :: part, rest)

/-- The rest of a plain scalar after some white space, whether it ends after a line break, and the
place after it. Except between brackets, lines have to start at the given column or further
right. -/
def plainRest? (inFlow : Bool) (indent : Int) :
    Nat → Folding → Cursor → Option (List Char × Bool × Cursor)
  | 0, _, _ => none
  | fuel + 1, f, c =>
    -- A number sign can only follow white space here, so a comment starts.
    if c.atDocumentMarker || startsWithAny ['#'] c.rest then some ([], f.broken, c)
    else do
      let (part, rest) ← plainPart? inFlow c.rest
      let after : Cursor := ⟨rest, c.mark.advance part⟩
      let text := if part.isEmpty then [] else f.text ++ part
      let broken := part.isEmpty && f.broken
      if rest.isEmpty || !startsGap rest then pure (text, broken, after)
      else
        let (g, next) ← Folding.scan? indent false after.mark rest
        -- The white space after the last part is not part of the scalar.
        if !inFlow && next.column < indent then pure (text, g.broken, next)
        else
          let (more, broken, last) ← plainRest? inFlow indent fuel g next
          pure (text ++ more, broken, last)

/-- The plain scalar that follows, whether it ends after a line break, and the place after it. -/
def plainScalar? (fuel : Nat) (inFlow : Bool) (indent : Int) (c : Cursor) :
    Option (List Char × Bool × Cursor) :=
  plainRest? inFlow indent fuel {} c

end ComponentViews.Yaml
