import ComponentViews.Yaml.Cursor

/-!
# Block scalars

A block scalar consists of the lines that are indented. Its header may tell how much and what
becomes of the line breaks at the end. Its lines are kept as they are or folded.

## Main definitions

* `Chomping`, `BlockHeader`: what the header says.
* `blockHeader?`: the header that follows.
* `indentation?`: blank lines and the indentation of the line after them.
* `blockScalar?`: the scalar that follows.
-/

namespace ComponentViews.Yaml

/-- What becomes of the line breaks at the end of a block scalar. -/
inductive Chomping where
  /-- None is kept. -/
  | strip
  /-- One is kept. -/
  | clip
  /-- All are kept. -/
  | keep
  deriving DecidableEq, Repr

/-- What the header of a block scalar says. -/
structure BlockHeader where
  /-- What becomes of the line breaks at the end. -/
  chomping : Chomping := .clip
  /-- By how much lines are indented, or zero where the first line decides. -/
  increment : Nat := 0
  deriving DecidableEq, Repr

/-- The sign for what becomes of the line breaks at the end. -/
def chomping? : Char → Option Chomping
  | '-' => some .strip
  | '+' => some .keep
  | _ => none

/-- The increment that a digit stands for. -/
def increment? (c : Char) : Option Nat :=
  if c.isDigit then some (c.toNat - 48) else none

/-- The header of a block scalar, and how many characters it has. An increment is not zero. -/
def blockHeader? : List Char → Option (BlockHeader × Nat)
  | [] => some ({}, 0)
  | c :: cs =>
    let next := cs.head?
    match chomping? c, increment? c with
    -- The two signs come in either order, and either may be left out.
    | some chomping, _ =>
      match next.bind increment? with
      | some increment => if increment = 0 then none else some (⟨chomping, increment⟩, 2)
      | none => some (⟨chomping, 0⟩, 1)
    | none, some increment =>
      if increment = 0 then none
      else
        match next.bind chomping? with
        | some chomping => some (⟨chomping, increment⟩, 2)
        | none => some (⟨.clip, increment⟩, 1)
    | none, none => some ({}, 0)

/-- The place after the line of the header, where only white space and a comment may follow. -/
def endHeader? (c : Cursor) : Option Cursor :=
  let c := c.skipWhile isGap
  let c := if startsWithAny ['#'] c.rest then c.skipWhile fun x => !isBreak x else c
  if startsBreak c.rest then some c.skipBreak else none

/-- The values of the line breaks of blank lines, the greatest indentation, and the place after
the indentation of the line that is not blank. Only as many spaces as given are indentation, or all
of them for zero; a tab among them is a mistake. -/
def indentation? (indent : Nat) (m : Mark) : List Char → Option (List Char × Nat × Cursor)
  | '\r' :: '\n' :: cs => do
    let (breaks, most, c) ← indentation? indent (m.newline ['\r', '\n']) cs
    pure ('\n' :: breaks, max m.column most, c)
  | x :: cs =>
    let within : Bool := indent = 0 || m.column < indent
    if within && x = ' ' then indentation? indent (m.advance [x]) cs
    -- A tab cannot be counted as indentation.
    else if within && x = '\t' then none
    else if isBreak x then do
      let (breaks, most, c) ← indentation? indent (m.newline [x]) cs
      pure (breakValue x :: breaks, max m.column most, c)
    else some ([], m.column, ⟨x :: cs, m⟩)
  | [] => some ([], m.column, ⟨[], m⟩)

/-- The line break that follows, by its value. -/
def breakText : List Char → List Char
  | [] => []
  | c :: _ => if isBreak c then [breakValue c] else []

/-- Lines of a block scalar. -/
structure BlockLines where
  /-- The text without the line breaks at its end. -/
  text : List Char
  /-- The first line break at the end, if there is one. -/
  final : List Char
  /-- All further line breaks at the end. -/
  further : List Char
  deriving Repr

/-- What a line break and blank lines contribute before another line. Where lines are folded, a
line break between two lines that do not start with white space becomes a space if no blank line
follows, and is dropped otherwise. -/
def joinLines (literal afterGap beforeGap : Bool) (final further : List Char) : List Char :=
  if !literal && final = ['\n'] && !afterGap && !beforeGap then
    if further.isEmpty then [' '] else further
  else final ++ further

/-- The lines that follow, after a line that ends with the given line breaks, and the place after
them. -/
def blockLines? (literal : Bool) (indent : Nat) :
    Nat → Bool → List Char → List Char → Cursor → Option (BlockLines × Cursor)
  | 0, _, _, _, _ => none
  | fuel + 1, afterGap, final, further, c =>
    if c.column = indent && !c.rest.isEmpty then do
      -- What joins this line to the one before depends on the start of both.
      let gap := startsWithAny [' ', '\t'] c.rest
      let line := c.rest.takeWhile fun x => !isBreak x
      let c := c.skip line.length
      let broken := c.skipBreak
      let (breaks, _, next) ← indentation? indent broken.mark broken.rest
      let (more, last) ← blockLines? literal indent fuel gap (breakText c.rest) breaks next
      let text := joinLines literal afterGap gap final further ++ (line ++ more.text)
      pure ({ more with text }, last)
    else some (⟨[], final, further⟩, c)

/-- The value of a block scalar. -/
def BlockLines.value (b : BlockLines) : Chomping → List Char
  | .strip => b.text
  | .clip => b.text ++ b.final
  | .keep => b.text ++ (b.final ++ b.further)

/-- The block scalar after its sign within indentation of the given column, and the place after
it. -/
def blockScalar? (fuel : Nat) (literal : Bool) (outer : Int) (c : Cursor) :
    Option (List Char × Cursor) := do
  let (header, n) ← blockHeader? c.rest
  let c ← endHeader? (c.skip n)
  let known := if header.increment = 0 then 0 else outer.toNat + header.increment
  let (breaks, most, c) ← indentation? known c.mark c.rest
  -- Blank lines before the first line count if they are indented further than that line.
  let indent := if known = 0 then max (max most (outer + 1).toNat) 1 else known
  let (lines, c) ← blockLines? literal indent fuel false [] breaks c
  pure (lines.value header.chomping, c)

end ComponentViews.Yaml
