import ComponentViews.Text.Digits
import ComponentViews.Yaml.Folding

/-!
# Quoted scalars

A scalar between single quotation marks has no escapes but the mark written twice. Between double
quotation marks a reversed solidus escapes: it stands before a letter for a character, before the
number of a character, or before a line break that is not part of the scalar.

## Main definitions

* `QuotedPart`: a part of a scalar without white space.
* `singlePart`, `doublePart?`: the part that follows.
* `quotedScalar?`: the scalar that follows.
-/

namespace ComponentViews.Yaml

/-- A part of a quoted scalar up to white space, an escaped line break, or the end. -/
structure QuotedPart where
  /-- The value of the part. -/
  text : List Char := []
  /-- How many characters the part has. -/
  length : Nat := 0
  deriving Repr

/-- The part with one more character at its start, which is written with `n` characters. -/
def QuotedPart.add (c : Char) (n : Nat) (p : QuotedPart) : QuotedPart :=
  ⟨c :: p.text, p.length + n⟩

/-- The part that follows between single quotation marks. -/
def singlePart : List Char → QuotedPart
  | '\'' :: '\'' :: cs => (singlePart cs).add '\'' 2
  | [] => {}
  | c :: cs => if c = '\'' || isGap c || isBreak c then {} else (singlePart cs).add c 1

/-- The characters that are escaped by one letter or sign. -/
def escapes : List (Char × Char) :=
  [('0', '\x00'), ('a', '\x07'), ('b', '\x08'), ('t', '\t'), ('\t', '\t'), ('n', '\n'),
   ('v', '\x0b'), ('f', '\x0c'), ('r', '\r'), ('e', '\x1b'), (' ', ' '), ('"', '"'), ('/', '/'),
   ('\\', '\\'), ('N', '\u0085'), ('_', '\u00a0'), ('L', '\u2028'), ('P', '\u2029')]

/-- The character with a number in hexadecimal digits, if there is one. -/
def charOfHex? (digits : List Char) : Option Char := do
  let n ← hexNumber? 0 digits
  if h : n.isValidChar then some (Char.ofNatAux n h) else none

/-- The part that follows between double quotation marks. -/
def doublePart? : List Char → Option QuotedPart
  | [] => some {}
  | '\\' :: [] => none
  | '\\' :: 'x' :: a :: b :: cs => do
    let c ← charOfHex? [a, b]
    let p ← doublePart? cs
    pure (p.add c 4)
  | '\\' :: 'u' :: a :: b :: c :: d :: cs => do
    let x ← charOfHex? [a, b, c, d]
    let p ← doublePart? cs
    pure (p.add x 6)
  | '\\' :: 'U' :: a :: b :: c :: d :: e :: f :: g :: h :: cs => do
    let x ← charOfHex? [a, b, c, d, e, f, g, h]
    let p ← doublePart? cs
    pure (p.add x 10)
  -- A line break after the reversed solidus is left to what comes after the part.
  | '\\' :: e :: cs =>
    if isBreak e then some {}
    else
      match escapes.find? fun entry => entry.1 = e with
      | some (_, c) => do
        let p ← doublePart? cs
        pure (p.add c 2)
      | none => none
  | c :: cs =>
    if c = '"' || isGap c || isBreak c then some {}
    else do
      let p ← doublePart? cs
      pure (p.add c 1)

/-- The rest of a quoted scalar, and the place after it. -/
def quotedRest? (double : Bool) : Nat → Cursor → Option (List Char × Cursor)
  | 0, _ => none
  | fuel + 1, c =>
    if c.atDocumentMarker then none
    else do
      let part ← if double then doublePart? c.rest else some (singlePart c.rest)
      let c := c.skip part.length
      match c.rest with
      | [] => none
      -- The part ended at an escaped line break: blanks after it are dropped, breaks are kept.
      | '\\' :: _ =>
        let (f, c) ← (c.skip 1).skipBreak.scanFolding true
        let (more, c) ← quotedRest? double fuel c
        pure (part.text ++ (f.breaks ++ more), c)
      | x :: _ =>
        if x = (if double then '"' else '\'') then pure (part.text, c.skip 1)
        else
          let (f, c) ← c.scanFolding false
          let (more, c) ← quotedRest? double fuel c
          pure (part.text ++ (f.text ++ more), c)

/-- The quoted scalar after its first quotation mark, and the place after it. -/
def quotedScalar? (fuel : Nat) (double : Bool) (c : Cursor) : Option (List Char × Cursor) :=
  quotedRest? double fuel c

end ComponentViews.Yaml
