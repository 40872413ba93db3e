import ComponentViews.Text.Digits

/-!
# White space and strings of TOML

Strings between double quotation marks have escapes, those between single quotation marks have
none. With three marks on either side a string may have several lines, and up to two marks may
stand side by side in it, also before the last three.

## Main definitions

* `skipBlank`, `newline?`, `endLine?`, `skipLines?`: what stands between the parts of a text.
* `basicString?`, `literalString?`: strings on a line.
* `basicLines?`, `literalLines?`: strings of several lines.
* `string?`: the string that follows.
-/

namespace ComponentViews.Toml

/-! ## White space -/

/-- Whether a character is white space within a line. -/
def isGap (c : Char) : Bool := c = ' ' || c = '\t'

/-- Whether a character may stand in a comment or, apart from its marks, in a string. -/
def isText (c : Char) : Bool := c = '\t' || (0x20 ≤ c.toNat && c.toNat ≠ 0x7F)

/-- The text after white space. -/
def skipBlank (cs : List Char) : List Char := cs.dropWhile isGap

/-- The text after a line break. -/
def newline? : List Char → Option (List Char)
  | '\n' :: cs => some cs
  | '\r' :: '\n' :: cs => some cs
  | _ => none

/-- The text after a comment, if one follows. -/
def skipComment : List Char → List Char
  | '#' :: cs => cs.dropWhile isText
  | cs => cs

/-- The text after the end of a line, before which white space and a comment may stand. -/
def endLine? (cs : List Char) : Option (List Char) :=
  match skipComment (skipBlank cs) with
  | [] => some []
  | cs => newline? cs

/-- The text after white space, comments and line breaks. -/
def skipLines? : Nat → List Char → Option (List Char)
  | 0, _ => none
  | fuel + 1, cs =>
    match skipBlank cs with
    | [] => some []
    | c :: cs =>
      if c = '#' ∨ c = '\n' ∨ c = '\r' then (endLine? (c :: cs)).bind (skipLines? fuel)
      else some (c :: cs)

/-! ## Strings -/

/-- The characters that are escaped by one letter. -/
def escapes : List (Char × Char) :=
  [('b', '\x08'), ('t', '\t'), ('n', '\n'), ('f', '\x0c'), ('r', '\r'), ('"', '"'), ('\\', '\\')]

/-- The character with a number in hexadecimal digits, if there is one. -/
def charOfHex? (digits : List Char) : Option Char := do
  let n ← hexNumber? 0 digits
  if h : n.isValidChar then some (Char.ofNatAux n h) else none

/-- The character of an escape after its reversed solidus, and the text after it. -/
def escape? : List Char → Option (Char × List Char)
  | 'u' :: a :: b :: c :: d :: cs => (charOfHex? [a, b, c, d]).map fun x => (x, cs)
  | 'U' :: a :: b :: c :: d :: e :: f :: g :: h :: cs =>
    (charOfHex? [a, b, c, d, e, f, g, h]).map fun x => (x, cs)
  | e :: cs => (escapes.lookup e).map fun x => (x, cs)
  | [] => none

/-- The rest of a string between double quotation marks, and the text after it. -/
def basicString? : Nat → List Char → Option (List Char × List Char)
  | 0, _ => none
  | _ + 1, [] => none
  | _ + 1, '"' :: cs => some ([], cs)
  | fuel + 1, '\\' :: cs => do
    let (x, cs) ← escape? cs
    let (more, cs) ← basicString? fuel cs
    pure (x :: more, cs)
  | fuel + 1, c :: cs =>
    if isText c then do
      let (more, cs) ← basicString? fuel cs
      pure (c :: more, cs)
    else none

/-- The rest of a string between single quotation marks, and the text after it. -/
def literalString? : List Char → Option (List Char × List Char)
  | [] => none
  | c :: cs =>
    if c = '\'' then some ([], cs)
    else if isText c then do
      let (more, cs) ← literalString? cs
      pure (c :: more, cs)
    else none

/-- The quotation marks of the string that stand before the three marks at its end, and the text
after those, if that many marks follow. -/
def closing? (mark : Char) (cs : List Char) : Option (List Char × List Char) :=
  let n := min (cs.takeWhile (· = mark)).length 5
  if 3 ≤ n then some (List.replicate (n - 3) mark, cs.drop n) else none

/-- The text after white space and line breaks. -/
def skipBreaks : List Char → List Char
  | '\r' :: '\n' :: cs => skipBreaks cs
  | c :: cs => if isGap c || c = '\n' then skipBreaks cs else c :: cs
  | [] => []

/-- The rest of a string of several lines between double quotation marks, and the text after it. A
reversed solidus at the end of a line takes away the white space and line breaks after it. -/
def basicLines? : Nat → List Char → Option (List Char × List Char)
  | 0, _ => none
  | fuel + 1, cs =>
    match closing? '"' cs, newline? cs, cs with
    | some closed, _, _ => some closed
    | none, some cs, _ => do
      let (more, cs) ← basicLines? fuel cs
      pure ('\n' :: more, cs)
    -- White space may stand between the reversed solidus and the end of its line.
    | none, none, '\\' :: cs =>
      match newline? (skipBlank cs) with
      | some cs => basicLines? fuel (skipBreaks cs)
      | none => do
        let (x, cs) ← escape? cs
        let (more, cs) ← basicLines? fuel cs
        pure (x :: more, cs)
    | none, none, c :: cs =>
      if isText c then do
        let (more, cs) ← basicLines? fuel cs
        pure (c :: more, cs)
      else none
    | none, none, [] => none

/-- The rest of a string of several lines between single quotation marks, and the text after
it. -/
def literalLines? : Nat → List Char → Option (List Char × List Char)
  | 0, _ => none
  | fuel + 1, cs =>
    match closing? '\'' cs, newline? cs, cs with
    | some closed, _, _ => some closed
    | none, some cs, _ => do
      let (more, cs) ← literalLines? fuel cs
      pure ('\n' :: more, cs)
    | none, none, c :: cs =>
      if isText c then do
        let (more, cs) ← literalLines? fuel cs
        pure (c :: more, cs)
      else none
    | none, none, [] => none

/-- The text after a line break, if one follows. -/
def dropNewline (cs : List Char) : List Char := (newline? cs).getD cs

/-- The string that follows, and the text after it. Of a string of several lines, a line break at
its start is no part. -/
def string? (cs : List Char) : Option (List Char × List Char) :=
  let fuel := cs.length + 1
  match cs with
  | '"' :: '"' :: '"' :: cs => basicLines? fuel (dropNewline cs)
  | '\'' :: '\'' :: '\'' :: cs => literalLines? fuel (dropNewline cs)
  | '"' :: cs => basicString? fuel cs
  | '\'' :: cs => literalString? cs
  | _ => none

/-- The string on a line that follows, and the text after it. -/
def lineString? (cs : List Char) : Option (List Char × List Char) :=
  match cs with
  | '"' :: cs => basicString? (cs.length + 1) cs
  | '\'' :: cs => literalString? cs
  | _ => none

end ComponentViews.Toml
