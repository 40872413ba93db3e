import ComponentViews.Text.Digits
import ComponentViews.Yaml.Cursor
import ComponentViews.Yaml.Tag

/-!
# Names and tags of nodes

A node may have a name, by which others refer to it, and a tag. A tag is written in full between
angle brackets or begins with an abbreviation between exclamation marks. Bytes of a tag may be
escaped by their numbers.

## Main definitions

* `nodeName?`: the name of a node or of a reference.
* `tagHandle?`, `tagText?`: an abbreviation, and the bytes of a tag.
* `tagProperty?`: the tag of a node.
-/

namespace ComponentViews.Yaml

/-- The name that follows, and the place after it. Only white space or some signs may follow the
name. -/
def nodeName? (c : Cursor) : Option (List Char × Cursor) :=
  let name := c.rest.takeWhile isNameChar
  let after := c.skip name.length
  let ends := ['?', ':', ',', ']', '\x7d', '%', '@', '\x60']
  if !name.isEmpty && (startsGap after.rest || startsWithAny ends after.rest) then
    some (name, after)
  else none

/-- Whether a character may stand in a tag. Some signs may do so only where the tag is not ended by
brackets around it. -/
def isTagChar (inFull : Bool) (c : Char) : Bool :=
  isNameChar c ||
    [';', '/', '?', ':', '@', '&', '=', '+', '$', '.', '%', '!', '~', '*', '\'', '(', ')'].contains
      c || (inFull && [',', '[', ']'].contains c)

/-- The byte that an escape stands for: two hexadecimal digits after a percent sign. -/
def escapedByte? : List Char → Option (Nat × List Char)
  | '%' :: a :: b :: cs => (hexNumber? 0 [a, b]).map fun n => (n, cs)
  | _ => none

/-- How many bytes come after the first byte of a character. -/
def furtherBytes? (byte : Nat) : Option Nat :=
  if byte < 0x80 then some 0
  else if byte / 32 = 6 then some 1
  else if byte / 16 = 14 then some 2
  else if byte / 8 = 30 then some 3
  else none

/-- The bytes of a tag that follow, given how many of them the current character still takes, and
the text after them. The bytes of a character are escaped one after the other. -/
def tagBytes? (inFull : Bool) : Nat → Nat → List Char → Option (List UInt8 × List Char)
  | 0, _, _ => none
  -- A further byte of a character has to follow, escaped as well.
  | fuel + 1, pending + 1, cs => do
    let (byte, cs) ← escapedByte? cs
    if byte / 64 ≠ 2 then none
    else
      let (more, rest) ← tagBytes? inFull fuel pending cs
      pure (.ofNat byte :: more, rest)
  | _ + 1, 0, [] => some ([], [])
  | fuel + 1, 0, c :: cs =>
    if !isTagChar inFull c then some ([], c :: cs)
    else if c = '%' then do
      let (byte, cs) ← escapedByte? (c :: cs)
      let (more, rest) ← tagBytes? inFull fuel (← furtherBytes? byte) cs
      pure (.ofNat byte :: more, rest)
    else do
      let (more, rest) ← tagBytes? inFull fuel 0 cs
      pure (Tag.bytesOf [c] ++ more, rest)

/-- The bytes of a tag that follow, and the place after them. -/
def tagText? (inFull : Bool) (c : Cursor) : Option (List UInt8 × Cursor) := do
  let (bytes, rest) ← tagBytes? inFull (c.rest.length + 1) 0 c.rest
  pure (bytes, c.skip (c.rest.length - rest.length))

/-- The abbreviation that follows, with both exclamation marks if there are two, and the place
after it. -/
def tagHandle? (c : Cursor) : Option (List Char × Cursor) :=
  match c.rest with
  | '!' :: cs =>
    let name := cs.takeWhile isNameChar
    let after := c.skip (name.length + 1)
    if startsWithAny ['!'] after.rest then some ('!' :: (name ++ ['!']), after.skip 1)
    else some ('!' :: name, after)
  | _ => none

/-- A tag in full after its opening bracket. -/
def fullTag? (c : Cursor) : Option (List Char × Tag × Cursor) := do
  let (bytes, c) ← tagText? true c
  if !bytes.isEmpty && startsWithAny ['>'] c.rest then some ([], .ofBytes bytes, c.skip 1)
  else none

/-- A tag that begins with an abbreviation. What follows a single exclamation mark is not part of
the abbreviation, and the exclamation mark alone is a tag in full. -/
def shortTag? (c : Cursor) : Option (List Char × Tag × Cursor) := do
  let (handle, c) ← tagHandle? c
  let (bytes, c) ← tagText? false c
  if handle.length ≥ 2 && handle.getLast? = some '!' then
    if bytes.isEmpty then none else some (handle, .ofBytes bytes, c)
  else
    let suffix := Tag.ofBytes (Tag.bytesOf handle.tail ++ bytes)
    if suffix.bytes.isEmpty then some ([], .bare, c) else some (['!'], suffix, c)

/-- The tag that follows: its abbreviation, perhaps empty, the rest of it, and the place after it.
White space has to follow, or a comma between brackets. -/
def tagProperty? (inFlow : Bool) (c : Cursor) : Option (List Char × Tag × Cursor) := do
  let (handle, suffix, after) ←
    if startsWithAny ['<'] (c.skip 1).rest then fullTag? (c.skip 2) else shortTag? c
  if startsGap after.rest || (inFlow && startsWithAny [','] after.rest) then
    some (handle, suffix, after)
  else none

end ComponentViews.Yaml
