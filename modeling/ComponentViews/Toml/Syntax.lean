import ComponentViews.Toml.Numeral
import ComponentViews.Toml.Text
import ComponentViews.Toml.Time

/-!
# TOML texts

A text consists of lines: fields, headers of tables, and headers of elements of arrays. A header
says where the fields after it belong. Keys are paths; arrays and tables within values nest to a
limit.

## Main definitions

* `keyPath?`: a path of keys.
* `value?`: a value.
* `Document`, `Document.field?`, `Document.tableHeader?`, `Document.elementHeader?`: lines.
* `Toml.parse?`: the table that a whole text denotes.
-/

namespace ComponentViews.Toml

/-- Paths have fewer parts, and arrays and tables nest less deep. -/
def depthLimit : Nat := 80

/-! ## Keys -/

/-- Whether a character may stand in a key without quotation marks. -/
def isKeyChar (c : Char) : Bool := c.isAlphanum || c = '_' || c = '-'

/-- The key that follows, and the text after it. -/
def key? (cs : List Char) : Option (List Char × List Char) :=
  match cs with
  | '"' :: _ | '\'' :: _ => lineString? cs
  | cs =>
    let name := cs.takeWhile isKeyChar
    if name.isEmpty then none else some (name, cs.dropWhile isKeyChar)

/-- The keys that follow with points between them, and the text after them. White space may stand
around each key. -/
def keys? : Nat → List Char → Option (List String × List Char)
  | 0, _ => none
  | fuel + 1, cs => do
    let (key, cs) ← key? (skipBlank cs)
    match skipBlank cs with
    | '.' :: cs => do
      let (more, cs) ← keys? fuel cs
      pure (String.ofList key :: more, cs)
    | cs => pure ([String.ofList key], cs)

/-- The path that follows: the keys before the last, the last key, and the text after it. -/
def keyPath? (cs : List Char) : Option (List String × String × List Char) := do
  let (keys, cs) ← keys? (cs.length + 1) cs
  let last ← keys.getLast?
  if keys.length < depthLimit then some (keys.dropLast, last, cs) else none

/-! ## Values -/

/-- The value that follows on the line, other than an array or a table, and the text after it. -/
def scalar? (cs : List Char) : Option (TomlValue × List Char) :=
  match cs with
  | '"' :: _ | '\'' :: _ => (string? cs).map fun (s, rest) => (.string (String.ofList s), rest)
  | 't' :: 'r' :: 'u' :: 'e' :: rest => some (.bool true, rest)
  | 'f' :: 'a' :: 'l' :: 's' :: 'e' :: rest => some (.bool false, rest)
  | cs =>
    match moment? cs with
    | some (text, rest) => some (.time (String.ofList text), rest)
    | none => number? cs

mutual

/-- The value that follows, and the text after it; arrays and tables within it nest to a depth. -/
def value? (room : Nat) : Nat → List Char → Option (TomlValue × List Char)
  | 0, _ => none
  | fuel + 1, '[' :: cs =>
    match room with
    | 0 => none
    | room + 1 => do
      let (items, cs) ← items? room fuel cs
      pure (.array .brackets items, cs)
  | fuel + 1, '\x7b' :: cs =>
    match room with
    | 0 => none
    | room + 1 =>
      match skipBlank cs with
      | '\x7d' :: cs => some (.table .braces [], cs)
      | cs => do
        let (fields, cs) ← fields? room fuel [] cs
        pure (.table .braces fields, cs)
  | _ + 1, cs => scalar? cs

/-- The items of an array up to its closing bracket, and the text after it. -/
def items? (room : Nat) : Nat → List Char → Option (List TomlValue × List Char)
  | 0, _ => none
  | fuel + 1, cs => do
    -- The bracket may also follow a comma.
    match ← skipLines? (cs.length + 1) cs with
    | ']' :: cs => pure ([], cs)
    | cs => do
      let (x, cs) ← value? room fuel cs
      match ← skipLines? (cs.length + 1) cs with
      | ',' :: cs => do
        let (xs, cs) ← items? room fuel cs
        pure (x :: xs, cs)
      | ']' :: cs => pure ([x], cs)
      | _ => none

/-- The fields of a table up to its closing brace after those before them, and the text after
it. -/
def fields? (room : Nat) : Nat → Fields → List Char → Option (Fields × List Char)
  | 0, _, _ => none
  | fuel + 1, before, cs => do
    let (path, key, cs) ← keyPath? cs
    -- Within braces a field ends at a comma or the brace, and a line break is a mistake.
    let cs ← expect? '=' cs
    let (v, cs) ← value? room fuel (skipBlank cs)
    let fields ← before.insertAt? path key v .braces
    match skipBlank cs with
    | ',' :: cs => fields? room fuel fields cs
    | '\x7d' :: cs => pure (fields, cs)
    | _ => none

end

/-! ## Lines -/

/-- What the lines read so far say. -/
structure Document where
  /-- The fields of the whole text. -/
  root : Fields := []
  /-- The path of the last header. -/
  current : List String := []
  deriving Repr

namespace Document

/-- Read a field, which belongs to the table of the last header. -/
def field? (d : Document) (cs : List Char) : Option (Document × List Char) := do
  let (path, key, cs) ← keyPath? cs
  let cs ← expect? '=' cs
  let (v, cs) ← value? (depthLimit - 1) (cs.length + 1) (skipBlank cs)
  let root ← d.root.alter? false (fun origin fields => fields.insertAt? path key v origin)
    d.current .header
  let rest ← endLine? cs
  pure ({ d with root }, rest)

/-- Read the header of a table after its opening bracket. -/
def tableHeader? (d : Document) (cs : List Char) : Option (Document × List Char) := do
  let (path, key, cs) ← keyPath? cs
  let cs ← expect? ']' cs
  let root ← d.root.alter? false (fun _ fields => fields.define? key) path .header
  let rest ← endLine? cs
  pure (⟨root, path ++ [key]⟩, rest)

/-- Read the header of an element of an array after its opening brackets. -/
def elementHeader? (d : Document) (cs : List Char) : Option (Document × List Char) := do
  let (path, key, cs) ← keyPath? cs
  let cs ← expect? ']' cs
  let cs ← expect? ']' cs
  let root ← d.root.alter? false (fun _ fields => fields.extend? key) path .header
  let rest ← endLine? cs
  pure (⟨root, path ++ [key]⟩, rest)

/-- Read all lines. -/
def lines? : Nat → Document → List Char → Option Document
  | 0, _, _ => none
  | fuel + 1, d, cs =>
    match skipBlank cs with
    | [] => some d
    -- Two brackets start an element of a list, one starts a table.
    | '[' :: '[' :: cs => do
      let (d, rest) ← d.elementHeader? cs
      lines? fuel d rest
    | '[' :: cs => do
      let (d, rest) ← d.tableHeader? cs
      lines? fuel d rest
    | c :: cs =>
      if c = '#' ∨ c = '\n' ∨ c = '\r' then (endLine? (c :: cs)).bind (lines? fuel d)
      else do
        let (d, rest) ← d.field? (c :: cs)
        lines? fuel d rest

end Document

/-- The fields that a whole text denotes. A byte order mark at its start is passed over. -/
def parse? (s : String) : Option Fields :=
  let cs := match s.toList with
    | '\ufeff' :: cs => cs
    | cs => cs
  (Document.lines? (cs.length + 1) {} cs).map (·.root)

end ComponentViews.Toml
