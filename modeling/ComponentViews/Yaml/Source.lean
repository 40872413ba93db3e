import ComponentViews.Data.Source
import ComponentViews.Yaml.Anchors
import ComponentViews.Yaml.Lexer
import ComponentViews.Yaml.Resolution

/-!
# YAML as a source of data

A scalar without quotation marks is taken for what is expected in its place. References are
followed wherever something is read from them; how often is limited by the size of the text, and
lists and mappings nest only to a limit, so reading ends even where a node contains itself.

## Main definitions

* `YamlPiece`: a piece of a YAML text that is being read.
* `readYamlText?`: read a whole text.
-/

namespace ComponentViews

open Yaml

/-- A reading that may still follow a number of references, and may fail. -/
abbrev YamlReading := StateT Nat Option

/-- A piece of a YAML text. -/
structure YamlPiece where
  /-- The nodes that references lead to, with their numbers; the first with a number counts. -/
  targets : List (Nat × LinkedNode)
  /-- The node. -/
  node : LinkedNode
  /-- How deep lists and mappings may nest in the node. -/
  room : Nat

namespace YamlPiece

/-- Follow a reference. -/
def follow (p : YamlPiece) : YamlReading YamlPiece := do
  match p.node with
  | .alias n =>
    let left ← get
    match left, p.targets.lookup n with
    -- Each step through a reference uses up one of those that are left.
    | left + 1, some node =>
      set left
      pure { p with node }
    | _, _ => failure
  | _ => pure p

/-- The text of a scalar. -/
def chars (p : YamlPiece) : YamlReading (List Char) := do
  match (← p.follow).node with
  | .scalar _ _ text => pure text
  | _ => failure

/-- The text of a scalar, for a value that is no string: one without quotation marks, or line by
line with a tag for the kind of value. -/
def bareChars (kind : String) (p : YamlPiece) : YamlReading (List Char) := do
  match (← p.follow).node with
  | .scalar _ .plain text => pure text
  | .scalar properties .literal text =>
    if properties.tag = some (.standard kind) then pure text else failure
  | _ => failure

/-- Whether a scalar stands for no value where a value is optional. A tag for the null value
requires it, any other tag excludes it. -/
def absent? (properties : Properties Nat) (style : ScalarStyle) (text : List Char) :
    Option Bool :=
  match style, properties.tag with
  | .plain, some tag =>
    if tag = .standard "null" then
      if isNullText text then some true else none
    else some false
  | .plain, none => some (text.isEmpty || isNullText text)
  | _, _ => some false

/-- The piece where a value is optional. -/
def optional (p : YamlPiece) : YamlReading (Option YamlPiece) := do
  let p ← p.follow
  match p.node with
  | .scalar properties style text =>
    match absent? properties style text with
    | some absent => pure (if absent then none else some p)
    | none => failure
  | _ => pure (some p)

/-- The items of a list. An empty scalar counts as an empty list. -/
def items (p : YamlPiece) : YamlReading (List YamlPiece) := do
  let p ← p.follow
  match p.node, p.room with
  | .sequence _ xs, room + 1 => pure (xs.map fun node => { p with node, room })
  | .scalar _ .plain [], _ => pure []
  | _, _ => failure

/-- The keys of a mapping with their values. An empty scalar counts as an empty mapping. -/
def entries (p : YamlPiece) : YamlReading (List (String × YamlPiece)) := do
  let p ← p.follow
  match p.node, p.room with
  | .mapping _ fs, room + 1 =>
    fs.mapM fun (key, value) => do
      let key ← ({ p with node := key, room } : YamlPiece).chars
      pure (String.ofList key, { p with node := value, room })
  | .scalar _ .plain [], _ => pure []
  | _, _ => failure

/-- What a scalar denotes, given its tag. A tag that begins with an exclamation mark but is no text
says nothing about a scalar without quotation marks. -/
def scalarOf? (properties : Properties Nat) (style : ScalarStyle) (text : List Char) :
    Option ScalarValue :=
  match properties.tag with
  | some tag =>
    if tag.isLocal then none
    else if tag = .standard "bool" then (truthValue? text).map .bool
    else if tag = .standard "int" then ((integer? text).filter isWide).map .integer
    else if tag = .standard "float" then floatValue? text
    else if tag = .standard "null" then if isNullText text then some .null else none
    else some (if tag.isMarked && style = .plain then scalarValue text else .text)
  | none => some (if style = .plain then scalarValue text else .text)

/-- The value of a scalar. -/
def scalarJson? (properties : Properties Nat) (style : ScalarStyle) (text : List Char) :
    Option Json :=
  (scalarOf? properties style text).bind (·.json? text)

/-- The value of a node that is not a reference, where lists and mappings nest to a depth. -/
def json (targets : List (Nat × LinkedNode)) : Nat → LinkedNode → YamlReading Json
  | room, node => do
    let p ← ({ targets, node, room } : YamlPiece).follow
    match p.node, room with
    | .scalar properties style text, _ =>
      match scalarJson? properties style text with
      | some v => pure v
      | none => failure
    | .sequence properties xs, room + 1 =>
      if properties.tag.any (·.isLocal) then failure
      else do
        let values ← xs.mapM fun x => json targets room x
        pure (.array values)
    | .mapping properties fs, room + 1 =>
      if properties.tag.any (·.isLocal) then failure
      else do
        -- Any scalar may be a key, whose text is the name.
        let values ← fs.mapM fun (key, value) => do
          let key ← ({ targets, node := key, room } : YamlPiece).chars
          let v ← json targets room value
          pure (String.ofList key, v)
        pure (.object (sortFields values))
    | _, _ => failure

end YamlPiece

/-- The outcome of a reading that follows no references. -/
def YamlReading.ofOption {α : Type} : Option α → YamlReading α
  | some a => pure a
  | none => failure

instance : DataSource YamlPiece YamlReading where
  text p := String.ofList <$> p.chars
  flag p := do YamlReading.ofOption (truthValue? (← p.bareChars "bool"))
  word p := do
    YamlReading.ofOption
      (((unsigned? (← p.bareChars "int")).filter fun n => n < Nat.pow 2 32).map UInt32.ofNat)
  optional := YamlPiece.optional
  items := YamlPiece.items
  record p := .named <$> p.entries
  entries := YamlPiece.entries
  choice p := String.ofList <$> p.chars
  value p := YamlPiece.json p.targets p.room p.node

/-- Lists and mappings nest to this depth. -/
def maxYamlDepth : Nat := 128

/-- References are followed as often as a text has parts, times this. -/
def maxYamlRepetition : Nat := 100

/-- Read a whole YAML text as a domain type. -/
def readYamlText? {α : Type} (read : YamlPiece → YamlReading α) (s : String) : Option α := do
  let ts ← tokens? s.toList
  let written ← document? ts
  let (node, _) ← link? [] written
  let piece : YamlPiece :=
    { targets := node.definitions.reverse, node, room := maxYamlDepth }
  let (a, _) ← (read piece).run (maxYamlRepetition * node.eventCount)
  pure a

end ComponentViews
