import ComponentViews.Yaml.Tag

/-!
# Tokens of YAML

A text consists of tokens. Structure that is expressed by indentation has tokens of its own, and
the end of the text has none.

## Main definitions

* `Token`: the tokens.
* `ScalarStyle`: what a reader has to know about the spelling of a scalar.
-/

namespace ComponentViews.Yaml

/-- The spelling of a scalar. -/
inductive ScalarStyle where
  /-- Without quotation marks. -/
  | plain
  /-- Line by line, line breaks kept. -/
  | literal
  /-- Between quotation marks, or line by line with lines joined. -/
  | other
  deriving DecidableEq, Repr

/-- A token. -/
inductive Token where
  /-- A directive with the version. -/
  | version (major minor : Nat)
  /-- A directive with an abbreviation for tags. -/
  | tagDirective (handle : List Char) (expansion : Tag)
  /-- The sign at the start of a document. -/
  | documentStart
  /-- The sign at the end of a document. -/
  | documentEnd
  /-- The first item of a list that is indented follows. -/
  | blockSequenceStart
  /-- The first key of a mapping that is indented follows. -/
  | blockMappingStart
  /-- The indentation ends. -/
  | blockEnd
  /-- An opening bracket. -/
  | flowSequenceStart
  /-- A closing bracket. -/
  | flowSequenceEnd
  /-- An opening brace. -/
  | flowMappingStart
  /-- A closing brace. -/
  | flowMappingEnd
  /-- The sign before an item. -/
  | blockEntry
  /-- The sign between items. -/
  | flowEntry
  /-- A key follows. -/
  | key
  /-- The value for a key follows. -/
  | value
  /-- A reference to a node by its name. -/
  | alias (name : List Char)
  /-- The name of the node that follows. -/
  | anchor (name : List Char)
  /-- The tag of the node that follows: an abbreviation, perhaps empty, and the rest. -/
  | tag (handle : List Char) (suffix : Tag)
  /-- A scalar. -/
  | scalar (style : ScalarStyle) (text : List Char)
  deriving DecidableEq, Repr

end ComponentViews.Yaml
