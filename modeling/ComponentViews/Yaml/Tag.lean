/-!
# Tags

A tag tells the kind of a node. It is spelled in bytes, since an escape in a tag stands for a byte,
and the bytes need not be the encoding of a text.

## Main definitions

* `Tag`: tags.
* `Tag.ofBytes`: the tag that some bytes spell.
* `Tag.standard`: the tags that any reader knows.
* `Tag.isMarked`, `Tag.isLocal`: the tags that belong to one application only.
-/

namespace ComponentViews.Yaml

/-- A tag. -/
structure Tag where
  /-- The bytes of the tag. -/
  bytes : List UInt8
  deriving DecidableEq, Repr

namespace Tag

/-- The bytes of some characters. -/
def bytesOf (cs : List Char) : List UInt8 := cs.flatMap String.utf8EncodeChar

/-- The tag that some bytes spell; a zero byte ends it. -/
def ofBytes (bytes : List UInt8) : Tag := ⟨bytes.takeWhile (· ≠ 0)⟩

/-- The tag with a text. -/
def ofString (s : String) : Tag := ofBytes (bytesOf s.toList)

instance : Append Tag := ⟨fun a b => ⟨a.bytes ++ b.bytes⟩⟩

/-- What the tags of the standard have in common. -/
def standardStart : Tag := ofString "tag:yaml.org,2002:"

/-- The tag of the standard for a kind of scalar. -/
def standard (kind : String) : Tag := standardStart ++ ofString kind

/-- The tag that consists of an exclamation mark. -/
def bare : Tag := ofString "!"

/-- Whether a tag begins with an exclamation mark. -/
def isMarked (t : Tag) : Bool := t.bytes.head? = bare.bytes.head?

/-- Whether a tag belongs to one application only: it begins with an exclamation mark and is a
text. -/
def isLocal (t : Tag) : Bool := t.isMarked && t.bytes.toByteArray.validateUTF8

end Tag

end ComponentViews.Yaml
