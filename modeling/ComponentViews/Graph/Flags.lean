import ComponentViews.Text.Blank
import ComponentViews.Text.Digits

/-!
# Type flags

Thirty-two bits that say what kind of type a node of a type graph is. Twenty-one of them have a
name; three more names stand for groups of them. Bits without a name are kept as they are.

The text of a set of flags lists names and hexadecimal numbers between `|` signs. Its canonical
form lists the names of the single bits in their order and then all bits without a name as one
number.

## Main definitions

* `TypeFlags`: the set of bits.
* `TypeFlags.text`, `TypeFlags.ofText?`: the canonical text, and the reader of any text.
* `TypeFlags.keyword?`: the keyword for a type of which nothing but the flags is known.
-/

namespace ComponentViews

/-- What kind of type a node is. -/
structure TypeFlags where
  /-- One bit for each property. -/
  bits : BitVec 32
  deriving DecidableEq, Repr

namespace TypeFlags

/-- No flags at all. -/
def empty : TypeFlags := ⟨0⟩

/-- The flag at one position. -/
def single (position : Nat) : TypeFlags := ⟨1#32 <<< position⟩

/-- The flags of either. -/
def union (a b : TypeFlags) : TypeFlags := ⟨a.bits ||| b.bits⟩

instance : Union TypeFlags := ⟨union⟩

instance : EmptyCollection TypeFlags := ⟨empty⟩

/-- Whether all flags of `b` are set. -/
def contains (a b : TypeFlags) : Bool := a.bits &&& b.bits == b.bits

/-- Whether some flag of `b` is set. -/
def intersects (a b : TypeFlags) : Bool := a.bits &&& b.bits != 0

/-! ## The named flags -/

/-- The names of the single flags, in the order of their bits from the lowest up. -/
def singleNames : List String :=
  ["ANY", "UNKNOWN", "STRING", "NUMBER", "BOOLEAN", "ENUM", "BIG_INT", "STRING_LITERAL",
   "NUMBER_LITERAL", "BOOLEAN_LITERAL", "ENUM_LITERAL", "BIG_INT_LITERAL", "TEMPLATE_LITERAL",
   "UNDEFINED", "NULL", "VOID", "NEVER", "OBJECT", "UNION", "INTERSECTION", "TYPE_PARAMETER"]

/-- The type that stands for every type. -/
def any : TypeFlags := single 0

/-- The type of which nothing is known. -/
def unknown : TypeFlags := single 1

/-- The type of strings. -/
def string : TypeFlags := single 2

/-- The type of numbers. -/
def number : TypeFlags := single 3

/-- The type of truth values. -/
def boolean : TypeFlags := single 4

/-- An enumeration. -/
def enum : TypeFlags := single 5

/-- The type of integers of any size. -/
def bigInt : TypeFlags := single 6

/-- One string. -/
def stringLiteral : TypeFlags := single 7

/-- One number. -/
def numberLiteral : TypeFlags := single 8

/-- One truth value. -/
def booleanLiteral : TypeFlags := single 9

/-- One member of an enumeration. -/
def enumLiteral : TypeFlags := single 10

/-- One integer of any size. -/
def bigIntLiteral : TypeFlags := single 11

/-- The strings of one pattern. -/
def templateLiteral : TypeFlags := single 12

/-- The type of the undefined value. -/
def undefined : TypeFlags := single 13

/-- The type of the null value. -/
def null : TypeFlags := single 14

/-- The type of no result. -/
def void : TypeFlags := single 15

/-- The type without values. -/
def never : TypeFlags := single 16

/-- A type of objects. -/
def object : TypeFlags := single 17

/-- A union of types. -/
def unionType : TypeFlags := single 18

/-- An intersection of types. -/
def intersectionType : TypeFlags := single 19

/-- A parameter of a generic type. -/
def typeParameter : TypeFlags := single 20

/-- The flags of the types of one value. -/
def literal : TypeFlags :=
  stringLiteral ∪ numberLiteral ∪ booleanLiteral ∪ enumLiteral ∪ bigIntLiteral

/-- The flags of the types that hold only strings. -/
def stringLike : TypeFlags := string ∪ stringLiteral ∪ templateLiteral

/-- The flags of the types that hold only numbers. -/
def numberLike : TypeFlags := number ∪ numberLiteral ∪ enum

/-- Whether the type has one value. -/
def isLiteral (f : TypeFlags) : Bool := f.intersects literal

/-- Keywords with the flag that calls for each, in the order in which they are tried. -/
def keywords : List (TypeFlags × String) :=
  [(any, "any"), (unknown, "unknown"), (string, "string"), (number, "number"),
   (boolean, "boolean"), (bigInt, "bigint"), (undefined, "undefined"), (null, "null"),
   (void, "void"), (never, "never"), (object, "object")]

/-- The keyword for a type of which nothing but the flags is known. -/
def keyword? (f : TypeFlags) : Option String :=
  (keywords.find? fun k => f.contains k.1).map (·.2)

/-! ## The canonical text -/

/-- The bits that have a name. -/
def namedMask : BitVec 32 := (1#32 <<< singleNames.length) - 1

/-- The names of the single flags that are set, in the order of their bits. -/
def setNames (f : TypeFlags) : List String :=
  (singleNames.zipIdx.filter fun (_, i) => f.bits.getLsbD i).map (·.1)

/-- The bits without a name as a number, if there are any. -/
def unnamedPiece (f : TypeFlags) : List String :=
  let rest := f.bits &&& ~~~namedMask
  if rest = 0 then [] else [String.ofList ('0' :: 'x' :: hexDigits rest.toNat)]

/-- The pieces of the canonical text. -/
def pieces (f : TypeFlags) : List String := f.setNames ++ f.unnamedPiece

/-- The canonical text. -/
def text (f : TypeFlags) : String := String.intercalate " | " f.pieces

/-! ## Reading -/

/-- Names with the flags that they stand for. -/
def named : List (String × TypeFlags) :=
  singleNames.zipIdx.map (fun (name, i) => (name, single i)) ++
    [("LITERAL", literal), ("STRING_LIKE", stringLike), ("NUMBER_LIKE", numberLike)]

/-- The digits of a number without the plus sign that may stand before them. -/
def dropPlus : List Char → List Char
  | '+' :: cs => cs
  | cs => cs

/-- Thirty-two bits written as a hexadecimal number, which needs a digit. -/
def ofHex? (cs : List Char) : Option TypeFlags :=
  match dropPlus cs with
  | [] => none
  | digits =>
    (hexNumber? 0 digits).bind fun n =>
      if n < Nat.pow 2 32 then some ⟨BitVec.ofNat 32 n⟩ else none

/-- The flags that one trimmed piece of a text stands for. -/
def ofPiece? (cs : List Char) : Option TypeFlags :=
  match cs with
  | '0' :: 'x' :: digits => ofHex? digits
  | _ => (named.find? fun e => e.1.toList = cs).map (·.2)

/-- The flags that a text stands for. A blank text stands for no flags; in any other, each piece
between `|` signs must be a name or a number. -/
def ofText? (s : String) : Option TypeFlags :=
  if trimBlanks s.toList = [] then some empty
  else
    -- A blank piece is no name and no number, so it is refused.
    ((s.toList.splitOn '|').mapM fun piece => ofPiece? (trimBlanks piece)).map
      (·.foldl union empty)

end TypeFlags

end ComponentViews
