import ComponentViews.Json.Basic
import ComponentViews.Number.Notation

/-!
# Values of scalars

A scalar without quotation marks and tag denotes the null value, a truth value or a number if it is
written like one, and a string otherwise. Digits that start with a zero are no number.

## Main definitions

* `isNullText`, `truthValue?`: the null value and truth values.
* `unsigned?`, `integer?`: integers.
* `floatValue?`: floating-point numbers, those that are not finite included.
* `ScalarValue`, `scalarValue`: what a scalar denotes.
-/

namespace ComponentViews.Yaml

/-- Whether a text denotes the null value. -/
def isNullText (cs : List Char) : Bool :=
  cs = ['~'] || cs = "null".toList || cs = "Null".toList || cs = "NULL".toList

/-- The truth value that a text denotes. -/
def truthValue? (cs : List Char) : Option Bool :=
  if cs = "true".toList ∨ cs = "True".toList ∨ cs = "TRUE".toList then some true
  else if cs = "false".toList ∨ cs = "False".toList ∨ cs = "FALSE".toList then some false
  else none

/-! ## Integers -/

/-- A text without its sign. -/
def dropSign : List Char → List Char
  | '+' :: cs | '-' :: cs => cs
  | cs => cs

/-- Whether a text has only digits, of which the first of several is a zero. -/
def isPaddedDigits (cs : List Char) : Bool :=
  match dropSign cs with
  | '0' :: c :: cs => (c :: cs).all Char.isDigit
  | _ => false

/-- The value of a digit in a base up to sixteen. -/
def digitInBase? (base : Nat) (c : Char) : Option Nat :=
  (hexValue? c).filter fun d => d < base

/-- The number whose digits in a base follow those of another number. -/
def numberInBase? (base start : Nat) : List Char → Option Nat
  | [] => some start
  | c :: cs => (digitInBase? base c).bind fun d => numberInBase? base (base * start + d) cs

/-- The number with the given digits in a base, of which there is at least one. -/
def ofDigits? (base : Nat) (cs : List Char) : Option Nat :=
  if cs.isEmpty then none else numberInBase? base 0 cs

/-- A number with a mark for its base, or without in base ten. -/
def natural? : List Char → Option Nat
  | '0' :: 'x' :: cs => ofDigits? 16 cs
  | '0' :: 'o' :: cs => ofDigits? 8 cs
  | '0' :: 'b' :: cs => ofDigits? 2 cs
  | cs => if isPaddedDigits cs then none else ofDigits? 10 cs

/-- A number that may have a plus sign. -/
def unsigned? : List Char → Option Nat
  | '+' :: cs => natural? cs
  | cs => natural? cs

/-- A number that may have a sign. -/
def integer? : List Char → Option Int
  | '-' :: cs => (natural? cs).map fun n => -(n : Int)
  | cs => (unsigned? cs).map fun n => (n : Int)

/-! ## Floating-point numbers -/

/-- The texts for infinity. -/
def infinityTexts : List (List Char) := [".inf".toList, ".Inf".toList, ".INF".toList]

/-- The texts for what is not a number. -/
def notNumberTexts : List (List Char) := [".nan".toList, ".NaN".toList, ".NAN".toList]

/-- Whether a text denotes a floating-point number that is not finite. -/
def isNonFinite (cs : List Char) : Bool :=
  notNumberTexts.contains cs || infinityTexts.contains (dropSign cs)

/-! ## Scalars -/

/-- What a scalar denotes. -/
inductive ScalarValue where
  /-- The null value. -/
  | null
  /-- A truth value. -/
  | bool (b : Bool)
  /-- An integer of any size. -/
  | integer (n : Int)
  /-- A finite floating-point number. -/
  | real (x : Binary64)
  /-- A floating-point number that is not finite. -/
  | nonFinite
  /-- A string. -/
  | text
  deriving Repr

/-- Whether an integer has at most 128 bits, with its sign if it has one. -/
def isWide (n : Int) : Bool := -(Nat.pow 2 127) ≤ n && n < Nat.pow 2 128

/-- The floating-point number that a text denotes. -/
def floatValue? (cs : List Char) : Option ScalarValue :=
  if isNonFinite cs then some .nonFinite
  else (Binary64.ofText? cs).map .real

/-- The number that a text denotes. -/
def numberValue? (cs : List Char) : Option ScalarValue :=
  -- A wider integer is rounded to a floating-point number.
  match (integer? cs).filter isWide with
  | some n => some (.integer n)
  | none => if isPaddedDigits cs then none else floatValue? cs

/-- What a scalar without quotation marks and tag denotes. -/
def scalarValue (cs : List Char) : ScalarValue :=
  if cs.isEmpty || isNullText cs then .null
  else
    match truthValue? cs with
    | some b => .bool b
    | none => (numberValue? cs).getD .text

/-- The JSON value of a scalar. Numbers that are not finite count as null, and integers of more
than 64 bits have none. -/
def ScalarValue.json? (text : List Char) : ScalarValue → Option Json
  | .null | .nonFinite => some .null
  | .bool b => some (.bool b)
  | .integer n => if -(Nat.pow 2 63) ≤ n ∧ n < Nat.pow 2 64 then some (.int n) else none
  | .real x => some (.number (.real x))
  | .text => some (.string (String.ofList text))

end ComponentViews.Yaml
