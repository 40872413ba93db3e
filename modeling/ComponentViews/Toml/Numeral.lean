import ComponentViews.Number.Notation
import ComponentViews.Toml.Value

/-!
# Numbers of TOML

A low line may stand between two digits. Decimal numbers have no needless zeros at their start.
Integers have 64 bits. Floating-point numbers are rounded; one that is too large is a mistake unless
it has a minus sign.

## Main definitions

* `digits?`: digits with low lines between them.
* `basedInteger?`: an integer in base two, eight or sixteen.
* `number?`: the number that follows.
-/

namespace ComponentViews.Toml

/-- Further digits, and the text after them. -/
def moreDigits (isDigit : Char → Bool) : List Char → List Char × List Char
  | '_' :: c :: cs =>
    if isDigit c then
      let (more, rest) := moreDigits isDigit cs
      (c :: more, rest)
    else ([], '_' :: c :: cs)
  | c :: cs =>
    if isDigit c then
      let (more, rest) := moreDigits isDigit cs
      (c :: more, rest)
    else ([], c :: cs)
  | [] => ([], [])

/-- The digits that follow, of which there is at least one, and the text after them. -/
def digits? (isDigit : Char → Bool) : List Char → Option (List Char × List Char)
  | [] => none
  | c :: cs =>
    if isDigit c then
      let (more, rest) := moreDigits isDigit cs
      some (c :: more, rest)
    else none

/-- The digits of a decimal integer, and the text after them. -/
def decimalDigits? : List Char → Option (List Char × List Char)
  | '0' :: cs => some (['0'], cs)
  | cs => digits? Char.isDigit cs

/-- The number with the given digits in a base. -/
def numberInBase (base : Nat) (digits : List Char) : Nat :=
  digits.foldl (fun n d => base * n + (hexValue? d).getD 0) 0

/-- Whether a character is a digit in a base. -/
def isDigitIn (base : Nat) (c : Char) : Bool := (hexValue? c).any fun d => d < base

/-- An integer if 64 bits hold it. -/
def integer? (n : Int) : Option TomlValue :=
  if -(Nat.pow 2 63) ≤ n ∧ n < Nat.pow 2 63 then some (.integer n) else none

/-- An integer in another base than ten after the mark for its base, and the text after it. -/
def basedInteger? (base : Nat) (cs : List Char) : Option (TomlValue × List Char) := do
  let (digits, rest) ← digits? (isDigitIn base) cs
  let v ← integer? (numberInBase base digits)
  pure (v, rest)

/-- The digits after a point that follows, or none without a point. -/
def fraction? : List Char → Option (List Char × List Char)
  | '.' :: cs => digits? Char.isDigit cs
  | cs => some ([], cs)

/-- A power of ten after its letter, and the text after it. -/
def signedPower? : List Char → Option (Int × List Char)
  | '-' :: cs => (digits? Char.isDigit cs).map fun (ds, rest) => (-(decimalNumber ds : Int), rest)
  | '+' :: cs => (digits? Char.isDigit cs).map fun (ds, rest) => ((decimalNumber ds : Int), rest)
  | cs => (digits? Char.isDigit cs).map fun (ds, rest) => ((decimalNumber ds : Int), rest)

/-- The power of ten that follows, if there is one. -/
def power? : List Char → Option (Option Int × List Char)
  | c :: cs =>
    if c = 'e' ∨ c = 'E' then (signedPower? cs).map fun (n, rest) => (some n, rest)
    else some (none, c :: cs)
  | [] => some (none, [])

/-- The floating-point number that a decimal denotes. -/
def float? (negative : Bool) (whole fraction : List Char) (power : Int) : Option TomlValue :=
  let d : DecimalText := ⟨whole, fraction, power⟩
  match d.value? negative with
  | some x => some (.real x)
  | none => if negative then some .nonFinite else none

/-- A decimal number after its sign, and the text after it. -/
def decimal? (negative : Bool) (cs : List Char) : Option (TomlValue × List Char) := do
  let (whole, rest) ← decimalDigits? cs
  let (fraction, rest) ← fraction? rest
  let (power, rest) ← power? rest
  if fraction.isEmpty && power.isNone then
    let n : Int := decimalNumber whole
    let v ← integer? (if negative then -n else n)
    pure (v, rest)
  else
    let v ← float? negative whole fraction (power.getD 0)
    pure (v, rest)

/-- A number after its sign, and the text after it. -/
def unsigned? (negative : Bool) : List Char → Option (TomlValue × List Char)
  | 'i' :: 'n' :: 'f' :: cs => some (.nonFinite, cs)
  | 'n' :: 'a' :: 'n' :: cs => some (.nonFinite, cs)
  | cs => decimal? negative cs

/-- The number that follows, and the text after it. -/
def number? : List Char → Option (TomlValue × List Char)
  | '0' :: 'x' :: cs => basedInteger? 16 cs
  | '0' :: 'o' :: cs => basedInteger? 8 cs
  | '0' :: 'b' :: cs => basedInteger? 2 cs
  | '-' :: cs => unsigned? true cs
  | '+' :: cs => unsigned? false cs
  | cs => unsigned? false cs

end ComponentViews.Toml
