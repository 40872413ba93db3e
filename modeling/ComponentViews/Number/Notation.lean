import ComponentViews.Number.Binary64
import ComponentViews.Text.Digits

/-!
# Decimal notation

A decimal is digits, perhaps with a point among, before or after them, and perhaps a power of ten
after the letter `e`. It denotes the nearest floating-point number.

## Main definitions

* `Binary64.ofDecimal?`: the nearest number to a decimal, if it is not too large.
* `DecimalText`, `DecimalText.read?`: a decimal as written.
* `Binary64.ofText?`: the number that a text denotes.
-/

namespace ComponentViews

/-- The nearest number to digits times a power of ten, if it is finite. Below `10 ^ (-330)` it is
zero, and from `10 ^ 310` on it is not finite. -/
def Binary64.ofDecimal? (negative : Bool) (digits : Nat) (exponent : Int) : Option Binary64 :=
  -- The bounds keep the powers of ten small whatever the text says.
  let places : Int := (decimalChars digits).length + exponent
  if digits = 0 ∨ places < -330 then some ⟨negative, 0⟩
  else if 310 < places then none
  else ofRatio? negative (digits * Nat.pow 10 exponent.toNat) (Nat.pow 10 (-exponent).toNat)

/-- A decimal without sign as written. -/
structure DecimalText where
  /-- The digits before the point. -/
  whole : List Char
  /-- The digits after the point. -/
  fraction : List Char
  /-- The power of ten. -/
  power : Int
  deriving Repr

/-- The number that decimal digits denote. -/
def decimalNumber (digits : List Char) : Nat :=
  digits.foldl (fun n d => 10 * n + (d.toNat - 48)) 0

/-- An integer with a sign or without: digits, of which there must be at least one. -/
def signedDecimal? (cs : List Char) : Option Int :=
  let digits (cs : List Char) : Option Nat :=
    if !cs.isEmpty && cs.all Char.isDigit then some (decimalNumber cs) else none
  match cs with
  | '-' :: cs => (digits cs).map fun n => -(n : Int)
  | '+' :: cs => (digits cs).map fun n => (n : Int)
  | cs => (digits cs).map fun n => (n : Int)

namespace DecimalText

/-- The power of ten at the end of a decimal. -/
def readPower? : List Char → Option Int
  | [] => some 0
  | c :: cs => if c = 'e' ∨ c = 'E' then signedDecimal? cs else none

/-- A decimal, which has a digit before or after the point. -/
def read? (cs : List Char) : Option DecimalText :=
  let whole := cs.takeWhile Char.isDigit
  let rest := cs.dropWhile Char.isDigit
  let (fraction, rest) :=
    match rest with
    | '.' :: after => (after.takeWhile Char.isDigit, after.dropWhile Char.isDigit)
    | rest => ([], rest)
  if whole.isEmpty && fraction.isEmpty then none
  else (readPower? rest).map fun power => ⟨whole, fraction, power⟩

/-- The number that a decimal denotes. -/
def value? (d : DecimalText) (negative : Bool) : Option Binary64 :=
  Binary64.ofDecimal? negative (decimalNumber (d.whole ++ d.fraction))
    (d.power - d.fraction.length)

end DecimalText

/-- The finite number that a text denotes: a decimal, perhaps with a sign. -/
def Binary64.ofText? : List Char → Option Binary64
  | '-' :: cs => (DecimalText.read? cs).bind (·.value? true)
  | '+' :: cs => (DecimalText.read? cs).bind (·.value? false)
  | cs => (DecimalText.read? cs).bind (·.value? false)

end ComponentViews
