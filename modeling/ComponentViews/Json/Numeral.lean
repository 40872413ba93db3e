import ComponentViews.Json.Basic

/-!
# Numerals

A numeral of a JSON text is kept as written: sign, digits before and after the point, exponent.

A numeral without point and exponent denotes an integer if 64 bits hold it, with or without a
sign. Every other numeral denotes a floating-point number that is computed in steps, each of them
rounded: as many digits as 64 bits hold form an integer, which is then multiplied or divided by a
power of ten. A numeral whose steps leave the range of floating-point numbers denotes nothing.

## Main definitions

* `Numeral`: a numeral as written.
* `Numeral.read?`: the numeral at the start of a text.
* `Numeral.value?`: the number that it denotes.
-/

namespace ComponentViews

/-- A numeral as written. -/
structure Numeral where
  /-- Whether it starts with a minus sign. -/
  negative : Bool
  /-- The digits before the point. -/
  whole : List Nat
  /-- The digits after the point; a numeral with a point has at least one. -/
  fraction : List Nat
  /-- Whether the exponent is negative, and its digits. -/
  exponent : Option (Bool × List Nat)
  deriving DecidableEq, Repr

namespace Numeral

/-! ## Reading -/

/-- The digits at the start of a text, and the text after them. -/
def digits (cs : List Char) : List Nat × List Char :=
  ((cs.takeWhile Char.isDigit).map fun c => c.toNat - 48, cs.dropWhile Char.isDigit)

/-- The digits after the point at the start of a text, if there is one. -/
def readFraction? : List Char → Option (List Nat × List Char)
  | '.' :: cs =>
    match digits cs with
    | ([], _) => none
    | ds => some ds
  | cs => some ([], cs)

/-- The exponent at the start of a text after its mark. -/
def readPower? (negative : Bool) (cs : List Char) :
    Option (Option (Bool × List Nat) × List Char) :=
  match digits cs with
  | ([], _) => none
  | (ds, rest) => some (some (negative, ds), rest)

/-- The exponent at the start of a text, if there is one. -/
def readExponent? : List Char → Option (Option (Bool × List Nat) × List Char)
  | 'e' :: '-' :: cs | 'E' :: '-' :: cs => readPower? true cs
  | 'e' :: '+' :: cs | 'E' :: '+' :: cs => readPower? false cs
  | 'e' :: cs | 'E' :: cs => readPower? false cs
  | cs => some (none, cs)

/-- The numeral without its sign at the start of a text. A digit other than zero must come first
if there are several before the point. -/
def readUnsigned? (negative : Bool) (cs : List Char) : Option (Numeral × List Char) :=
  match digits cs with
  | ([], _) => none
  | (0 :: _ :: _, _) => none
  | (whole, rest) => do
    let (fraction, rest) ← readFraction? rest
    let (exponent, rest) ← readExponent? rest
    some (⟨negative, whole, fraction, exponent⟩, rest)

/-- The numeral at the start of a text, and the text after it. -/
def read? : List Char → Option (Numeral × List Char)
  | '-' :: cs => readUnsigned? true cs
  | cs => readUnsigned? false cs

/-! ## Values -/

/-- The number that digits denote. -/
def ofDigits (ds : List Nat) : Nat :=
  ds.foldl (fun n d => 10 * n + d) 0

/-- The greatest integer of 64 bits. -/
def wordMax : Nat := Nat.pow 2 64 - 1

/-- Append digits to an integer up to the first one that would take it over 64 bits; with the
digits left. -/
def absorb (n : Nat) : List Nat → Nat × List Nat
  | [] => (n, [])
  | d :: ds => if 10 * n + d ≤ wordMax then absorb (10 * n + d) ds else (n, d :: ds)

/-- The sign of a number. -/
def signed (negative : Bool) (x : Binary64) : Binary64 := { x with negative }

/-- A magnitude times a power of ten. Powers beyond 308 divide by ten to the 308th first, as often
as `fuel` allows and until nothing is left of the magnitude. -/
def scale? (x : Binary64) (power : Int) : Nat → Option Binary64
  | 0 => none
  | fuel + 1 =>
    if power.natAbs ≤ 308 then do
      let p ← Binary64.ofNat? (Nat.pow 10 power.natAbs)
      if 0 ≤ power then x.mul? p else x.div? p
    -- Zero stays zero, however great the power.
    else if x.word = 0 then some x
    else if 0 ≤ power then none
    else do
      let p ← Binary64.ofNat? (Nat.pow 10 308)
      let y ← x.div? p
      scale? y (power + 308) fuel

/-- The greatest exponent that is taken into account. -/
def powerMax : Nat := Nat.pow 2 31 - 1

/-- The floating-point number that a numeral denotes. -/
def real? (n : Numeral) : Option Binary64 :=
  -- Digits beyond 64 bits are left out: before the point they count as zeros, after it they do not
  -- count at all.
  let (significand, dropped) := absorb 0 n.whole
  let (significand, unread) := absorb significand n.fraction
  let shift : Int := dropped.length - (n.fraction.length - unread.length : Nat)
  let scaled (power : Int) : Option Binary64 := do
    let x ← Binary64.ofNat? significand
    let y ← scale? x power 4
    some (signed n.negative y)
  match n.exponent with
  | none => scaled shift
  | some (below, ds) =>
    let power := ofDigits ds
    -- Beyond that power the outcome depends on signs alone.
    if power ≤ powerMax then scaled (if below then shift - power else shift + power)
    else if significand = 0 ∨ below then some ⟨n.negative, 0⟩
    else none

/-- The integer that a numeral without point and exponent denotes, if 64 bits hold it. Zero with a
minus sign is no integer. -/
def integer? (n : Numeral) : Option Int :=
  let m := ofDigits n.whole
  if n.negative then
    if 0 < m ∧ m ≤ Nat.pow 2 63 then some (-(m : Int)) else none
  else if m ≤ wordMax then some m
  else none

/-- The number that a numeral denotes, if there is one. -/
def value? (n : Numeral) : Option JsonNumber :=
  match n.fraction, n.exponent, n.integer? with
  | [], none, some i => some (.integer i)
  | _, _, _ => n.real?.map .real

end Numeral

end ComponentViews
