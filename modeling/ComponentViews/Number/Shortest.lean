import ComponentViews.Number.Binary64

/-!
# Shortest decimals

The decimal with the fewest digits among those nearer to a binary number than to any other, and
the nearest of these to the number.

A number of `n` digits lies on a grid of decimals. If a point of the grid lies in the interval of
reals that round to the binary number, one of the two neighbours of the number on the grid does,
so only the neighbours are tried, on ever finer grids.

## Main definitions

* `Decimal`: a decimal number given by its digits and a power of ten.
* `Binary64.shortest`: the shortest decimal that reads back as the number.
-/

namespace ComponentViews

/-- A positive decimal number: `digits` times ten to the power of `exponent`. -/
structure Decimal where
  /-- The digits, as a number. -/
  digits : Nat
  /-- The power of ten. -/
  exponent : Int
  deriving DecidableEq, Repr

/-- The same decimal without zeros at the end of its digits, of which at most `fuel` are taken
off. -/
def Decimal.strip : Nat → Decimal → Decimal
  | 0, d => d
  | fuel + 1, d =>
    if d.digits % 10 = 0 ∧ d.digits ≠ 0 then strip fuel ⟨d.digits / 10, d.exponent + 1⟩ else d

namespace Binary64

/-- The reals that round to a magnitude, in units of a quarter of the distance to the next
magnitude: the least and the greatest of them and the magnitude itself. -/
structure Neighbourhood where
  /-- The lower end. -/
  low : Nat
  /-- The magnitude. -/
  middle : Nat
  /-- The upper end. -/
  high : Nat
  /-- Whether the ends round to the magnitude too. -/
  closed : Bool

/-- The neighbourhood of a magnitude. Just above a power of two the magnitudes below lie twice as
close as those above. -/
def neighbourhood (x : Binary64) : Neighbourhood :=
  let m := 4 * x.significand
  -- Units are quarters, so that the middle between this magnitude and a lower one is an integer.
  let below := if x.significand = Nat.pow 2 52 ∧ -1074 < x.exponent then 1 else 2
  ⟨m - below, m, m + 2, x.significand % 2 = 0⟩

/-- Whether the decimal `q` of a grid lies in a neighbourhood; `unit` and `step` are the quarter
of the distance to the next magnitude and the distance of the grid, both scaled to integers. -/
def Neighbourhood.holds (n : Neighbourhood) (unit step q : Nat) : Bool :=
  if n.closed then n.low * unit ≤ q * step && q * step ≤ n.high * unit
  else n.low * unit < q * step && q * step < n.high * unit

/-- The power of ten that is the greatest one not above a quotient, near the guess given. -/
def decimalMagnitude (num den : Nat) (guess : Int) : Int :=
  let atLeast (k : Int) : Bool := den * Nat.pow 10 k.toNat ≤ num * Nat.pow 10 (-k).toNat
  if atLeast (guess + 1) then guess + 1
  else if atLeast guess then guess
  else guess - 1

/-- The number of digits of a natural number, at least one. -/
def digitCount (n : Nat) : Nat := (Nat.toDigits 10 n).length

/-- The neighbour on the grid of distance ten to the power of `k` that reads back, the nearer one
if both do and the even one if both are equally near. -/
def onGrid? (x : Binary64) (k : Int) : Option Decimal :=
  let n := x.neighbourhood
  let e := x.exponent - 2
  let unit := Nat.pow 2 e.toNat * Nat.pow 10 (-k).toNat
  let step := Nat.pow 10 k.toNat * Nat.pow 2 (-e).toNat
  let q := n.middle * unit / step
  let r := n.middle * unit % step
  -- The number lies between the neighbours `q` and `q + 1`.
  let nearer := if 2 * r < step then q else if step < 2 * r then q + 1 else q + q % 2
  let other := if nearer = q then q + 1 else q
  if n.holds unit step nearer then some ⟨nearer, k⟩
  else if n.holds unit step other then some ⟨other, k⟩
  else none

/-- The first of the grids from that of `digits` digits on which holds a decimal that reads back,
among at most `fuel` grids. -/
def firstGrid (x : Binary64) (top : Int) : Nat → Nat → Option Decimal
  | 0, _ => none
  | fuel + 1, digits =>
    match x.onGrid? (top + 1 - digits) with
    | some d => some d
    | none => firstGrid x top fuel (digits + 1)

/-- The shortest decimal that reads back as the magnitude of a number other than zero. Seventeen
digits always suffice. -/
def shortest (x : Binary64) : Decimal :=
  let (num, den) := x.ratio
  let top := decimalMagnitude num den ((digitCount num : Int) - digitCount den)
  ((firstGrid x top 17 1).getD ⟨0, 0⟩).strip 20

end Binary64

end ComponentViews
