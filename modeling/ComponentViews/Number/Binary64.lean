/-!
# Binary floating-point numbers

A number of 64 bits is a sign and a magnitude. The magnitude is kept as the word that encodes it:
the word counts the magnitudes from zero up, so a greater magnitude has a greater word. All
arithmetic is exact arithmetic on natural numbers followed by one rounding to the nearest
magnitude, where a tie goes to the even word.

## Main definitions

* `Binary64`: a finite number.
* `Binary64.significand`, `Binary64.exponent`: the magnitude is the first times two to the second.
* `Binary64.ofRatio?`: the nearest number to a quotient, if it is not too large.
* `Binary64.mul?`, `Binary64.div?`: rounded product and quotient of magnitudes.
-/

namespace ComponentViews

/-- A finite binary floating-point number of 64 bits. -/
structure Binary64 where
  /-- Whether the number has a minus sign; zero may have one. -/
  negative : Bool
  /-- The word of the magnitude: the number of smaller magnitudes. -/
  word : Nat
  deriving DecidableEq, Repr

namespace Binary64

/-- The first word that encodes no finite magnitude. -/
def limit : Nat := 2047 * Nat.pow 2 52

/-- Zero without a minus sign. -/
def zero : Binary64 := ⟨false, 0⟩

/-- The part of a word that counts doublings of the smallest unit. -/
def scale (w : Nat) : Nat := w / Nat.pow 2 52 - 1

/-- The integer whose multiple by a power of two is the magnitude. -/
def significand (x : Binary64) : Nat :=
  x.word - scale x.word * Nat.pow 2 52

/-- The power of two by which the significand is multiplied. -/
def exponent (x : Binary64) : Int :=
  (scale x.word : Int) - 1074

/-- The magnitude as a quotient of natural numbers. -/
def ratio (x : Binary64) : Nat × Nat :=
  (x.significand * Nat.pow 2 x.exponent.toNat, Nat.pow 2 (-x.exponent).toNat)

/-- The nearest integer to a quotient; a tie goes to the even integer. -/
def roundDiv (num den : Nat) : Nat :=
  let q := num / den
  let r := num % den
  if 2 * r < den then q
  else if den < 2 * r then q + 1
  else if q % 2 = 0 then q else q + 1

/-- The number of doublings of the smallest unit at which a quotient has 53 bits before the
point; zero for quotients too small for that. -/
def scaleOf (num den : Nat) : Nat :=
  -- The quotient of the leading powers of two is off by one place at most.
  let guess := num.log2 + 1074 - 52 - den.log2
  if num = 0 then 0
  else if num * Nat.pow 2 1074 < Nat.pow 2 52 * den * Nat.pow 2 guess then guess - 1
  else guess

/-- The word of the nearest magnitude to a quotient. The words of one scale follow those of the
scale below, so rounding up to the next power of two needs no case of its own. -/
def nearestWord (num den : Nat) : Nat :=
  let s := scaleOf num den
  s * Nat.pow 2 52 + roundDiv (num * Nat.pow 2 1074) (den * Nat.pow 2 s)

/-- The nearest number to a quotient of natural numbers, if it is finite. -/
def ofRatio? (negative : Bool) (num den : Nat) : Option Binary64 :=
  let w := nearestWord num den
  if w < limit then some ⟨negative, w⟩ else none

/-- The nearest number to a natural number, if it is finite. -/
def ofNat? (n : Nat) : Option Binary64 := ofRatio? false n 1

/-- The magnitude of a product, rounded. -/
def mul? (x y : Binary64) : Option Binary64 :=
  let (a, b) := x.ratio
  let (c, d) := y.ratio
  ofRatio? false (a * c) (b * d)

/-- The magnitude of a quotient by a number other than zero, rounded. -/
def div? (x y : Binary64) : Option Binary64 :=
  let (a, b) := x.ratio
  let (c, d) := y.ratio
  ofRatio? false (a * d) (b * c)

end Binary64

end ComponentViews
