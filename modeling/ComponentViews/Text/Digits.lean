/-!
# Digits

Decimal and hexadecimal digits as characters.

## Main definitions

* `hexDigit`, `hexDigits`: digits of numbers in base sixteen, in lower case.
* `hexValue?`: the value of a digit in either case.
* `decimalChars`: the decimal digits of a number.
-/

namespace ComponentViews

/-- The digit of a number below sixteen, in lower case. -/
def hexDigit (n : Nat) : Char :=
  if n < 10 then Char.ofNat (48 + n) else Char.ofNat (87 + n)

/-- The hexadecimal digits of a number, with at least one digit and no leading zeros. -/
def hexDigits (n : Nat) : List Char :=
  if n < 16 then [hexDigit n] else hexDigits (n / 16) ++ [hexDigit (n % 16)]

/-- The value of a hexadecimal digit in either case. -/
def hexValue? (c : Char) : Option Nat :=
  if '0' ≤ c ∧ c ≤ '9' then some (c.toNat - 48)
  else if 'a' ≤ c ∧ c ≤ 'f' then some (c.toNat - 87)
  else if 'A' ≤ c ∧ c ≤ 'F' then some (c.toNat - 55)
  else none

/-- The number whose hexadecimal digits follow those of another number. -/
def hexNumber? (start : Nat) : List Char → Option Nat
  | [] => some start
  | c :: cs => (hexValue? c).bind fun d => hexNumber? (16 * start + d) cs

/-- The decimal digits of a natural number. -/
def decimalChars (n : Nat) : List Char := Nat.toDigits 10 n

/-- The digit of a number below sixteen reads back. -/
theorem hexValue?_hexDigit : ∀ n, n < 16 → hexValue? (hexDigit n) = some n := by
  decide

end ComponentViews
