import ComponentViews.Number.Notation

/-!
# Dates and times of TOML

A date, a time, or both with an offset or without. A day exists in its month, and the sixtieth
second is allowed.

## Main definitions

* `date?`, `time?`, `offset?`: the parts.
* `moment?`: the date or time that follows, in canonical form.
-/

namespace ComponentViews.Toml

/-- A number below a hundred with two digits, if it lies between two limits, and the text after
it. -/
def twoDigits? (low high : Nat) : List Char → Option (Nat × List Char)
  | a :: b :: cs =>
    let n := decimalNumber [a, b]
    if a.isDigit && b.isDigit && low ≤ n && n ≤ high then some (n, cs) else none
  | _ => none

/-- The text after a character that has to follow. -/
def expect? (x : Char) : List Char → Option (List Char)
  | c :: cs => if c = x then some cs else none
  | [] => none

/-- A number with two digits at least. -/
def pad (n : Nat) : List Char :=
  if n < 10 then '0' :: decimalChars n else decimalChars n

/-- The number of days of a month. -/
def daysOf (year month : Nat) : Nat :=
  if month = 2 then
    if year % 4 = 0 ∧ (year % 100 ≠ 0 ∨ year % 400 = 0) then 29 else 28
  else if [4, 6, 9, 11].contains month then 30
  else 31

/-- The date that follows, in canonical form, and the text after it. -/
def date? (cs : List Char) : Option (List Char × List Char) := do
  let year := cs.take 4
  if year.length = 4 && year.all Char.isDigit then
    let cs ← expect? '-' (cs.drop 4)
    let (month, cs) ← twoDigits? 1 12 cs
    let cs ← expect? '-' cs
    let (day, cs) ← twoDigits? 1 (daysOf (decimalNumber year) month) cs
    pure (year ++ '-' :: (pad month ++ '-' :: pad day), cs)
  else none

/-- The fraction of a second in canonical form: at most nine digits, none of them a needless
zero. -/
def fractionText (digits : List Char) : List Char :=
  let kept := ((digits.take 9).reverse.dropWhile (· = '0')).reverse
  if kept.isEmpty then [] else '.' :: kept

/-- The fraction of a second that follows, if there is one. -/
def secondFraction? : List Char → Option (List Char × List Char)
  | '.' :: cs =>
    let digits := cs.takeWhile Char.isDigit
    if digits.isEmpty then none
    else some (fractionText digits, cs.dropWhile Char.isDigit)
  | cs => some ([], cs)

/-- The time that follows, in canonical form, and the text after it. -/
def time? (cs : List Char) : Option (List Char × List Char) := do
  let (hour, cs) ← twoDigits? 0 23 cs
  let cs ← expect? ':' cs
  let (minute, cs) ← twoDigits? 0 59 cs
  let cs ← expect? ':' cs
  let (second, cs) ← twoDigits? 0 60 cs
  let (fraction, cs) ← secondFraction? cs
  pure (pad hour ++ ':' :: (pad minute ++ ':' :: (pad second ++ fraction)), cs)

/-- The offset that follows, in canonical form, and the text after it. -/
def offset? : List Char → Option (List Char × List Char)
  | [] => none
  | c :: cs =>
    if c = 'Z' ∨ c = 'z' then some (['Z'], cs)
    else if c = '+' ∨ c = '-' then do
      let (hour, cs) ← twoDigits? 0 23 cs
      let cs ← expect? ':' cs
      let (minute, cs) ← twoDigits? 0 59 cs
      let sign := if hour = 0 ∧ minute = 0 then '+' else c
      pure (sign :: (pad hour ++ ':' :: pad minute), cs)
    else none

/-- The time after a date, with its offset if it has one. -/
def timeAfter? : List Char → Option (List Char × List Char)
  | [] => none
  | c :: cs =>
    if c = 'T' ∨ c = 't' ∨ c = ' ' then do
      let (time, cs) ← time? cs
      let (offset, cs) := (offset? cs).getD ([], cs)
      pure ('T' :: (time ++ offset), cs)
    else none

/-- The date or time that follows, in canonical form, and the text after it. -/
def moment? (cs : List Char) : Option (List Char × List Char) :=
  match date? cs with
  | some (date, rest) =>
    match timeAfter? rest with
    | some (time, rest) => some (date ++ time, rest)
    -- A space after a date is white space if no time follows it.
    | none => some (date, rest)
  | none => time? cs

end ComponentViews.Toml
