import ComponentViews.Json.Basic
import ComponentViews.Number.Shortest
import ComponentViews.Text.Digits

/-!
# Texts of JSON values

Two spellings of a value: a compact one without blanks, and one spread over lines with an
indentation of two spaces a level. Both write the same strings and numbers.

## Main definitions

* `Json.quote`: a string between quotation marks.
* `realChars`: a floating-point number, positional from 1e-5 up to 1e16.
* `Json.compact`, `Json.pretty`: the two texts.
-/

namespace ComponentViews

/-! ## Numbers -/

/-- An integer with a minus sign if it is negative. -/
def integerChars : Int → List Char
  | .ofNat n => decimalChars n
  | .negSucc n => '-' :: decimalChars (n + 1)

/-- A decimal number with a point, or with an exponent whose sign is always written. The number
is positional if its first digit stands for at least 1e-5 and less than 1e16. -/
def Decimal.chars (d : Decimal) : List Char :=
  let digits := decimalChars d.digits
  -- The number of digits before the point, not positive if zeros follow the point.
  let point : Int := digits.length + d.exponent
  if 0 < point ∧ point ≤ 16 then
    if 0 ≤ d.exponent then digits ++ List.replicate d.exponent.toNat '0' ++ ['.', '0']
    else digits.take point.toNat ++ '.' :: digits.drop point.toNat
  else if -5 < point ∧ point ≤ 0 then
    '0' :: '.' :: (List.replicate (-point).toNat '0' ++ digits)
  else
    let mantissa :=
      match digits with
      | [d] => [d]
      | d :: rest => d :: '.' :: rest
      | [] => []
    let power := point - 1
    mantissa ++ 'e' :: (if power < 0 then '-' else '+') :: decimalChars power.natAbs

/-- A floating-point number, in the fewest digits that read back, with a point or an exponent. -/
def realChars (x : Binary64) : List Char :=
  (if x.negative then ['-'] else []) ++
    (if x.word = 0 then ['0', '.', '0'] else x.shortest.chars)

/-- The text of a number. -/
def JsonNumber.chars : JsonNumber → List Char
  | .integer n => integerChars n
  | .real x => realChars x

namespace Json

/-! ## Strings -/

/-- A character inside a quoted string. Quotation marks, reversed solidi and control characters
are escaped, all others stand for themselves. -/
def quoteChar (c : Char) : List Char :=
  if c = '"' then ['\\', '"']
  else if c = '\\' then ['\\', '\\']
  else if 0x20 ≤ c.toNat then [c]
  else if c = '\x08' then ['\\', 'b']
  else if c = '\x0c' then ['\\', 'f']
  else if c = '\n' then ['\\', 'n']
  else if c = '\r' then ['\\', 'r']
  else if c = '\t' then ['\\', 't']
  else ['\\', 'u', '0', '0', hexDigit (c.toNat / 16), hexDigit (c.toNat % 16)]

/-- A string between quotation marks. -/
def quote (s : String) : List Char :=
  '"' :: (s.toList.flatMap quoteChar ++ ['"'])

/-! ## The compact text -/

mutual

/-- The text of a value without blanks. -/
def compactChars : Json → List Char
  | .null => ['n', 'u', 'l', 'l']
  | .bool true => ['t', 'r', 'u', 'e']
  | .bool false => ['f', 'a', 'l', 's', 'e']
  | .number n => n.chars
  | .string s => quote s
  | .array [] => ['[', ']']
  | .array (x :: xs) => '[' :: (compactChars x ++ compactItems xs)
  | .object [] => ['\x7b', '\x7d']
  | .object ((k, v) :: fs) => '\x7b' :: (quote k ++ ':' :: (compactChars v ++ compactFields fs))

/-- The items of a list after the first, with the closing bracket. -/
def compactItems : List Json → List Char
  | [] => [']']
  | x :: xs => ',' :: (compactChars x ++ compactItems xs)

/-- The fields of an object after the first, with the closing brace. -/
def compactFields : List (String × Json) → List Char
  | [] => ['\x7d']
  | (k, v) :: fs => ',' :: (quote k ++ ':' :: (compactChars v ++ compactFields fs))

end

/-- The text of a value without blanks. -/
def compact (v : Json) : String := String.ofList v.compactChars

/-! ## The text on several lines -/

/-- A line break and the indentation of a level. -/
def lineBreak (level : Nat) : List Char := '\n' :: List.replicate (2 * level) ' '

mutual

/-- The text of a value that starts on a line of a level. -/
def prettyChars (level : Nat) : Json → List Char
  | .null => ['n', 'u', 'l', 'l']
  | .bool true => ['t', 'r', 'u', 'e']
  | .bool false => ['f', 'a', 'l', 's', 'e']
  | .number n => n.chars
  | .string s => quote s
  | .array [] => ['[', ']']
  | .array (x :: xs) =>
    '[' :: (lineBreak (level + 1) ++ (prettyChars (level + 1) x ++ prettyItems level xs))
  | .object [] => ['\x7b', '\x7d']
  | .object ((k, v) :: fs) =>
    '\x7b' :: (lineBreak (level + 1) ++ (quote k ++ ':' :: ' ' ::
      (prettyChars (level + 1) v ++ prettyFields level fs)))

/-- The items of a list after the first, each on a line of the next level, with the closing
bracket. -/
def prettyItems (level : Nat) : List Json → List Char
  | [] => lineBreak level ++ [']']
  | x :: xs =>
    ',' :: (lineBreak (level + 1) ++ (prettyChars (level + 1) x ++ prettyItems level xs))

/-- The fields of an object after the first, each on a line of the next level, with the closing
brace. -/
def prettyFields (level : Nat) : List (String × Json) → List Char
  | [] => lineBreak level ++ ['\x7d']
  | (k, v) :: fs =>
    ',' :: (lineBreak (level + 1) ++ (quote k ++ ':' :: ' ' ::
      (prettyChars (level + 1) v ++ prettyFields level fs)))

end

/-- The text of a value on several lines. -/
def pretty (v : Json) : String := String.ofList (v.prettyChars 0)

end Json

end ComponentViews
