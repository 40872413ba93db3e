import ComponentViews.Json.Writer
import ComponentViews.Yaml.Style

/-!
# YAML texts of values

A value is written line by line: the items of a list each after a hyphen, not further indented than
the key that they belong to, and the fields of an object each on a line. Empty lists and objects
are written as brackets.

## Main definitions

* `singleChars`, `doubleChars`, `blockChars`: the spellings of a string.
* `stringChars`: a string.
* `Json.yaml`: the text of a value.
-/

namespace ComponentViews

namespace Yaml

/-- Spaces. -/
def spaces (n : Nat) : List Char := List.replicate n ' '

/-! ## Strings -/

/-- A character between single quotation marks. -/
def singleChar (c : Char) : List Char := if c = '\'' then ['\'', '\''] else [c]

/-- Characters, where what follows line breaks is indented, given whether a line break comes
before. -/
def indentLines (write : Char → List Char) (indent : Nat) (broken : Bool) :
    List Char → List Char
  | [] => []
  | c :: cs =>
    if isBreak c then c :: indentLines write indent true cs
    else (if broken then spaces indent else []) ++ (write c ++ indentLines write indent false cs)

/-- A string between single quotation marks. -/
def singleChars (indent : Nat) (cs : List Char) : List Char :=
  let last := if cs.getLast?.any isBreak then spaces indent else []
  '\'' :: (indentLines singleChar indent false cs ++ (last ++ ['\'']))

/-- The hexadecimal digits of a number, in upper case and of a given width. -/
def upperHex (width n : Nat) : List Char :=
  let digits := (hexDigits n).map Char.toUpper
  List.replicate (width - digits.length) '0' ++ digits

/-- The letters for characters that are escaped by one letter. -/
def escapeLetters : List (Char × Char) :=
  [('\x00', '0'), ('\x07', 'a'), ('\x08', 'b'), ('\t', 't'), ('\n', 'n'), ('\x0b', 'v'),
   ('\x0c', 'f'), ('\r', 'r'), ('\x1b', 'e'), ('"', '"'), ('\\', '\\'), ('\u0085', 'N'),
   ('\u00a0', '_'), ('\u2028', 'L'), ('\u2029', 'P')]

/-- An escape. -/
def escapeChars (c : Char) : List Char :=
  match escapeLetters.lookup c with
  | some letter => ['\\', letter]
  | none =>
    let n := c.toNat
    if n ≤ 0xFF then '\\' :: 'x' :: upperHex 2 n
    else if n ≤ 0xFFFF then '\\' :: 'u' :: upperHex 4 n
    else '\\' :: 'U' :: upperHex 8 n

/-- A character between double quotation marks. -/
def doubleChar (c : Char) : List Char :=
  if !isPrintable c || isBreak c || c = '"' || c = '\\' then escapeChars c else [c]

/-- A string between double quotation marks. -/
def doubleChars (cs : List Char) : List Char :=
  '"' :: (cs.flatMap doubleChar ++ ['"'])

/-- The sign for the line breaks at the end of a block. -/
def chompingChars (cs : List Char) : List Char :=
  match cs.reverse with
  | [] => ['-']
  | [c] => if isBreak c then ['+'] else ['-']
  | c :: d :: _ => if !isBreak c then ['-'] else if isBreak d then ['+'] else []

/-- A string as a block of lines. The indentation is told where it cannot be seen at the first
line. -/
def blockChars (indent : Nat) (cs : List Char) : List Char :=
  -- Indentation is always by two columns, so this is what a hint says.
  let hint := if cs.head?.any isOuter then ['2'] else []
  '|' :: (hint ++ (chompingChars cs ++ '\n' :: indentLines (fun c => [c]) indent true cs))

/-- A string whose further lines are indented. -/
def stringChars (indent : Nat) (s : String) : List Char :=
  let cs := s.toList
  match spelling cs with
  | .plain => cs
  | .single => singleChars indent cs
  | .double => doubleChars cs
  | .block => blockChars indent cs

/-- A key, which takes one line. -/
def keyChars (s : String) : List Char :=
  let cs := s.toList
  if cs.any isBreak then doubleChars cs else stringChars 0 s

/-- A line that ends unless it ended already. -/
def endLine (cs : List Char) : List Char :=
  if cs.getLast?.any isBreak then cs else cs ++ ['\n']

end Yaml

open Yaml

namespace Json

/-- A value on the rest of a line, if it is written so; further lines of a string are indented. -/
def yamlScalar? (indent : Nat) : Json → Option (List Char)
  | .null => some ['n', 'u', 'l', 'l']
  | .bool true => some ['t', 'r', 'u', 'e']
  | .bool false => some ['f', 'a', 'l', 's', 'e']
  | .number n => some n.chars
  | .string s => some (stringChars indent s)
  | .array [] => some ['[', ']']
  | .object [] => some ['\x7b', '\x7d']
  | .array (_ :: _) | .object (_ :: _) => none

mutual

/-- The lines of a value that starts within a line at an indentation. -/
def yamlLines (indent : Nat) : Json → List Char
  | .array (x :: xs) => '-' :: ' ' :: (yamlLines (indent + 2) x ++ yamlItems indent xs)
  | .object ((k, v) :: fs) =>
    keyChars k ++ ':' :: (yamlValue indent v ++ yamlFields indent fs)
  | v => endLine ((v.yamlScalar? indent).getD [])

/-- The lines of the items of a list after the first. -/
def yamlItems (indent : Nat) : List Json → List Char
  | [] => []
  | x :: xs =>
    spaces indent ++ '-' :: ' ' :: (yamlLines (indent + 2) x ++ yamlItems indent xs)

/-- The lines of the fields of an object after the first. -/
def yamlFields (indent : Nat) : List (String × Json) → List Char
  | [] => []
  | (k, v) :: fs =>
    spaces indent ++ (keyChars k ++ ':' :: (yamlValue indent v ++ yamlFields indent fs))

/-- The lines of the value of a field after its colon. -/
def yamlValue (indent : Nat) : Json → List Char
  | .array (x :: xs) =>
    '\n' :: (spaces indent ++ '-' :: ' ' :: (yamlLines (indent + 2) x ++ yamlItems indent xs))
  | .object ((k, v) :: fs) =>
    '\n' :: (spaces (indent + 2) ++
      (keyChars k ++ ':' :: (yamlValue (indent + 2) v ++ yamlFields (indent + 2) fs)))
  | v => ' ' :: endLine ((v.yamlScalar? (indent + 2)).getD [])

end

/-- The YAML text of a value. -/
def yaml (v : Json) : String :=
  match v.yamlScalar? 2 with
  | some cs => String.ofList (endLine cs)
  | none => String.ofList (v.yamlLines 0)

end Json

end ComponentViews
