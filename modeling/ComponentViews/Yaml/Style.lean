import ComponentViews.Yaml.Cursor
import ComponentViews.Yaml.Resolution

/-!
# Spellings of strings

A string is written without quotation marks where it then reads back as the same string. Otherwise
it is written between single quotation marks, as a block of lines if it has several, or between
double quotation marks with escapes, whichever comes first of those that can express it.

## Main definitions

* `isPrintable`: characters that are written as they are.
* `allowsPlain`, `allowsSingle`, `allowsBlock`: which spellings can express a string.
* `Spelling`, `spelling`: the spelling of a string.
-/

namespace ComponentViews.Yaml

/-- Whether a character is written as it is. -/
def isPrintable (c : Char) : Bool :=
  let n := c.toNat
  n = 0x0A || (0x20 ≤ n && n ≤ 0x7E) || (0xA0 ≤ n && n ≠ 0xFEFF && n ≠ 0xFFFE && n ≠ 0xFFFF)

/-! ## What a string contains -/

/-- Whether two characters of two classes follow each other. -/
def hasPair (p q : Char → Bool) : List Char → Bool
  | a :: b :: cs => (p a && q b) || hasPair p q (b :: cs)
  | _ => false

/-- Whether a string starts with a sign that has a meaning at the start of a node. -/
def startsWithSign : List Char → Bool
  | [] => false
  | c :: cs =>
    ['#', ',', '[', ']', '\x7b', '\x7d', '&', '*', '!', '|', '>', '\'', '"', '%', '@',
      '\x60'].contains c ||
      (['?', ':', '-'].contains c && startsGap cs)

/-- Whether a string contains a colon before white space or at its end. -/
def hasValueSign : List Char → Bool
  | [] => false
  | c :: cs => (c = ':' && startsGap cs) || hasValueSign cs

/-- Whether a string contains a number sign after white space or a line break. -/
def hasComment (cs : List Char) : Bool := hasPair (fun c => isGap c || isBreak c) (· = '#') cs

/-- Whether a string starts like the sign between documents. -/
def startsWithMarker : List Char → Bool
  | '-' :: '-' :: '-' :: _ | '.' :: '.' :: '.' :: _ => true
  | _ => false

/-- Whether a string would be taken for something else than a scalar. -/
def hasMeaning (cs : List Char) : Bool :=
  startsWithMarker cs || startsWithSign cs || hasValueSign cs || hasComment cs

/-- Whether a character is a space or a line break. -/
def isOuter (c : Char) : Bool := c = ' ' || isBreak c

/-- Whether a string can only be written with escapes. -/
def needsEscapes (cs : List Char) : Bool :=
  !cs.all isPrintable || hasPair (· = ' ') isBreak cs

/-- Whether a string can be written without quotation marks. -/
def allowsPlain (cs : List Char) : Bool :=
  !needsEscapes cs && !cs.any isBreak && !(cs.head?.any isOuter || cs.getLast?.any isOuter) &&
    !hasMeaning cs

/-- Whether a string can be written between single quotation marks. -/
def allowsSingle (cs : List Char) : Bool := !needsEscapes cs && !hasPair isBreak (· = ' ') cs

/-- Whether a string can be written as a block of lines. -/
def allowsBlock (cs : List Char) : Bool := !needsEscapes cs && cs.getLast? ≠ some ' '

/-! ## Spellings -/

/-- A spelling of a string. -/
inductive Spelling where
  /-- Without quotation marks. -/
  | plain
  /-- Between single quotation marks. -/
  | single
  /-- Between double quotation marks. -/
  | double
  /-- As a block of lines. -/
  | block
  deriving DecidableEq, Repr

/-- Whether a string would be read as another value if written without quotation marks. -/
def readsAsOther (cs : List Char) : Bool :=
  match scalarValue cs with
  | .text => isPaddedDigits cs
  | _ => true

/-- The spelling of a string. -/
def spelling (cs : List Char) : Spelling :=
  -- Several lines make a block, whatever else the string may look like.
  if cs.contains '\n' then if allowsBlock cs then .block else .double
  else if allowsPlain cs && !readsAsOther cs then .plain
  else if allowsSingle cs then .single
  else .double

end ComponentViews.Yaml
