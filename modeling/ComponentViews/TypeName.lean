import ComponentViews.Text.Blank
import ComponentViews.Text.Word

/-!
# Names of type references

The rendering of a reference to a named type is a path of identifiers with points between them and
perhaps type arguments between angle brackets, with white space around each. Its base name is the
last identifier of the path.

## Main definitions

* `isIdentifier`: whether a text is an identifier.
* `baseTypeName?`: the base name of a rendering that is a reference.
-/

namespace ComponentViews

/-- Whether an identifier may start with a character: an ASCII letter, a low line or a dollar
sign. -/
def isIdentifierStart (c : Char) : Bool :=
  c.isAlpha || c = '_' || c = '$'

/-- Whether an identifier may go on with a character. -/
def isIdentifierChar (c : Char) : Bool :=
  isWordChar c || c = '$'

/-- Whether a text is an identifier. -/
def isIdentifier : List Char → Bool
  | [] => false
  | c :: cs => isIdentifierStart c && cs.all isIdentifierChar

/-- Whether a text is empty or a text without line feeds between angle brackets. -/
def isArguments : List Char → Bool
  | [] => true
  | '<' :: cs => cs.getLast? = some '>' && !cs.dropLast.contains '\n'
  | _ => false

/-- Whether a character belongs to a path of identifiers. -/
def isPathChar (c : Char) : Bool :=
  isIdentifierChar c || c = '.'

/-- The base name of a rendering that is a reference to a named type. -/
def baseTypeName? (rendered : String) : Option String :=
  let cs := trimLeft rendered.toList
  -- No character of a path is white space or a bracket, so the path ends where it has to.
  let path := (cs.takeWhile isPathChar).splitOn '.'
  if path.all isIdentifier && isArguments (trimBlanks (cs.dropWhile isPathChar)) then
    path.getLast?.map String.ofList
  else none

end ComponentViews
