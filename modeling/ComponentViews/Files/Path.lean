/-!
# Paths

A path is a text of names with solidi between them. How it is written shows in messages, while for
comparing paths and for finding the last name only its parts count: solidi that are repeated or
stand at the end say nothing, and neither does a point between two of them. The texts between the
solidi are the segments of a path.

## Main definitions

* `PathPart`, `pathParts`: the parts of a path.
* `pathLe`: the order of paths, part by part.
* `pathExtension?`: what comes after the last point of the last name.
* `joinPath`: a path inside a directory.
* `directoriesOn`: a path with those of the directories around it.
-/

namespace ComponentViews

/-- A part of a path. -/
inductive PathPart where
  /-- The root of all files, at the start. -/
  | root
  /-- The directory in which a program runs, at the start. -/
  | here
  /-- The directory around. -/
  | up
  /-- A name. -/
  | name (text : List Char)
  deriving DecidableEq, Repr

namespace PathPart

/-- The part that stands between two solidi, if it says something there. -/
def ofSegment? (s : List Char) : Option PathPart :=
  if s = [] ∨ s = ['.'] then none
  else if s = ['.', '.'] then some .up
  else some (.name s)

/-- What is written for a part. -/
def segment : PathPart → List Char
  | .root => []
  | .here => ['.']
  | .up => ['.', '.']
  | .name s => s

/-- The place of a kind of part in the order of paths. -/
def rank : PathPart → Nat
  | .root => 0
  | .here => 1
  | .up => 2
  | .name _ => 3

/-- Whether a part comes before another: names come last and in the order of their characters. -/
def before (a b : PathPart) : Bool :=
  a.rank < b.rank || (a.rank = b.rank && a.segment < b.segment)

end PathPart

/-- The segments of a path. -/
def pathSegments (path : String) : List (List Char) := path.toList.splitOn '/'

/-- Whether a path has fewer bytes than are too many for a path. -/
def isShortPath (path : String) : Bool := path.utf8ByteSize < 4096

/-- The parts of a path. -/
def pathParts (path : String) : List PathPart :=
  let segments := pathSegments path
  -- A point alone says something only at the start.
  let first : List PathPart :=
    match segments with
    | [] :: _ :: _ => [.root]
    | ['.'] :: _ => [.here]
    | _ => []
  first ++ segments.filterMap PathPart.ofSegment?

/-- Whether a list of parts is not after another in the order of paths. -/
def partsLe : List PathPart → List PathPart → Bool
  | [], _ => true
  | _ :: _, [] => false
  | a :: as, b :: bs => a.before b || (!b.before a && partsLe as bs)

/-- Whether a path is not after another. -/
def pathLe (a b : String) : Bool := partsLe (pathParts a) (pathParts b)

/-- What comes after the last point of a name, unless the point is at its start. -/
def nameExtension? (name : List Char) : Option (List Char) :=
  let after := (name.reverse.takeWhile (· ≠ '.')).reverse
  -- There has to be a point, and something before it.
  if after.length + 1 < name.length then some after else none

/-- What comes after the last point of the last name of a path. -/
def pathExtension? (path : String) : Option String :=
  match (pathParts path).getLast? with
  | some (.name s) => (nameExtension? s).map String.ofList
  | _ => none

/-- The path of something inside a directory. A path that starts at the root stays as it is. -/
def joinPath (directory path : String) : String :=
  if directory = "" ∨ path.toList.head? = some '/' then path
  else if directory.toList.getLast? = some '/' then directory ++ path
  else directory ++ "/" ++ path

/-- The paths that end in a part, from the longest to the shortest, given the segments of a path
from the last to the first. The root is left out. -/
def pathsOutward : List (List Char) → List String
  | [] => []
  | s :: outer =>
    if s = [] ∨ (s = ['.'] ∧ outer ≠ []) then pathsOutward outer
    else String.ofList (['/'].intercalate (s :: outer).reverse) :: pathsOutward outer

/-- A path as it is written, followed by the paths of the directories around it, from the innermost
out. -/
def directoriesOn (path : String) : List String :=
  path :: (pathsOutward (pathSegments path).reverse).tail

end ComponentViews
