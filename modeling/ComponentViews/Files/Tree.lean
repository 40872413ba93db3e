import ComponentViews.Files.Host
import ComponentViews.Files.Path

/-!
# File trees

A file tree is the state of all files below a directory, in which commands run, each found by the
names on the way to it. The directories around that directory are there as well, but hold nothing
else that could be found. Paths from the root of all files lead nowhere.

## Main definitions

* `FileTree`, `FileTree.entry?`: files and directories by their names.
* `pathSteps`, `FileTree.walk`: follow a path.
* `FileTree.read`, `FileTree.write`, `FileTree.makeDirectory`, `FileTree.listing`: operations.
* `Desk`: a file tree with a clock that stands still, which is a host.
-/

namespace ComponentViews

/-- A name in a directory. -/
abbrev FileName := List Char

/-- The step out of a directory. -/
def outStep : FileName := ['.', '.']

/-- Something in a directory. -/
inductive FileEntry where
  /-- A directory. -/
  | directory
  /-- A file with its text, unless its content is no text. -/
  | file (text : Option String)
  deriving DecidableEq, Repr

/-- Files and directories, each with the names on the way to it; the way may begin with steps out
of the directory in which commands run. -/
structure FileTree where
  /-- The entries. -/
  entries : List (List FileName × FileEntry) := []
  deriving Repr

namespace FileTree

/-- Whether a way leads to the directory in which commands run, or to one around it. -/
def isOutward (way : List FileName) : Bool := way.all (· = outStep)

/-- What is at the end of a way. -/
def entry? (t : FileTree) (way : List FileName) : Option FileEntry :=
  if isOutward way then some .directory else t.entries.lookup way

/-- Put something at the end of a way, in place of what is there. -/
def put (t : FileTree) (way : List FileName) (e : FileEntry) : FileTree :=
  ⟨t.entries.filter (fun x => x.1 ≠ way) ++ [(way, e)]⟩

/-- Make sure that there are directories on a way, where there is nothing. -/
def putWay (t : FileTree) (done : List FileName) : List FileName → FileTree
  | [] => t
  | name :: names =>
    let way := done ++ [name]
    let t := if (t.entry? way).isSome then t else t.put way .directory
    t.putWay way names

/-! ## Following paths -/

/-- Whether a name has at most as many bytes as a name may have. -/
def isShort (name : FileName) : Bool := (String.ofList name).utf8ByteSize ≤ 255

/-- The way to the directory around what is at the end of a way. -/
def outward (way : List FileName) : List FileName :=
  if isOutward way then way ++ [outStep] else way.dropLast

/-- Follow the segments of a path from the end of a way. -/
def walk (t : FileTree) (way : List FileName) : List (List Char) → Except FileError (List FileName)
  | [] => .ok way
  | s :: rest =>
    match t.entry? way with
    | some .directory =>
      -- These stay where they are.
      if s = [] ∨ s = ['.'] then t.walk way rest
      else if s = outStep then t.walk (outward way) rest
      else if !isShort s then .error .nameTooLong
      else if (t.entry? (way ++ [s])).isSome then t.walk (way ++ [s]) rest
      else .error .notFound
    | some (.file _) => .error .notDirectory
    | none => .error .notFound

end FileTree

/-- The segments of a path that can be followed. Nothing is followed if the path has a zero
character, is too long, is empty or starts at the root. -/
def pathSteps (path : String) : Except FileError (List (List Char)) :=
  if path.toList.contains '\x00' then .error .badName
  else if !isShortPath path then .error .nameTooLong
  else if path = "" ∨ path.toList.head? = some '/' then .error .notFound
  else .ok (pathSegments path)

namespace FileTree

/-- What is at a path. -/
def find (t : FileTree) (path : String) : Except FileError FileEntry := do
  let segments ← pathSteps path
  let way ← t.walk [] segments
  match t.entry? way with
  | some e => .ok e
  | none => .error .notFound

/-- Whether there is something at a path. -/
def isThere (t : FileTree) (path : String) : Bool := (t.find path).toBool

/-- Whether there is a directory at a path. -/
def isDirectory (t : FileTree) (path : String) : Bool :=
  match t.find path with
  | .ok .directory => true
  | _ => false

/-! ## Operations -/

/-- The text of the file at a path. -/
def read (t : FileTree) (path : String) : Except FileError String := do
  match ← t.find path with
  | .directory => .error .isDirectory
  | .file (some text) => .ok text
  | .file none => .error .notText

/-- The segments of a path without the empty ones after its last name. -/
def trimSegments (segments : List (List Char)) : List (List Char) :=
  (segments.reverse.dropWhile (· = [])).reverse

/-- The way to the directory around the last name of a path, and that name. -/
def place (t : FileTree) (path : String) : Except FileError (List FileName × FileName) := do
  let segments ← pathSteps path
  let trimmed := trimSegments segments
  let way ← t.walk [] trimmed.dropLast
  match t.entry? way with
  | some .directory => .ok (way, trimmed.getLast?.getD [])
  | some (.file _) => .error .notDirectory
  | none => .error .notFound

/-- Put a text into the file at a path. A path that ends in a solidus is none of a file. -/
def write (t : FileTree) (path text : String) : Except FileError FileTree := do
  let (way, name) ← t.place path
  if path.toList.getLast? = some '/' ∨ name = ['.'] ∨ name = outStep then .error .isDirectory
  else if !isShort name then .error .nameTooLong
  else
    match t.entry? (way ++ [name]) with
    | some .directory => .error .isDirectory
    | _ => .ok (t.put (way ++ [name]) (.file (some text)))

/-- Make the directory at a path within one that is there. -/
def makeDirectory (t : FileTree) (path : String) : Except FileError FileTree := do
  let (way, name) ← t.place path
  if name = ['.'] ∨ name = outStep then .error .exists
  else if !isShort name then .error .nameTooLong
  else if (t.entry? (way ++ [name])).isSome then .error .exists
  else .ok (t.put (way ++ [name]) .directory)

/-- The path of something inside a directory, where the names on the way from there are added to
the path of the directory as it is written. -/
def pathBelow (path : String) (names : List FileName) : String :=
  names.foldl (fun p n => joinPath p (String.ofList n)) path

/-- The path and those of all that is inside, unless they are too long. -/
def listing (t : FileTree) (path : String) : List String :=
  match pathSteps path >>= t.walk [] with
  | .error _ => []
  | .ok way =>
    let below := t.entries.filterMap fun (names, _) =>
      let inside := names.drop way.length
      if way.isPrefixOf names ∧ inside ≠ [] ∧ inside.head? ≠ some outStep then
        some (pathBelow path inside)
      else none
    path :: below.filter isShortPath

end FileTree

/-! ## A host -/

/-- A file tree with a clock that stands still. -/
structure Desk where
  /-- The files. -/
  files : FileTree
  /-- What the clock shows. -/
  clock : String
  deriving Repr

/-- Change the files, unless that fails. -/
def Desk.change (operation : FileTree → Except FileError FileTree) :
    StateM Desk (Except FileError Unit) := do
  let desk ← get
  match operation desk.files with
  | .ok files =>
    set { desk with files }
    pure (.ok ())
  | .error e => pure (.error e)

instance : Host (StateM Desk) where
  isThere path := do pure ((← get).files.isThere path)
  isDirectory path := do pure ((← get).files.isDirectory path)
  read path := do pure ((← get).files.read path)
  write path text := Desk.change fun files => files.write path text
  makeDirectory path := Desk.change fun files => files.makeDirectory path
  listing path := do pure ((← get).files.listing path)
  elapsed := do pure (← get).clock

end ComponentViews
