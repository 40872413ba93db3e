/-!
# Files and the clock

What a command needs of the machine on which it runs.

## Main definitions

* `FileError`: why a file cannot be read or written.
* `Host`: files and a clock, in any effect.
-/

namespace ComponentViews

/-- Why a file or directory cannot be read, written or made. -/
inductive FileError where
  /-- There is nothing of that name. -/
  | notFound
  /-- There is something of that name already. -/
  | exists
  /-- Something on the way is no directory. -/
  | notDirectory
  /-- It is a directory. -/
  | isDirectory
  /-- The path, or a name on the way, is too long. -/
  | nameTooLong
  /-- No name can have such a character. -/
  | badName
  /-- The content is no text. -/
  | notText
  /-- Something else. -/
  | other (message : String)
  deriving DecidableEq, Repr

/-- The message for an error. -/
def FileError.message : FileError → String
  | .notFound => "No such file or directory (os error 2)"
  | .exists => "File exists (os error 17)"
  | .notDirectory => "Not a directory (os error 20)"
  | .isDirectory => "Is a directory (os error 21)"
  | .nameTooLong => "File name too long (os error 36)"
  | .badName => "file name contained an unexpected NUL byte"
  | .notText => "stream did not contain valid UTF-8"
  | .other message => message

/-- Files and a clock. -/
class Host (m : Type → Type) where
  /-- Whether there is something at a path. -/
  isThere : String → m Bool
  /-- Whether there is a directory at a path. -/
  isDirectory : String → m Bool
  /-- The text of the file at a path. -/
  read : String → m (Except FileError String)
  /-- Put a text into the file at a path, which is made if there is none. -/
  write : String → String → m (Except FileError Unit)
  /-- Make the directory at a path within one that is there. -/
  makeDirectory : String → m (Except FileError Unit)
  /-- The path and those of all that is inside and can be reached, in any order. -/
  listing : String → m (List String)
  /-- The milliseconds since the start, in digits. -/
  elapsed : m String

end ComponentViews
