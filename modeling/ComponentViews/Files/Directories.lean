import ComponentViews.Files.Host
import ComponentViews.Files.Path

/-!
# Making directories

Where the directories around one that is to be made are missing, they are made first. What has been
made stays, also if more cannot be made.

## Main definitions

* `makeOutward`: make the first of some directories, and before it those after it in the list.
* `makeDirectories`: make a directory with those around it.
-/

namespace ComponentViews

variable {m : Type → Type} [Monad m] [Host m]

/-- Make the directory that comes first. If there is no place for it, make that which follows, and
then try once more. It is no failure that the directory is there already. -/
def makeOutward : List String → m (Except FileError Unit)
  | [] => pure (.ok ())
  | path :: around => do
    let settle (outcome : Except FileError Unit) : m (Except FileError Unit) := do
      match outcome with
      | .ok () => pure (.ok ())
      -- A failure is passed over if the directory is there.
      | .error e => if ← Host.isDirectory path then pure (.ok ()) else pure (.error e)
    match ← Host.makeDirectory path with
    -- The directories around it come first.
    | .error .notFound =>
      match ← makeOutward around with
      | .error e => pure (.error e)
      | .ok () => settle (← Host.makeDirectory path)
    | outcome => settle outcome

/-- Make the directory at a path with those around it, unless it is there. The empty path is that
of the directory in which a program runs. -/
def makeDirectories (path : String) : m (Except FileError Unit) :=
  if path = "" then pure (.ok ()) else makeOutward (directoriesOn path)

end ComponentViews
