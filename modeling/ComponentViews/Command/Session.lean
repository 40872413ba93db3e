import ComponentViews.Configuration
import ComponentViews.Registry

/-!
# Sessions

A session runs a command on a host. It reports on its way, may print, and may fail; what it reported
and printed before it failed stays.

## Main definitions

* `CommandError`: why a command failed, with its chain of messages.
* `Session`: a command that runs on a host.
* `Session.log`, `Session.print`, `Session.fail`: what a session does.
-/

namespace ComponentViews

/-- Why a command failed. -/
inductive CommandError where
  /-- The configuration cannot be read. -/
  | unreadableConfiguration (path : String) (cause : FileError)
  /-- The configuration is no configuration. -/
  | malformedConfiguration (path : String)
  /-- The graphs cannot be loaded. -/
  | unloadedGraphs (path : String) (cause : RegistryError)
  /-- A directory cannot be made. -/
  | missingDirectory (name : String) (cause : FileError)
  /-- A file cannot be written. -/
  | unwrittenFile (path : String) (cause : FileError)
  /-- Properties of components cannot be converted. -/
  | needsAttention (properties components : Nat)
  deriving DecidableEq, Repr

/-- The messages for an error, from the outermost to its cause. -/
def CommandError.chain : CommandError → List String
  | .unreadableConfiguration path cause => [s!"Failed to read {path}", cause.message]
  | .malformedConfiguration path => [s!"Failed to parse {path}"]
  | .unloadedGraphs path cause => [s!"Failed to load graphs from {path}", cause.message]
  | .missingDirectory name cause => [s!"Failed to create {name}", cause.message]
  | .unwrittenFile path cause => [s!"Failed to write {path}", cause.message]
  | .needsAttention properties components =>
    [s!"{properties} properties across {components} components could not be converted"]

/-- What a session has reported and printed. -/
structure Transcript where
  /-- The reports, oldest first. -/
  events : List LogEvent := []
  /-- What was printed. -/
  printed : String := ""
  deriving DecidableEq, Repr

/-- A command that runs on a host. -/
abbrev Session (m : Type → Type) := ExceptT CommandError (StateT Transcript m)

namespace Session

variable {m : Type → Type} [Monad m] {α : Type}

/-- Do something on the host. -/
def onHost (x : m α) : Session m α := ExceptT.lift (StateT.lift x)

/-- Take over the reports of a computation. -/
def log (x : Logged α) : Session m α := do
  -- The reports are kept even if the session fails later.
  modify fun t => { t with events := t.events ++ x.events }
  pure x.value

/-- Print a text. -/
def print (text : String) : Session m Unit :=
  modify fun t => { t with printed := t.printed ++ text }

/-- Fail. -/
def fail (e : CommandError) : Session m α := throw e

/-- The value of an outcome, or fail for its cause. -/
def orFail {ε : Type} (toError : ε → CommandError) : Except ε α → Session m α
  | .ok a => pure a
  | .error e => fail (toError e)

end Session

end ComponentViews
