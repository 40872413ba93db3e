import ComponentViews.Command.Help
import ComponentViews.Command.Run

/-!
# The program

The program runs the command that its arguments ask for on the files of the machine.

## Main definitions

* `main`: the program.
-/

namespace ComponentViews

/-- A program that knows when it started. -/
abbrev Program := ReaderT Nat IO

/-- The reason why a file operation failed. -/
def fileErrorOf : IO.Error → FileError
  | .noFileOrDirectory _ _ _ => .notFound
  | .alreadyExists _ _ _ => .exists
  | .inappropriateType _ 20 _ => .notDirectory
  | .inappropriateType _ 21 _ => .isDirectory
  | .invalidArgument _ 36 _ => .nameTooLong
  | e => .other (toString e)

/-- Whether a path has a character that no name can have. -/
def isBadPath (path : String) : Bool := path.toList.contains '\x00'

/-- Do something at a path, or tell why it failed. -/
def attempt {α : Type} (path : String) (action : IO α) : IO (Except FileError α) := do
  if isBadPath path then pure (.error .badName)
  else
    try pure (.ok (← action))
    catch e => pure (.error (fileErrorOf e))

/-- Whether there is something at a path. -/
def pathIsThere (path : String) : IO Bool := do
  try
    let _ ← IO.FS.realPath path
    pure (!isBadPath path)
  catch _ => pure false

/-- Whether there is a directory at a path. -/
def pathIsDirectory (path : String) : IO Bool := do
  try
    let place ← IO.FS.realPath path
    pure (!isBadPath path && (← place.isDir))
  catch _ => pure false

/-- The text of a file. -/
def textOfFile (path : String) : IO (Except FileError String) := do
  match ← attempt path (IO.FS.readBinFile path) with
  | .error e => pure (.error e)
  | .ok bytes =>
    match String.fromUTF8? bytes with
    | some text => pure (.ok text)
    | none => pure (.error .notText)

/-- A path and those of all that is inside, as far as it nests to a depth. -/
def pathsBelow : Nat → String → IO (List String)
  | 0, _ => pure []
  | depth + 1, path => do
    if ← pathIsDirectory path then
      let place ← IO.FS.realPath path
      let names := (← place.readDir).toList.map (·.fileName)
      let inside ← names.mapM fun name => pathsBelow depth (joinPath path name)
      pure (path :: inside.flatten)
    else pure [path]

instance : Host Program where
  isThere path := pathIsThere path
  isDirectory path := pathIsDirectory path
  read path := textOfFile path
  write path text := attempt path (IO.FS.writeFile path text)
  makeDirectory path := attempt path (IO.FS.createDir path)
  listing path := do pure ((← pathsBelow 255 path).filter isShortPath)
  elapsed := do
    let now ← IO.monoMsNow
    pure (toString (now - (← read)))

/-- The text for an error with its causes. -/
def errorText : List String → String
  | [] => ""
  | [message] => s!"Error: {message}\n"
  | message :: causes =>
    s!"Error: {message}\n\nCaused by:\n" ++
      String.join (causes.map fun cause => "    " ++ cause ++ "\n")

/-- Run a command and show what became of it. -/
def perform (i : Invocation) : IO UInt32 := do
  let start ← IO.monoMsNow
  let outcome ← (Invocation.run i : Program CommandOutcome) start
  let stdout ← IO.getStdout
  let stderr ← IO.getStderr
  stdout.putStr outcome.transcript.printed
  for line in outcome.logLines i.verbose do
    stderr.putStrLn line
  stderr.putStr (errorText outcome.errorChain)
  pure (UInt32.ofNat outcome.exitCode)

end ComponentViews

open ComponentViews in
/-- The program. -/
def main (arguments : List String) : IO UInt32 := do
  match Request.ofArguments? arguments with
  | some (.run invocation) => perform invocation
  | some (.help command) => do
    IO.print (helpText command)
    pure 0
  | some .version => do
    IO.print versionText
    pure 0
  | none => do
    IO.eprint (helpText none)
    pure 2
