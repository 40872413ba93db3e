import ComponentViews.Command.Arguments
import ComponentViews.Command.Conversions
import ComponentViews.Command.Templates

/-!
# Running commands

A command runs as a session on a host. Its outcome is what was reported and printed, and the error
with which it failed, if it did.

## Main definitions

* `runInit`, `runConvert`, `runCheck`: the commands.
* `writeConverted`, `checkViews`: what the last two do with views.
* `CommandOutcome`, `Invocation.run`: the outcome of a command.
* `CommandOutcome.exitCode`, `CommandOutcome.logLines`, `CommandOutcome.errorChain`: what a caller
  and a reader see of it.
-/

namespace ComponentViews

section Sessions

variable {m : Type → Type} [Monad m] [Host m]

/-- Report progress. -/
def tell (message : String) : Session m Unit := Session.log (Logged.info message)

/-- Write a file, or fail. -/
def writeFile (path text : String) : Session m Unit := do
  let written ← Session.onHost (Host.write path text)
  Session.orFail (CommandError.unwrittenFile path) written

/-- Write the example, unless there is one that must stay. -/
def writeExample (overwrite : Bool) : Session m Unit := do
  let there ← Session.onHost (Host.isThere "graphs/button.json")
  if !there || overwrite then
    writeFile "graphs/button.json" exampleGraph
    tell "Created graphs/button.json"

/-- Write a configuration and an example. -/
def runInit (configuration : String) (overwrite : Bool) : Session m Unit := do
  tell "Initializing propcast..."
  let there ← Session.onHost (Host.isThere configuration)
  if there && !overwrite then
    Session.log (Logged.warn s!"{configuration} already exists. Use --yes to overwrite.")
  else
    writeFile configuration usualConfiguration
    tell s!"Created {configuration}"
    -- What is there already is kept.
    unless ← Session.onHost (Host.isThere "graphs") do
      let made ← Session.onHost (makeDirectories "graphs")
      Session.orFail (CommandError.missingDirectory "graphs directory") made
    writeExample overwrite
    tell "Initialization complete!"
    tell "Run 'propcast convert graphs' to generate component views."

/-- Report what needs attention in views. -/
def reportAttention (views : List ComponentView) : Session m Unit := do
  for (v, s) in attention views do
    Session.log (Logged.warn s!"{v.name}: skipped {s.name} ({s.typeName}): {s.detail}")

/-- Report how many views have been written, and where. -/
def reportWritten (directory : Option String) (views : List ComponentView) : Session m Unit := do
  let elapsed ← Session.onHost Host.elapsed
  tell (s!"Converted {views.length} components in {elapsed}ms " ++
    s!"({(attention views).length} properties need attention)")
  match directory with
  | some directory => tell s!"Output: {directory}"
  | none => pure ()

/-- Write views, and report what needs attention in them. -/
def writeConverted (directory : Option String) (format : DocumentFormat)
    (views : List ComponentView) : Session m Unit := do
  putViews directory format views
  reportAttention views
  reportWritten directory views

/-- Write the views of all components. -/
def runConvert (configuration input : String) (output : Option String)
    (format : Option DocumentFormat) : Session m Unit := do
  let configuration ← loadConfiguration configuration
  let conversions ← convertInput configuration input
  -- Arguments win over the configuration.
  writeConverted (output.or configuration.output.directory)
    (format.getD configuration.output.format) (conversions.flatMap (·.views))

/-- Report the warnings about views and what needs attention in them. -/
def reportViews (views : List ComponentView) : Session m Unit := do
  for v in views do
    for warning in v.warnings do
      tell s!"{v.name}: {warning}"
    for s in skipSummary v.skipped do
      Session.log
        (Logged.warn s!"{v.name}.{s.name}: cannot convert {s.typeName}: {s.detail}")

/-- Report what needs attention in views, and fail if there is anything. -/
def checkViews (views : List ComponentView) : Session m Unit := do
  reportViews views
  let open_ := (attention views).length
  if 0 < open_ then Session.fail (.needsAttention open_ views.length)
  else tell s!"All {views.length} components converted cleanly"

/-- Report what cannot be converted, and fail if there is anything. -/
def runCheck (configuration input : String) : Session m Unit := do
  let configuration ← loadConfiguration configuration
  let conversions ← convertInput configuration input
  checkViews (conversions.flatMap (·.views))

/-- Run a command. -/
def Invocation.session (i : Invocation) : Session m Unit :=
  match i.command with
  | .init overwrite => runInit i.configuration overwrite
  | .convert input output format => runConvert i.configuration input output format
  | .check input => runCheck i.configuration input

/-! ## Outcomes -/

/-- What became of a command. -/
structure CommandOutcome where
  /-- What it reported and printed. -/
  transcript : Transcript
  /-- The error with which it failed. -/
  error : Option CommandError
  deriving Repr

/-- Run a command to its end. -/
def Invocation.run (i : Invocation) : m CommandOutcome := do
  let (outcome, transcript) ← (i.session (m := m)).run {}
  match outcome with
  | .ok () => pure ⟨transcript, none⟩
  | .error e => pure ⟨transcript, some e⟩

end Sessions

namespace CommandOutcome

/-- The number by which a caller sees whether the command failed. -/
def exitCode (o : CommandOutcome) : Nat := if o.error.isSome then 1 else 0

/-- The lines of the log on a terminal; details are shown only on demand. -/
def logLines (o : CommandOutcome) (verbose : Bool) : List String :=
  (o.transcript.events.filter fun e => verbose || e.level ≠ .debug).map LogEvent.terminalLine

/-- The messages for the error, from the outermost to its cause. -/
def errorChain (o : CommandOutcome) : List String :=
  match o.error with
  | some e => e.chain
  | none => []

end CommandOutcome

end ComponentViews
