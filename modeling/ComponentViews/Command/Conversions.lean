import ComponentViews.Command.Session
import ComponentViews.Files.Directories
import ComponentViews.Json.Writer
import ComponentViews.Yaml.Writer

/-!
# Converting files

Commands convert the exports of all graphs in a file or directory, as a configuration says, and
then write the views or report what needs attention.

## Main definitions

* `loadConfiguration`: the configuration in a file, if there is one.
* `loadGraphs`, `convertGraphs`, `convertLoaded`, `convertInput`: all graphs and their conversions.
* `ComponentView.text`: a view in a format.
* `writeViews`, `putViews`: the views of components, in files or printed.
* `attention`: what needs attention.
-/

namespace ComponentViews

/-- The text of a view in a format. -/
def ComponentView.text (v : ComponentView) : DocumentFormat → String
  | .json => v.toJson.pretty
  | .yaml => v.toJson.yaml

/-- The path of the file for a view. -/
def ComponentView.path (v : ComponentView) (directory : String) (format : DocumentFormat) :
    String :=
  joinPath directory (v.name ++ "." ++ format.name)

/-- The properties left out of some views that an author should look at, each with its view. -/
def attention (views : List ComponentView) : List (ComponentView × SkippedProperty) :=
  views.flatMap fun v => (skipSummary v.skipped).map fun s => (v, s)

/-! ## Conversion -/

/-- How a configuration says that components are converted. -/
def Configuration.converter (c : Configuration) : Converter :=
  { conventions := c.conventions, overrides := c.overrides }

/-- The conversions of graphs, in their order. -/
def convertGraphs (c : Converter) (graphs : List LoadedGraph) :
    Logged (List (LoadedGraph × GraphConversion)) :=
  graphs.mapM fun loaded => do
    let conversion ← c.convertGraph loaded.graph
    pure (loaded, conversion)

/-- Report the exports that are no components. -/
def reportRejected (conversions : List (LoadedGraph × GraphConversion)) : Logged Unit := do
  let rejected := conversions.flatMap fun (loaded, conversion) =>
    conversion.rejected.map fun (name, reason) => (name, loaded.path, reason)
  let _ ← rejected.mapM fun (name, path, reason) =>
    Logged.info s!"Skipping export {name} in {path}: {reason.message}"
  pure ()

/-- The conversions of graphs that have been loaded, with reports. -/
def convertLoaded (c : Converter) (graphs : List LoadedGraph) : Logged (List GraphConversion) := do
  let conversions ← convertGraphs c graphs
  reportRejected conversions
  pure (conversions.map (·.2))

section Sessions

variable {m : Type → Type} [Monad m] [Host m]

/-- The configuration in the file at a path; without a file, the usual one. -/
def loadConfiguration (path : String) : Session m Configuration := do
  if ← Session.onHost (Host.isThere path) then
    let content ← Session.onHost (Host.read path)
    let text ← Session.orFail (CommandError.unreadableConfiguration path) content
    match Configuration.ofText? text with
    | some configuration =>
      Session.log (Logged.info s!"Loaded config from {path}")
      pure configuration
    | none => Session.fail (.malformedConfiguration path)
  else pure {}

/-- The graphs at a path, in the order in which they were loaded. -/
def loadGraphs (input : String) : Session m (List LoadedGraph) := do
  let loading ← Session.onHost (Registry.load {} input)
  let (outcome, registry) ← Session.log loading
  let exports ← Session.orFail (CommandError.unloadedGraphs input) outcome
  Session.log
    (Logged.info s!"Loaded {exports} exports from {registry.graphs.length} graph(s)")
  pure registry.graphs

/-- The conversions of all graphs at a path. -/
def convertInput (configuration : Configuration) (input : String) :
    Session m (List GraphConversion) := do
  let graphs ← loadGraphs input
  Session.log (convertLoaded configuration.converter graphs)

/-! ## Output -/

/-- Write views into files of a directory, one after the other. -/
def writeViews (directory : String) (format : DocumentFormat) (views : List ComponentView) :
    Session m Unit := do
  let made ← Session.onHost (makeDirectories directory)
  Session.orFail (CommandError.missingDirectory directory) made
  for v in views do
    let path := v.path directory format
    let written ← Session.onHost (Host.write path (v.text format))
    Session.orFail (CommandError.unwrittenFile path) written
    Session.log (Logged.debug s!"Wrote {path}")

/-- What is printed for views. -/
def printedViews (format : DocumentFormat) (views : List ComponentView) : String :=
  String.join (views.map fun v => v.text format ++ "\n")

/-- Write views into a directory, or print them if there is none. -/
def putViews (directory : Option String) (format : DocumentFormat) (views : List ComponentView) :
    Session m Unit :=
  match directory with
  | some directory => writeViews directory format views
  | none => Session.print (printedViews format views)

end Sessions

end ComponentViews
