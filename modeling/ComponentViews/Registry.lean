import ComponentViews.Conversion
import ComponentViews.Files.Host
import ComponentViews.Files.Path
import ComponentViews.Graph.Loading
import ComponentViews.Text.Lowercase

/-!
# Registries of components

A registry holds graphs in the order in which they were loaded, and finds their exports by name,
where upper and lower case are the same: names are compared after a folding, usually that to lower
case. Of exports with one name the last is found, which is reported.

A directory is scanned in the order of the paths in it, whatever the order in which they are listed.
Graphs that cannot be loaded are then reported and left out.

## Main definitions

* `Registry`, `Registry.insert`: graphs with their exports.
* `Registry.find?`, `Registry.contains`, `Registry.names`: exports by name.
* `Registry.convertWith`, `Registry.convert`: the view of an export, with any hook or with overrides.
* `Registry.absorb`, `graphPaths`: what is found in a directory.
* `Registry.loadFile`, `Registry.scan`, `Registry.load`: graphs from files.
-/

namespace ComponentViews

/-- A graph with the path from which it was loaded. -/
structure LoadedGraph where
  /-- The path. -/
  path : String
  /-- The graph. -/
  graph : Graph
  deriving Repr

/-- Where an export is found. -/
structure ComponentLocation where
  /-- The name as exported. -/
  name : String
  /-- The number of graphs before the one that it belongs to. -/
  graphIndex : Nat
  /-- The type of the exported value. -/
  type : TypeId
  deriving DecidableEq, Repr

/-- Graphs and where their exports are found. -/
structure Registry where
  /-- The graphs, in the order in which they were loaded. -/
  graphs : List LoadedGraph := []
  /-- The exports by their names in lower case, in ascending order of those. -/
  components : List (String × ComponentLocation) := []
  deriving Repr

/-- Why a registry has no answer. -/
inductive RegistryError where
  /-- There is nothing at the path to scan. -/
  | directoryNotFound (path : String)
  /-- No export has the name. -/
  | componentNotFound (name : String)
  /-- The export is no component. -/
  | notComponent (name : String) (reason : NotComponent)
  /-- A graph could not be loaded. -/
  | graph (cause : GraphError)
  deriving DecidableEq, Repr

/-- The message for an error. -/
def RegistryError.message : RegistryError → String
  | .directoryNotFound path => s!"Graph directory not found: {path}"
  | .componentNotFound name => s!"Component not found: {name}"
  | .notComponent name reason => s!"{name} is not a component: {reason.message}"
  | .graph cause => cause.message

namespace Registry

/-! ## Exports by name -/

/-- Where the export with a name is found. -/
def find? (r : Registry) (name : String) (fold : String → String := lowercase) :
    Option ComponentLocation :=
  valueOf? r.components (fold name)

/-- Whether there is an export with a name. -/
def contains (r : Registry) (name : String) (fold : String → String := lowercase) : Bool :=
  (r.find? name fold).isSome

/-- The names of all exports that can be found, in ascending order. -/
def names (r : Registry) : List String :=
  (r.components.map (·.2.name)).mergeSort fun a b => !decide (b < a)

/-- The path of the graph with a number. -/
def pathOf (r : Registry) (graphIndex : Nat) (default : String) : String :=
  match r.graphs[graphIndex]? with
  | some g => g.path
  | none => default

/-- Make an export of the last graph known. -/
def register (r : Registry) (path : String) (entry : ComponentEntry)
    (fold : String → String := lowercase) : Logged Registry := do
  let key := fold entry.name
  let location : ComponentLocation :=
    { name := entry.name, graphIndex := r.graphs.length - 1, type := entry.type }
  -- The later export wins, also over one of the same graph.
  match valueOf? r.components key with
  | some previous =>
    let other := r.pathOf previous.graphIndex path
    Logged.warn
      s!"Component {entry.name} in {path} shadows {previous.name} in {other}"
  | none => pure ()
  pure { r with components := insertField key location r.components }

/-- Make several exports of the last graph known. -/
def registerAll (r : Registry) (path : String) (entries : List ComponentEntry)
    (fold : String → String := lowercase) : Logged Registry :=
  match entries with
  | [] => pure r
  | entry :: entries => do
    let r ← r.register path entry fold
    r.registerAll path entries fold

/-- Add a graph; with the number of names that can be found only now. -/
def insert (r : Registry) (path : String) (graph : Graph)
    (fold : String → String := lowercase) : Logged (Nat × Registry) := do
  let added ← ({ r with graphs := r.graphs ++ [⟨path, graph⟩] } : Registry).registerAll path
    graph.components fold
  pure (added.components.length - r.components.length, added)

/-- The view of the component with a name, customized with any hook. -/
def convertWith (conventions : Conventions) (hook : Hook) (r : Registry) (name : String)
    (fold : String → String := lowercase) : Logged (Except RegistryError ComponentView) :=
  match r.find? name fold with
  | none => pure (.error (.componentNotFound name))
  | some location =>
    match r.graphs[location.graphIndex]? with
    | none => pure (.error (.componentNotFound name))
    | some loaded => do
      match ← convertComponentWith conventions hook loaded.graph location.name location.type with
      | .ok view => pure (.ok view)
      | .error reason => pure (.error (.notComponent location.name reason))

/-- The view of the component with a name. -/
def convert (r : Registry) (c : Converter) (name : String) :
    Logged (Except RegistryError ComponentView) :=
  r.convertWith c.conventions c.overrides.customize name

/-! ## Several graphs -/

/-- Add the graphs that could be loaded and report the others; with the number of names that can be
found only now. -/
def absorb (r : Registry) (found : List (String × Except GraphError Graph))
    (fold : String → String := lowercase) : Logged (Nat × Registry) :=
  match found with
  | [] => pure (0, r)
  | (path, .ok graph) :: rest => do
    let (first, r) ← r.insert path graph fold
    let (more, r) ← r.absorb rest fold
    pure (first + more, r)
  | (path, .error e) :: rest => do
    Logged.warn s!"Skipping {path}: {e.message}"
    r.absorb rest fold

end Registry

/-- The format of the graph document at a path. -/
def graphFormat? (path : String) : Option DocumentFormat :=
  match pathExtension? path with
  | some "json" => some .json
  | some "yaml" | some "yml" => some .yaml
  | _ => none

/-- Of some paths those of graph documents, in ascending order. -/
def graphPaths (listing : List String) : List String :=
  (listing.filter fun p => (graphFormat? p).isSome).mergeSort pathLe

/-! ## Files -/

section Files

variable {m : Type → Type} [Monad m] [Host m]

/-- The graph in the file at a path. -/
def Graph.ofFile (path : String) : m (Except GraphError Graph) := do
  match graphFormat? path with
  | none => pure (.error (.unsupportedFormat path))
  | some format =>
    match ← Host.read path with
    | .ok text => pure (Graph.ofText format text)
    | .error e => pure (.error (.unreadable path e.message))

/-- The graphs in some files, read one after the other. -/
def Graph.ofFiles (paths : List String) : m (List (String × Except GraphError Graph)) :=
  paths.mapM fun path => do
    let graph ← Graph.ofFile path
    pure (path, graph)

namespace Registry

/-- The outcome of loading graphs, with the registry that is left after it: the number of names that
can be found only now, or why nothing was loaded. -/
abbrev Loading := Logged (Except RegistryError Nat × Registry)

/-- Load the graph in the file at a path. -/
def loadFile (r : Registry) (path : String) (fold : String → String := lowercase) :
    m Loading := do
  match ← Graph.ofFile path with
  | .ok graph => pure do
    let (count, r) ← r.insert path graph fold
    pure (.ok count, r)
  | .error e => pure (pure (.error (.graph e), r))

/-- Load the graphs in all files at a path or below. -/
def scan (r : Registry) (path : String) (fold : String → String := lowercase) : m Loading := do
  if ← Host.isThere path then
    let listing ← Host.listing path
    -- All files are read before any of the graphs is added.
    let found ← Graph.ofFiles (graphPaths listing)
    pure do
      let (count, r) ← r.absorb found fold
      pure (.ok count, r)
  else pure (pure (.error (.directoryNotFound path), r))

/-- Load the graph in a file, or the graphs in a directory. -/
def load (r : Registry) (path : String) (fold : String → String := lowercase) : m Loading := do
  if ← Host.isDirectory path then r.scan path fold else r.loadFile path fold

end Registry

end Files

end ComponentViews
