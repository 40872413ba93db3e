import ComponentViews.Assembly
import ComponentViews.Customization
import ComponentViews.Extraction
import ComponentViews.Graph.Rendering

/-!
# Conversion

A component is converted into a view by finding its properties, deciding upon them, and customizing
the view, for instance by the overrides for it. Of a graph all exports are converted, and those that
are no components are rejected.

## Main definitions

* `Hook`: how views are customized.
* `convertComponentWith`, `convertGraphWith`: a component or a graph converted with any hook.
* `Converter`: conventions and overrides.
* `Converter.convertComponent`: the view of a component.
* `Converter.convertGraph`: the views of the exports of a graph, and the rejected exports.
-/

namespace ComponentViews

/-- How a view is customized, given the properties that were left out. -/
abbrev Hook := List SkippedProperty → ComponentView → Logged ComponentView

/-- What became of the exports of a graph. -/
structure GraphConversion where
  /-- The views of the components, in the order of the exports. -/
  views : List ComponentView := []
  /-- The names of the other exports, in their order, with the reason why each is none. -/
  rejected : List (String × NotComponent) := []
  deriving Repr

/-- The view of an export before its overrides. -/
def Assembly.toView (a : Assembly) (name : String) : ComponentView :=
  { name, properties := a.forwarded, skipped := a.skipped, warnings := a.warnings }

/-! ## Conversion with any hook -/

section Hooks

variable (conventions : Conventions) (hook : Hook)

/-- The view of the component that has the given type and is exported under the given name. -/
def convertComponentWith (g : TypeGraph) (name : String) (t : TypeId) :
    Logged (Except NotComponent ComponentView) :=
  match extractProperties g conventions t with
  | .error e => pure (.error e)
  | .ok properties => do
    let assembly ← (Classifier.mk g conventions).assemble properties
    -- A hook may restore any property that was left out here.
    let view ← hook assembly.skipped (assembly.toView name)
    Logged.debug
      s!"Converted {name} with {view.properties.length} properties ({view.skipped.length} skipped)"
    pure (.ok view)

/-- The views of the exports, and the rejected exports. -/
def convertEntriesWith (g : TypeGraph) : List ComponentEntry → Logged GraphConversion
  | [] => pure {}
  | entry :: entries => do
    match ← convertComponentWith conventions hook g entry.name entry.type with
    | .ok view =>
      let rest ← convertEntriesWith g entries
      pure { rest with views := view :: rest.views }
    | .error e =>
      Logged.debug s!"Export {entry.name} is not a component: {e.message}"
      let rest ← convertEntriesWith g entries
      pure { rest with rejected := (entry.name, e) :: rest.rejected }

/-- The views of all exports of a graph, and the rejected exports. -/
def convertGraphWith (g : Graph) : Logged GraphConversion :=
  convertEntriesWith conventions hook g g.components

end Hooks

/-! ## Conversion with overrides -/

/-- How components are converted. -/
structure Converter where
  /-- The conventions by which types and properties are recognized. -/
  conventions : Conventions := {}
  /-- The overrides by the names of components. -/
  overrides : Overrides := []

namespace Converter

/-- The view of the component that has the given type and is exported under the given name. -/
def convertComponent (c : Converter) (g : TypeGraph) (name : String) (t : TypeId) :
    Logged (Except NotComponent ComponentView) :=
  convertComponentWith c.conventions c.overrides.customize g name t

/-- The views of all exports of a graph, and the rejected exports. -/
def convertGraph (c : Converter) (g : Graph) : Logged GraphConversion :=
  convertGraphWith c.conventions c.overrides.customize g

end Converter

end ComponentViews
