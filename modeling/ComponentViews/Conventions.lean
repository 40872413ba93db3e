import ComponentViews.Data.Source
import ComponentViews.TypeName

/-!
# Naming conventions

The names and renderings by which a conversion recognizes what a type or a property is for.

## Main definitions

* `Conventions`: the names; without further information the usual ones.
* `Conventions.isReserved`, `Conventions.isNodeMarker`, …: what a name is recognized as.
* `Conventions.read`, `Conventions.toJson`: the conventions in any notation, and as a JSON value.
-/

namespace ComponentViews

/-- Names and renderings that are recognized. -/
structure Conventions where
  /-- How the names of properties for accessibility begin. -/
  ariaPrefix : String := "aria-"
  /-- The one property that may hold what can be rendered. -/
  childrenProp : String := "children"
  /-- Names of properties that are never forwarded. -/
  reservedNames : List String := ["component", "classes", "innerRef", "style"]
  /-- Renderings of the type of all that can be rendered. -/
  nodeMarkers : List String := ["ReactNode"]
  /-- Names of the types that a component may return. -/
  elementMarkers : List String := ["Element", "ReactElement"]
  /-- Names of generic types of lists. -/
  arrayMarkers : List String := ["Array", "ReadonlyArray"]
  /-- Base names of types of styles, which are exposed as plain objects. -/
  styleMarkers : List String := ["CSSProperties", "SxProps", "StyleProp", "SystemStyleObject"]
  deriving DecidableEq, Repr, Inhabited

namespace Conventions

/-- Whether a property of that name is never forwarded. An empty beginning reserves nothing. -/
def isReserved (c : Conventions) (name : String) : Bool :=
  (c.ariaPrefix ≠ "" && c.ariaPrefix.toList.isPrefixOf name.toList) ||
    c.reservedNames.contains name

/-- Whether a rendering is that of the type of all that can be rendered. -/
def isNodeMarker (c : Conventions) (rendered : String) : Bool :=
  c.nodeMarkers.contains rendered

/-- Whether a component may return a type of that name. -/
def isElementMarker (c : Conventions) (symbol : String) : Bool :=
  c.elementMarkers.contains symbol

/-- Whether a generic type of that name is a type of lists. -/
def isArrayMarker (c : Conventions) (symbol : String) : Bool :=
  c.arrayMarkers.contains symbol

/-- Whether a rendering is that of a type of styles; only its base name counts. -/
def isStyleMarker (c : Conventions) (rendered : String) : Bool :=
  match baseTypeName? rendered with
  | some base => c.styleMarkers.contains base
  | none => false

/-- Conventions as written; what is not written is as usual. -/
def read {σ : Type} {m : Type → Type} [Monad m] [MonadExceptOf Unit m] [DataSource σ m] (s : σ) :
    m Conventions := do
  let usual : Conventions := {}
  let f ← readFields ["aria_prefix", "children_prop", "reserved_names", "node_markers",
    "element_markers", "array_markers", "style_markers"] s
  let ariaPrefix ← f.withDefault "aria_prefix" usual.ariaPrefix DataSource.text
  let childrenProp ← f.withDefault "children_prop" usual.childrenProp DataSource.text
  let names (name : String) (default : List String) : m (List String) :=
    f.withDefault name default (readList DataSource.text)
  let reservedNames ← names "reserved_names" usual.reservedNames
  let nodeMarkers ← names "node_markers" usual.nodeMarkers
  let elementMarkers ← names "element_markers" usual.elementMarkers
  let arrayMarkers ← names "array_markers" usual.arrayMarkers
  let styleMarkers ← names "style_markers" usual.styleMarkers
  pure { ariaPrefix, childrenProp, reservedNames, nodeMarkers, elementMarkers, arrayMarkers,
         styleMarkers }

/-- Conventions as a JSON value. -/
def toJson (c : Conventions) : Json :=
  .object [("aria_prefix", .string c.ariaPrefix), ("children_prop", .string c.childrenProp),
    ("reserved_names", .strings c.reservedNames), ("node_markers", .strings c.nodeMarkers),
    ("element_markers", .strings c.elementMarkers), ("array_markers", .strings c.arrayMarkers),
    ("style_markers", .strings c.styleMarkers)]

end Conventions

end ComponentViews
