import ComponentViews.Log
import ComponentViews.View

/-!
# Customization of views

A finished view can be changed by overrides: properties are removed, given other validators,
restored, renamed, added and put into another order, and the surroundings of the component are
extended. The steps follow each other in a fixed order, each on the result of the one before.

## Main definitions

* `ComponentOverrides`: the overrides for one component.
* `ComponentView.retype`, `renameProperty`, `injectProperty`, `orderProperties`: the steps.
* `ComponentOverrides.apply`: all steps.
* `Overrides.customize`: the overrides for the component that a view is of, if there are any.
-/

namespace ComponentViews

/-- A property that is added. -/
structure InjectedProperty where
  /-- The name. -/
  name : String
  /-- The expression that builds the validator. -/
  propType : String
  /-- The documentation, line by line. -/
  documentation : List String := []
  /-- The default value, as an expression. -/
  defaultValue : Option String := none
  deriving DecidableEq, Repr

/-- The overrides for one component. -/
structure ComponentOverrides where
  /-- Another name for the component. -/
  rename : Option String := none
  /-- Names of properties to remove. -/
  remove : List String := []
  /-- Other names for properties, by their names, in ascending order. -/
  renameProps : List (String × String) := []
  /-- Expressions that build validators, by the names of properties, in ascending order. A property
  that was left out is restored. -/
  propTypes : List (String × String) := []
  /-- Properties to add or to replace. -/
  inject : List InjectedProperty := []
  /-- Names of the properties that come first. -/
  order : List String := []
  /-- Events to add. -/
  events : List EventView := []
  /-- Imports to add. -/
  imports : List String := []
  /-- Code to add. -/
  extraCode : List String := []
  /-- Another rendering of children. -/
  childrenRendering : Option String := none
  deriving DecidableEq, Repr

/-- The overrides by the names of components, in ascending order of the names. -/
abbrev Overrides := List (String × ComponentOverrides)

/-- The value that belongs to a key. -/
def valueOf? {α : Type} (entries : List (String × α)) (key : String) : Option α :=
  (entries.find? fun e => e.1 = key).map (·.2)

/-! ## The steps -/

/-- Replace the first element that has a property, if there is one. -/
def replaceFirst? {α : Type} (p : α → Bool) (f : α → α) : List α → Option (List α)
  | [] => none
  | x :: xs => if p x then some (f x :: xs) else (replaceFirst? p f xs).map (x :: ·)

/-- A property that was left out, with a validator. -/
def SkippedProperty.restore (p : SkippedProperty) (propType : String) : ForwardedProperty :=
  { name := p.name, documentation := p.documentation, propType }

/-- A property that is added. -/
def InjectedProperty.toForwarded (p : InjectedProperty) : ForwardedProperty :=
  { name := p.name, documentation := p.documentation, defaultValue := p.defaultValue
    propType := p.propType }

/-- Give a property another validator. A property that the view does not have is restored if it was
left out, and reported as unknown otherwise. -/
def ComponentView.retype (skipped : List SkippedProperty) (v : ComponentView)
    (name propType : String) : Logged ComponentView :=
  match replaceFirst? (fun p => p.name = name) (fun p => { p with propType }) v.properties with
  | some properties => pure { v with properties }
  | none =>
    -- The list given is searched, which need not be that of the view.
    match skipped.find? fun s => s.name = name with
    | some s => do
      Logged.debug s!"Restoring skipped property {name} as {propType}"
      pure { v with
        skipped := v.skipped.filter fun s => s.name ≠ name
        properties := v.properties ++ [s.restore propType] }
    | none => do
      Logged.warn s!"Override for unknown property {name} on component {v.name}"
      pure v

/-- Give properties other validators, one after the other. -/
def ComponentView.retypeAll (skipped : List SkippedProperty) (v : ComponentView) :
    List (String × String) → Logged ComponentView
  | [] => pure v
  | (name, propType) :: rest => do
    let v ← v.retype skipped name propType
    v.retypeAll skipped rest

/-- A property under its other name, if it has one. -/
def renameProperty (names : List (String × String)) (p : ForwardedProperty) : ForwardedProperty :=
  { p with name := (valueOf? names p.name).getD p.name }

/-- Replace the first property of the same name, or else add the property at the end. -/
def injectProperty (properties : List ForwardedProperty) (p : ForwardedProperty) :
    List ForwardedProperty :=
  (replaceFirst? (fun q => q.name = p.name) (fun _ => p) properties).getD (properties ++ [p])

/-- The properties with names in the list come first, in the order of the list; all others follow,
and properties in the same place keep their order. -/
def orderProperties (order : List String) (properties : List ForwardedProperty) :
    List ForwardedProperty :=
  properties.mergeSort fun p q => order.idxOf p.name ≤ order.idxOf q.name

/-! ## All steps -/

/-- The properties of a view after the validators have been changed: some under other names, some
added, in the order wanted. -/
def ComponentOverrides.rearrange (o : ComponentOverrides) (properties : List ForwardedProperty) :
    List ForwardedProperty :=
  orderProperties o.order
    ((o.inject.map InjectedProperty.toForwarded).foldl injectProperty
      (properties.map (renameProperty o.renameProps)))

/-- A view after the overrides for its component. The properties left out are those from which
properties can be restored. -/
def ComponentOverrides.apply (o : ComponentOverrides) (skipped : List SkippedProperty)
    (v : ComponentView) : Logged ComponentView := do
  -- Removal comes before everything else, so a removed property can be injected anew.
  let kept := { v with properties := v.properties.filter fun p => !o.remove.contains p.name }
  let v ← kept.retypeAll skipped o.propTypes
  pure { v with
    name := o.rename.getD v.name
    properties := o.rearrange v.properties
    events := v.events ++ o.events
    imports := v.imports ++ o.imports
    extraCode := v.extraCode ++ o.extraCode
    childrenRendering := o.childrenRendering.or v.childrenRendering }

/-- A view after the overrides for the component of its name. Without such overrides it is left as
it is. -/
def Overrides.customize (overrides : Overrides) (skipped : List SkippedProperty)
    (v : ComponentView) : Logged ComponentView :=
  match valueOf? overrides v.name with
  | some o => o.apply skipped v
  | none => pure v

/-! ## Reading and writing -/

section Reading

variable {σ : Type} {m : Type → Type} [Monad m] [MonadExceptOf Unit m] [DataSource σ m]

/-- A property that is added. -/
def InjectedProperty.read (s : σ) : m InjectedProperty := do
  let f ← readFields ["name", "prop_type", "documentation", "default_value"] s
  let name ← f.required "name" DataSource.text
  let propType ← f.required "prop_type" DataSource.text
  let documentation ← f.withDefault "documentation" [] (readList DataSource.text)
  let defaultValue ← f.option "default_value" DataSource.text
  pure { name, propType, documentation, defaultValue }

/-- The overrides for one component; what is not written changes nothing. -/
def ComponentOverrides.read (s : σ) : m ComponentOverrides := do
  let f ← readFields ["rename", "remove", "rename_props", "prop_types", "inject", "order",
    "events", "imports", "extra_code", "children_rendering"] s
  let rename ← f.option "rename" DataSource.text
  let remove ← f.withDefault "remove" [] (readList DataSource.text)
  let renameProps ← f.withDefault "rename_props" [] (readEntries DataSource.text)
  let propTypes ← f.withDefault "prop_types" [] (readEntries DataSource.text)
  let inject ← f.withDefault "inject" [] (readList InjectedProperty.read)
  let order ← f.withDefault "order" [] (readList DataSource.text)
  let events ← f.withDefault "events" [] (readList EventView.read)
  let imports ← f.withDefault "imports" [] (readList DataSource.text)
  let extraCode ← f.withDefault "extra_code" [] (readList DataSource.text)
  let childrenRendering ← f.option "children_rendering" DataSource.text
  pure { rename, remove, renameProps, propTypes, inject, order, events, imports, extraCode,
         childrenRendering }

/-- The overrides for all components. -/
def Overrides.read (s : σ) : m Overrides := readEntries ComponentOverrides.read s

end Reading

/-- A property that is added, as a JSON value. -/
def InjectedProperty.toJson (p : InjectedProperty) : Json :=
  .object [("name", .string p.name), ("prop_type", .string p.propType),
    ("documentation", .strings p.documentation),
    ("default_value", .stringOrNull p.defaultValue)]

/-- Texts by their keys as a JSON value. -/
def textsToJson (entries : List (String × String)) : Json :=
  .object (entries.map fun e => (e.1, .string e.2))

/-- The overrides for one component as a JSON value. -/
def ComponentOverrides.toJson (o : ComponentOverrides) : Json :=
  .object [("rename", .stringOrNull o.rename), ("remove", .strings o.remove),
    ("rename_props", textsToJson o.renameProps), ("prop_types", textsToJson o.propTypes),
    ("inject", .array (o.inject.map InjectedProperty.toJson)), ("order", .strings o.order),
    ("events", .array (o.events.map EventView.toJson)), ("imports", .strings o.imports),
    ("extra_code", .strings o.extraCode),
    ("children_rendering", .stringOrNull o.childrenRendering)]

/-- The overrides for all components as a JSON value. -/
def Overrides.toJson (overrides : Overrides) : Json :=
  .object (overrides.map fun e => (e.1, e.2.toJson))

end ComponentViews
