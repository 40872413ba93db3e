import ComponentViews.Graph.Document

/-!
# Component views

A view says what a generated component looks like: which properties it forwards with which
validators, which it leaves out and why, and what is added around it.

## Main definitions

* `ComponentProperty`: a property of a component before it is decided upon.
* `ForwardedProperty`, `SkippedProperty`, `ComponentView`: the contents of a view.
* `SkipReason.isActionable`, `skipSummary`: what is left out and should not be.
* `ComponentView.read`, `ComponentView.toJson`: a view in any notation, and as a JSON value.
-/

namespace ComponentViews

/-- A property of a component, with a type that is not classified yet. -/
structure ComponentProperty where
  /-- The declared name. -/
  name : String
  /-- The documentation, line by line. -/
  documentation : List String := []
  /-- The default value, as an expression. -/
  defaultValue : Option String := none
  /-- The type. -/
  type : TypeId
  deriving DecidableEq, Repr

/-- A property that a generated component has. -/
structure ForwardedProperty where
  /-- The name. -/
  name : String
  /-- The documentation, line by line. -/
  documentation : List String := []
  /-- The default value, as an expression. -/
  defaultValue : Option String := none
  /-- The expression that builds the validator. -/
  propType : String
  /-- Whether the value is passed on to the wrapped component. -/
  forward : Bool := true
  deriving DecidableEq, Repr

/-- Why a property is left out. -/
inductive SkipReason where
  /-- Its values are functions. -/
  | functionType
  /-- Its type has no descriptor. -/
  | unclassifiable
  /-- Its name is reserved. -/
  | reservedName
  deriving DecidableEq, Repr

namespace SkipReason

/-- A reason in one word. -/
def text : SkipReason → String
  | .functionType => "function-type"
  | .unclassifiable => "unclassifiable"
  | .reservedName => "reserved-name"

/-- The reason that a word stands for. -/
def ofText? : String → Option SkipReason
  | "function-type" => some .functionType
  | "unclassifiable" => some .unclassifiable
  | "reserved-name" => some .reservedName
  | _ => none

/-- Whether an author should look at a property that is left out for the reason. -/
def isActionable : SkipReason → Bool
  | .unclassifiable => true
  | _ => false

@[simp] theorem ofText?_text (r : SkipReason) : ofText? r.text = some r := by
  cases r <;> rfl

end SkipReason

/-- A property that is left out. -/
structure SkippedProperty where
  /-- The name. -/
  name : String
  /-- The documentation, line by line. -/
  documentation : List String := []
  /-- The rendering of the type. -/
  typeName : String
  /-- Why it is left out. -/
  reason : SkipReason
  /-- The same in more words. -/
  detail : String := ""
  deriving DecidableEq, Repr

/-- An event of a generated component. -/
structure EventView where
  /-- The name. -/
  name : String
  /-- The documentation, line by line. -/
  documentation : List String := []
  deriving DecidableEq, Repr

/-- All that is needed to generate a component. -/
structure ComponentView where
  /-- The name of the generated component. -/
  name : String
  /-- The properties that it has. -/
  properties : List ForwardedProperty := []
  /-- The properties that are left out. -/
  skipped : List SkippedProperty := []
  /-- The events. -/
  events : List EventView := []
  /-- Imports of the generated module. -/
  imports : List String := []
  /-- Code that comes before the component. -/
  extraCode : List String := []
  /-- How children are rendered. -/
  childrenRendering : Option String := none
  /-- Warnings about the properties. -/
  warnings : List String := []
  deriving DecidableEq, Repr

/-- The properties left out that an author should look at. -/
def skipSummary (skipped : List SkippedProperty) : List SkippedProperty :=
  skipped.filter (·.reason.isActionable)

/-- The first property with a name. -/
def ComponentView.property? (v : ComponentView) (name : String) : Option ForwardedProperty :=
  v.properties.find? fun p => p.name = name

/-! ## Reading -/

section Reading

variable {σ : Type} {m : Type → Type} [Monad m] [MonadExceptOf Unit m] [DataSource σ m]

/-- A property that a component has. -/
def ForwardedProperty.read (s : σ) : m ForwardedProperty := do
  let f ← readFields ["name", "documentation", "default_value", "prop_type", "forward"] s
  let name ← f.required "name" DataSource.text
  let documentation ← f.withDefault "documentation" [] (readList DataSource.text)
  let defaultValue ← f.option "default_value" DataSource.text
  let propType ← f.required "prop_type" DataSource.text
  let forward ← f.required "forward" DataSource.flag
  pure { name, documentation, defaultValue, propType, forward }

/-- A reason for leaving a property out. -/
def SkipReason.read (s : σ) : m SkipReason := do
  let word ← DataSource.choice s
  match SkipReason.ofText? word with
  | some r => pure r
  | none => throw ()

/-- A property that is left out. -/
def SkippedProperty.read (s : σ) : m SkippedProperty := do
  let f ← readFields ["name", "documentation", "type_name", "reason", "detail"] s
  let name ← f.required "name" DataSource.text
  let documentation ← f.withDefault "documentation" [] (readList DataSource.text)
  let typeName ← f.required "type_name" DataSource.text
  let reason ← f.required "reason" SkipReason.read
  let detail ← f.withDefault "detail" "" DataSource.text
  pure { name, documentation, typeName, reason, detail }

/-- An event. -/
def EventView.read (s : σ) : m EventView := do
  let f ← readFields ["name", "documentation"] s
  let name ← f.required "name" DataSource.text
  let documentation ← f.withDefault "documentation" [] (readList DataSource.text)
  pure { name, documentation }

/-- A view. -/
def ComponentView.read (s : σ) : m ComponentView := do
  let f ← readFields ["name", "properties", "skipped", "events", "imports", "extra_code",
    "children_rendering", "warnings"] s
  let name ← f.required "name" DataSource.text
  let properties ← f.required "properties" (readList ForwardedProperty.read)
  let skipped ← f.withDefault "skipped" [] (readList SkippedProperty.read)
  let events ← f.withDefault "events" [] (readList EventView.read)
  let imports ← f.withDefault "imports" [] (readList DataSource.text)
  let extraCode ← f.withDefault "extra_code" [] (readList DataSource.text)
  let childrenRendering ← f.option "children_rendering" DataSource.text
  let warnings ← f.withDefault "warnings" [] (readList DataSource.text)
  pure { name, properties, skipped, events, imports, extraCode, childrenRendering, warnings }

end Reading

/-! ## Writing -/

/-- A property that a component has, as a JSON value; a default value that is absent is left
out. -/
def ForwardedProperty.toJson (p : ForwardedProperty) : Json :=
  .object ([("name", .string p.name), ("documentation", .strings p.documentation)] ++
    optionField "default_value" .string p.defaultValue ++
    [("prop_type", .string p.propType), ("forward", .bool p.forward)])

/-- A property that is left out, as a JSON value. -/
def SkippedProperty.toJson (p : SkippedProperty) : Json :=
  .object [("name", .string p.name), ("documentation", .strings p.documentation),
    ("type_name", .string p.typeName), ("reason", .string p.reason.text),
    ("detail", .string p.detail)]

/-- An event as a JSON value. -/
def EventView.toJson (e : EventView) : Json :=
  .object [("name", .string e.name), ("documentation", .strings e.documentation)]

/-- A view as a JSON value; the rendering of children is left out if absent, and so are the
warnings if there are none. -/
def ComponentView.toJson (v : ComponentView) : Json :=
  .object ([("name", .string v.name),
    ("properties", .array (v.properties.map ForwardedProperty.toJson)),
    ("skipped", .array (v.skipped.map SkippedProperty.toJson)),
    ("events", .array (v.events.map EventView.toJson)),
    ("imports", .strings v.imports), ("extra_code", .strings v.extraCode)] ++
    optionField "children_rendering" .string v.childrenRendering ++
    listField "warnings" .string v.warnings)

end ComponentViews
