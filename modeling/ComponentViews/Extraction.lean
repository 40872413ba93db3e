import ComponentViews.Conventions
import ComponentViews.Graph.Basic
import ComponentViews.View

/-!
# Properties of components

A type is that of a component if its first way to be called takes one parameter and returns one of
the types that components return. The properties of the component are the members of that
parameter's type.

## Main definitions

* `NotComponent`: why a type is not that of a component.
* `extractProperties`: the properties of a component.

## Main results

* `extractProperties_eq_ok`: the properties are the members of the only parameter's type.
-/

namespace ComponentViews

/-- Why a type is not that of a component. -/
inductive NotComponent where
  /-- It cannot be called. -/
  | noCallSignature
  /-- It is called with another number of parameters than one. -/
  | parameterCount (found : Nat)
  /-- It returns a type of that name, or without a name, that no component returns. -/
  | notAnElement (symbol : Option String)
  deriving DecidableEq, Repr

/-- The message for a reason. -/
def NotComponent.message : NotComponent → String
  | .noCallSignature => "Expected to find a call signature for component"
  | .parameterCount found =>
    s!"Expected a call signature with a single props parameter, found {found} parameters"
  | .notAnElement symbol =>
    "Component function should return an Element, found " ++ symbol.getD "no symbol"

/-- The lines of a documentation, of which an empty one has none. -/
def documentationLines (text : String) : List String :=
  if text = "" then [] else (text.toList.splitOn '\n').map String.ofList

/-- A member of the parameter's type as a property. -/
def PropertySymbol.toProperty (p : PropertySymbol) : ComponentProperty :=
  { name := p.name, documentation := documentationLines p.documentation, type := p.type }

/-- The properties of a component with the given type. -/
def extractProperties (g : TypeGraph) (conventions : Conventions) (t : TypeId) :
    Except NotComponent (List ComponentProperty) :=
  match g.callSignatures t with
  | [] => .error .noCallSignature
  | signature :: _ =>
    match signature.parameters with
    | [props] =>
      -- Only the name of the result counts, not its structure.
      let symbol := g.symbolName signature.returnType
      if symbol.any conventions.isElementMarker then
        .ok ((g.properties props).map PropertySymbol.toProperty)
      else .error (.notAnElement symbol)
    | parameters => .error (.parameterCount parameters.length)

/-- The properties of a component are the members of the type of its only parameter. -/
theorem extractProperties_eq_ok {g : TypeGraph} {conventions : Conventions} {t : TypeId}
    {ps : List ComponentProperty} (h : extractProperties g conventions t = .ok ps) :
    ∃ signature ∈ g.callSignatures t, ∃ props, signature.parameters = [props] ∧
      ps = (g.properties props).map PropertySymbol.toProperty := by
  unfold extractProperties at h
  split at h
  · cases h
  · rename_i signature rest hs
    split at h
    · rename_i props hparameters
      dsimp only at h
      split at h
      · cases h
        exact ⟨signature, by simp [hs], props, hparameters, rfl⟩
      · cases h
    · cases h

end ComponentViews
