import ComponentViews.Classification
import ComponentViews.View

/-!
# Assembly of properties

Each property of a component is either forwarded with a validator or left out for a reason. A
property with a reserved name is left out. A property that holds all that can be rendered is
forwarded as such only if it is the one that may hold it, and otherwise for all values, with a
warning. Any other property is forwarded if its type has a descriptor.

## Main definitions

* `Assembly`: properties forwarded and left out, with warnings.
* `Classifier.settle`: what becomes of one property, given the outcome for its type.
* `Classifier.place`: what becomes of one property.
* `Classifier.assemble`: what becomes of all properties.

## Main results

* `Classifier.assemble_nil`, `Classifier.assemble_append`: the properties are decided upon one by
  one.
-/

namespace ComponentViews

/-- What became of some properties; each list is in their order. -/
@[ext] structure Assembly where
  /-- The properties forwarded. -/
  forwarded : List ForwardedProperty := []
  /-- The properties left out. -/
  skipped : List SkippedProperty := []
  /-- Warnings about properties that were forwarded. -/
  warnings : List String := []
  deriving DecidableEq, Repr

namespace Assembly

instance : Append Assembly where
  append a b := ⟨a.forwarded ++ b.forwarded, a.skipped ++ b.skipped, a.warnings ++ b.warnings⟩

@[simp] theorem forwarded_append (a b : Assembly) :
    (a ++ b).forwarded = a.forwarded ++ b.forwarded := rfl

@[simp] theorem skipped_append (a b : Assembly) : (a ++ b).skipped = a.skipped ++ b.skipped := rfl

@[simp] theorem warnings_append (a b : Assembly) :
    (a ++ b).warnings = a.warnings ++ b.warnings := rfl

@[simp] theorem empty_append (a : Assembly) : ({} : Assembly) ++ a = a := rfl

@[simp] theorem append_empty (a : Assembly) : a ++ ({} : Assembly) = a := by
  ext1 <;> simp

theorem append_assoc (a b c : Assembly) : a ++ b ++ c = a ++ (b ++ c) := by
  ext1 <;> simp

end Assembly

/-- A property with a descriptor for its values. -/
def ComponentProperty.toForwarded (p : ComponentProperty) (d : Descriptor) : ForwardedProperty :=
  { name := p.name, documentation := p.documentation, defaultValue := p.defaultValue
    propType := d.text, forward := true }

namespace Classifier

/-- A property that is left out. -/
def skip (c : Classifier) (p : ComponentProperty) (reason : SkipReason) (detail : String) :
    Assembly :=
  { skipped := [{ name := p.name, documentation := p.documentation
                  typeName := c.graph.render p.type, reason, detail }] }

/-- What becomes of a property, given the outcome for its type. -/
def settle (c : Classifier) (p : ComponentProperty) : Outcome → Logged Assembly
  | .ok d => pure { forwarded := [p.toForwarded d] }
  | .error e =>
    match e with
    | .functionType _ => do
      Logged.debug s!"Skipping function property {p.name}"
      pure (c.skip p .functionType e.message)
    | .unclassifiable _ _ => do
      Logged.warn
        s!"Could not create PropType, skipping property {p.name}: {e.message}"
      pure (c.skip p .unclassifiable e.message)

/-- What becomes of one property. -/
def place (c : Classifier) (p : ComponentProperty) : Logged Assembly := do
  if c.conventions.isReserved p.name then
    Logged.debug s!"Skipping reserved property {p.name}"
    pure (c.skip p .reservedName "reserved property name")
  -- Only one property may hold what can be rendered; the others accept it among all values.
  else if c.isNode p.type ∧ p.name ≠ c.conventions.childrenProp then
    let warning :=
      s!"Defining node property {p.name} as any instead of {c.graph.render p.type}"
    Logged.warn warning
    pure { forwarded := [p.toForwarded .any], warnings := [warning] }
  else
    let outcome ← c.classify p.type
    c.settle p outcome

/-- What becomes of all properties. -/
def assemble (c : Classifier) : List ComponentProperty → Logged Assembly
  | [] => pure {}
  | p :: ps => do
    let first ← c.place p
    let rest ← c.assemble ps
    pure (first ++ rest)

@[simp] theorem assemble_nil (c : Classifier) : c.assemble [] = pure {} := rfl

/-- The properties of two lists are decided upon one list after the other. -/
theorem assemble_append (c : Classifier) (ps qs : List ComponentProperty) :
    c.assemble (ps ++ qs) = (do
      let first ← c.assemble ps
      let rest ← c.assemble qs
      pure (first ++ rest)) := by
  induction ps with
  | nil => ext1 <;> simp
  | cons p ps ih =>
    ext1 <;> simp [assemble, ih, Assembly.append_assoc]

end Classifier

end ComponentViews
