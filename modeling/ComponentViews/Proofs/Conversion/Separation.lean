import ComponentViews.Proofs.Classification.Nesting
import ComponentViews.Proofs.Conversion.Accounting
import ComponentViews.Proofs.Customization

/-!
# Forwarded and left out, with overrides

What is assembled of properties with distinct names has no name both among the properties forwarded
and among those left out. A view with overrides is still so unless they give the name of a property
that stays left out to another one: only an override of its validator takes a property out of those
left out.

## Main results

* `Assembly.apart_toView`: what is assembled is apart.
* `convertComponent_apart_iff`: when the view of a component is.
* `convertComponent_injectedShape`: a property left out that is added stays left out.
-/

namespace ComponentViews

theorem Assembly.apart_toView (c : Classifier) {members : List PropertySymbol}
    (hnd : (members.map (·.name)).Nodup) (name : String) :
    ((c.assemble (members.map PropertySymbol.toProperty)).value.toView name).Apart := by
  intro s hs hn
  obtain ⟨f, hf, he⟩ := ForwardedProperty.mem_names.1 hn
  have haccount := accountsFor_assemble c members name
  exact haccount.ne_of_nodup (·.name) (·.name) (·.name) (fun _ _ h => h.1) (fun _ _ h => h.1)
    hnd f hf s hs he

/-- **When overrides keep the parts of a view apart.** A component whose properties have distinct
names has a view. No name is both that of a property of the view and that of one left out exactly if
the overrides for the component, if there are any, do not give the name of a property that was left
out to one that they add or rename, unless they give the property left out a validator. -/
theorem convertComponent_apart_iff (c : Converter) (g : TypeGraph) (name : String)
    {t props : TypeId} (h : g.IsComponent c.conventions t props)
    (hnd : ((g.properties props).map (·.name)).Nodup) :
    let assembled := ((Classifier.mk g c.conventions).assemble
      ((g.properties props).map PropertySymbol.toProperty)).value.toView name
    ∃ view, (c.convertComponent g name t).value = .ok view ∧
      (view.Apart ↔ ∀ o, valueOf? c.overrides name = some o →
        ∀ s ∈ assembled.skipped, s.name ∉ o.propTypes.map (·.1) →
          ¬ o.Reuses assembled s.name) := by
  intro assembled
  exact ⟨_, value_convertComponentWith_ok name h.extractProperties,
    Overrides.apart_customize_iff (Assembly.apart_toView ⟨g, c.conventions⟩ hnd name)⟩

/-- A component with one property, whose type has no descriptor. -/
def shapeButton : Graph where
  types := [
    { id := ⟨0⟩, flags := TypeFlags.never },
    { id := ⟨1⟩, flags := TypeFlags.object
      properties := [{ name := "shape", type := ⟨0⟩, documentation := "" }] },
    { id := ⟨2⟩, flags := TypeFlags.object, symbol := some "Element" },
    { id := ⟨3⟩, flags := TypeFlags.object
      signatures := [{ parameters := [⟨1⟩], returnType := ⟨2⟩ }] }]
  components := [{ name := "Button", type := ⟨3⟩ }]

theorem isComponent_shapeButton : shapeButton.queries.IsComponent {} ⟨3⟩ ⟨1⟩ :=
  ⟨_, _, "Element", rfl, rfl, rfl, by decide⟩

/-- Its only property, left out. -/
def shapeLeftOut : SkippedProperty where
  name := "shape"
  typeName := "never"
  reason := .unclassifiable
  detail := "Failed to find propType for never: no validator matches this type"

set_option maxRecDepth 4000 in
theorem value_assemble_shapeButton :
    ((Classifier.mk shapeButton {}).assemble
      ((shapeButton.queries.properties ⟨1⟩).map PropertySymbol.toProperty)).value =
      { skipped := [shapeLeftOut] } := by
  have hplace : ((Classifier.mk shapeButton {}).place { name := "shape", type := ⟨0⟩ }).value =
      { skipped := [shapeLeftOut] } := by
    rw [Classifier.value_place_eq_settle _ _ (by decide) (by decide),
      Classifier.value_classify_of_walk (o := .error (.unclassifiable "never" .noRule)) rfl]
    rfl
  have hproperties : (shapeButton.queries.properties ⟨1⟩).map PropertySymbol.toProperty =
      [{ name := "shape", type := ⟨0⟩ }] := rfl
  rw [hproperties, Classifier.value_assemble_cons, hplace]
  rfl

/-- The property is restored by an override of its validator, and then the parts are apart. -/
theorem convertComponent_apart_iff_restoredShape :
    let o : ComponentOverrides := { propTypes := [("shape", "PropTypes.object")] }
    let c : Converter := { overrides := [("Button", o)] }
    shapeButton.queries.IsComponent c.conventions ⟨3⟩ ⟨1⟩ ∧
      ((shapeButton.queries.properties ⟨1⟩).map (·.name)).Nodup ∧
      ∃ view, (c.convertComponent shapeButton "Button" ⟨3⟩).value = .ok view ∧ view.Apart := by
  intro o c
  have hnd : ((shapeButton.queries.properties ⟨1⟩).map (·.name)).Nodup := by decide
  refine ⟨isComponent_shapeButton, hnd, ?_⟩
  obtain ⟨view, hview, hapart⟩ :=
    convertComponent_apart_iff c shapeButton "Button" isComponent_shapeButton hnd
  refine ⟨view, hview, hapart.2 fun o' ho s hs hkey => ?_⟩
  obtain rfl : o = o' := Option.some.inj ho
  rw [value_assemble_shapeButton] at hs
  obtain rfl := List.mem_singleton.1 hs
  exact absurd (by decide) hkey

/-- A property that was left out is added by an override, and still left out. -/
theorem convertComponent_injectedShape :
    let shape : InjectedProperty := { name := "shape", propType := "PropTypes.object" }
    let c : Converter := { overrides := [("Button", { inject := [shape] })] }
    let view : ComponentView :=
      { name := "Button", properties := [shape.toForwarded], skipped := [shapeLeftOut] }
    ((shapeButton.queries.properties ⟨1⟩).map (·.name)).Nodup ∧
      (c.convertComponent shapeButton "Button" ⟨3⟩).value = .ok view ∧ ¬ view.Apart := by
  intro shape c view
  have horder : orderProperties [] [shape.toForwarded] = [shape.toForwarded] :=
    List.mergeSort_singleton _
  have hcustomize : (c.overrides.customize [shapeLeftOut]
      { name := "Button", skipped := [shapeLeftOut] }).value =
      { view with properties := orderProperties [] [shape.toForwarded] } := rfl
  refine ⟨by decide, ?_, fun h => h shapeLeftOut (by decide) (by decide)⟩
  unfold Converter.convertComponent
  rw [value_convertComponentWith_ok "Button" isComponent_shapeButton.extractProperties,
    value_assemble_shapeButton]
  exact congrArg Except.ok (hcustomize.trans (by rw [horder]))

end ComponentViews
