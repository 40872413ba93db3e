import ComponentViews.Proofs.Assembly.Placement

/-!
# Properties one by one

What becomes of a property does not depend on the properties around it: the entries and the warnings
for a list are those for its properties, one property after the other, also where names are repeated
and where types have no descriptor. Of a single property comes one entry. Its name decides first,
then whether it holds what can be rendered and may not, and its type last.

## Main definitions

* `Classifier.NodeElsewhere`: a property other than the one meant for it holds what can be rendered.
* `Classifier.Routed`: how a single property is decided upon.

## Main results

* `Placed.routed`: whatever can become of a property is so decided.
* `assemble_eq_flatMap`: the results for a list are those for its properties.
* `routed_one_by_one`: properties are decided upon one by one.
-/

namespace ComponentViews

namespace Classifier

variable {c : Classifier} {p : ComponentProperty} {ps : List ComponentProperty} {a : Assembly}

/-- The type of a property is rendered as that of all that can be rendered, and another property is
the one that may hold it. -/
def NodeElsewhere (c : Classifier) (p : ComponentProperty) : Prop :=
  c.conventions.isNodeMarker (c.graph.render p.type) ∧ p.name ≠ c.conventions.childrenProp

/-- How a single property is decided upon. -/
structure Routed (c : Classifier) (p : ComponentProperty) (a : Assembly) : Prop where
  /-- There is one entry. -/
  single : a.forwarded.length + a.skipped.length = 1
  /-- It is left out for its name exactly if that is reserved. -/
  reserved_iff : (∃ s ∈ a.skipped, s.reason = .reservedName) ↔ c.conventions.isReserved p.name
  /-- Otherwise it accepts all values, with one warning, exactly if it holds what can be rendered and
  may not. -/
  anyInstead_iff (hr : ¬ c.conventions.isReserved p.name) :
    (∃ f ∈ a.forwarded, f.propType = "PropTypes.any") ∧ a.warnings.length = 1 ↔ c.NodeElsewhere p
  /-- Otherwise it is forwarded with the descriptor of its type, without a warning. -/
  described (hr : ¬ c.conventions.isReserved p.name) (hn : ¬ c.NodeElsewhere p) {d : Descriptor}
    (hd : (c.classify p.type).value = .ok d) :
    (∃ f ∈ a.forwarded, f.propType = d.text) ∧ a.warnings = []
  /-- Without a descriptor it is left out for the reason why there is none. -/
  undescribed (hr : ¬ c.conventions.isReserved p.name) (hn : ¬ c.NodeElsewhere p)
    {e : ClassifyError} (he : (c.classify p.type).value = .error e) :
    (∃ s ∈ a.skipped, s.reason = e.skipReason ∧ s.detail = e.message) ∧ a.warnings = []
  /-- An entry forwarded has the name, the documentation and the default value of the property. -/
  of_forwarded : ∀ f ∈ a.forwarded, f.name = p.name ∧ f.documentation = p.documentation ∧
    f.defaultValue = p.defaultValue ∧ f.forward
  /-- An entry left out has its name and its documentation, and the rendering of its type. -/
  of_skipped : ∀ s ∈ a.skipped, s.name = p.name ∧ s.documentation = p.documentation ∧
    s.typeName = c.graph.render p.type

/-! ## One property -/

theorem skipReason_ne_reservedName (e : ClassifyError) : e.skipReason ≠ .reservedName := by
  cases e <;> simp [ClassifyError.skipReason]

/-- Whatever can become of a property is decided by its name, what it may hold and its type. -/
theorem Placed.routed (h : c.Placed p a) : c.Routed p a := by
  cases h with
  | reserved hr =>
    exact {
      single := rfl
      reserved_iff := iff_of_true ⟨_, List.mem_singleton_self _, rfl⟩ hr
      anyInstead_iff := fun hr' => absurd hr hr'
      described := fun hr' => absurd hr hr'
      undescribed := fun hr' => absurd hr hr'
      of_forwarded := by simp [skip]
      of_skipped := by simp [skip] }
  | anyInstead hr hn hc =>
    exact {
      single := rfl
      reserved_iff := iff_of_false (by simp) hr
      anyInstead_iff := fun _ =>
        iff_of_true ⟨⟨_, List.mem_singleton_self _, rfl⟩, rfl⟩ ⟨hn, hc⟩
      described := fun _ hn' => absurd ⟨hn, hc⟩ hn'
      undescribed := fun _ hn' => absurd ⟨hn, hc⟩ hn'
      of_forwarded := by simp [ComponentProperty.toForwarded]
      of_skipped := by simp }
  | @classified d hr hn hd =>
    exact {
      single := rfl
      reserved_iff := iff_of_false (by simp) hr
      -- All values may also be what the type says, but then there is no warning.
      anyInstead_iff := fun _ => iff_of_false (by simp) hn
      described := fun _ _ d' hd' => by
        obtain rfl : d = d' := Except.ok.inj (hd.symm.trans hd')
        exact ⟨⟨_, List.mem_singleton_self _, rfl⟩, rfl⟩
      undescribed := fun _ _ e he => by
        rw [hd] at he
        cases he
      of_forwarded := by simp [ComponentProperty.toForwarded]
      of_skipped := by simp }
  | @unclassified e hr hn he =>
    exact {
      single := rfl
      reserved_iff := iff_of_false (by simp [skip, skipReason_ne_reservedName]) hr
      anyInstead_iff := fun _ => iff_of_false (by simp [skip]) hn
      described := fun _ _ d hd => by
        rw [he] at hd
        cases hd
      undescribed := fun _ _ e' he' => by
        obtain rfl : e = e' := Except.error.inj (he.symm.trans he')
        exact ⟨⟨_, List.mem_singleton_self _, rfl, rfl⟩, rfl⟩
      of_forwarded := by simp [skip]
      of_skipped := by simp [skip] }

theorem value_assemble_singleton : (c.assemble [p]).value = (c.place p).value := by
  rw [value_assemble_cons, assemble_nil, Logged.value_pure, Assembly.append_empty]

/-! ## Many properties -/

theorem value_assemble_append (ps qs : List ComponentProperty) :
    (c.assemble (ps ++ qs)).value = (c.assemble ps).value ++ (c.assemble qs).value := by
  rw [assemble_append]
  rfl

/-- What becomes of the first property is what becomes of it alone. -/
theorem value_assemble_cons_eq_singleton :
    (c.assemble (p :: ps)).value = (c.assemble [p]).value ++ (c.assemble ps).value :=
  value_assemble_append [p] ps

/-- Whatever is read off in the order of the properties is read off one property after the other. -/
theorem assemble_eq_flatMap {β : Type} (entries : Assembly → List β) (hnone : entries {} = [])
    (happend : ∀ a b, entries (a ++ b) = entries a ++ entries b) (ps : List ComponentProperty) :
    entries (c.assemble ps).value = ps.flatMap fun p => entries (c.assemble [p]).value := by
  induction ps with
  | nil => exact hnone
  | cons p ps ih => rw [value_assemble_cons_eq_singleton, happend, ih, List.flatMap_cons]

/-- **Properties one by one.** The entries and the warnings for two lists of properties are those for
the one followed by those for the other, so those for a list come of its properties one after the
other, and a single property is decided upon by its name, what it may hold and its type. -/
theorem routed_one_by_one (c : Classifier) :
    (∀ ps qs : List ComponentProperty,
      (c.assemble (ps ++ qs)).value.forwarded =
        (c.assemble ps).value.forwarded ++ (c.assemble qs).value.forwarded ∧
      (c.assemble (ps ++ qs)).value.skipped =
        (c.assemble ps).value.skipped ++ (c.assemble qs).value.skipped ∧
      (c.assemble (ps ++ qs)).value.warnings =
        (c.assemble ps).value.warnings ++ (c.assemble qs).value.warnings) ∧
    (∀ ps : List ComponentProperty,
      (c.assemble ps).value.forwarded = (ps.flatMap fun p => (c.assemble [p]).value.forwarded) ∧
      (c.assemble ps).value.skipped = (ps.flatMap fun p => (c.assemble [p]).value.skipped) ∧
      (c.assemble ps).value.warnings = ps.flatMap fun p => (c.assemble [p]).value.warnings) ∧
    ∀ p : ComponentProperty, c.Routed p (c.assemble [p]).value := by
  refine ⟨fun ps qs => ?_, fun ps => ?_, fun p => ?_⟩
  -- To append assemblies is to append each of the three lists.
  · rw [value_assemble_append]
    exact ⟨rfl, rfl, rfl⟩
  · exact ⟨assemble_eq_flatMap Assembly.forwarded rfl Assembly.forwarded_append ps,
      assemble_eq_flatMap Assembly.skipped rfl Assembly.skipped_append ps,
      assemble_eq_flatMap Assembly.warnings rfl Assembly.warnings_append ps⟩
  · rw [value_assemble_singleton]
    exact (placed_place c p).routed

end Classifier

end ComponentViews
