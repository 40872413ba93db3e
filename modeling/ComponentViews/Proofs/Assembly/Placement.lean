import ComponentViews.Assembly
import ComponentViews.Proofs.Distribution

/-!
# Where properties are placed

One property becomes one entry, of those forwarded or of those left out: it is left out if its name
is reserved; else it accepts all values if it holds what can be rendered and may not; else its type
decides. The entry has the name and the documentation of the property.

## Main definitions

* `Classifier.Placed`: what can become of a property.
* `ComponentProperty.IsEntry`, `ComponentProperty.IsLeftOut`: an entry is that of a property.

## Main results

* `placed_place`: what becomes of a property is one of these.
* `mem_forwarded_assemble`: the entries forwarded are those of the properties.
* `distributed_assemble`: the properties are distributed over the entries forwarded and those left
  out.
-/

namespace ComponentViews

/-- The reason to leave out a property whose type has no descriptor. -/
def ClassifyError.skipReason : ClassifyError → SkipReason
  | .functionType _ => .functionType
  | .unclassifiable _ _ => .unclassifiable

/-- An entry forwarded has the name and the documentation of a property. -/
def ComponentProperty.IsEntry (p : ComponentProperty) (f : ForwardedProperty) : Prop :=
  f.name = p.name ∧ f.documentation = p.documentation

/-- An entry left out has the name and the documentation of a property. -/
def ComponentProperty.IsLeftOut (p : ComponentProperty) (s : SkippedProperty) : Prop :=
  s.name = p.name ∧ s.documentation = p.documentation

namespace Classifier

variable (c : Classifier) (p : ComponentProperty)

/-- The warning about a property that accepts all values instead of what can be rendered. -/
def anyWarning : String :=
  s!"Defining node property {p.name} as any instead of {c.graph.render p.type}"

/-- What can become of a property. -/
inductive Placed : Assembly → Prop
  | reserved (hr : c.conventions.isReserved p.name) :
      Placed (c.skip p .reservedName "reserved property name")
  | anyInstead (hr : ¬ c.conventions.isReserved p.name) (hn : c.isNode p.type)
      (hc : p.name ≠ c.conventions.childrenProp) :
      Placed { forwarded := [p.toForwarded .any], warnings := [c.anyWarning p] }
  | classified {d : Descriptor} (hr : ¬ c.conventions.isReserved p.name)
      (hn : ¬ (c.isNode p.type ∧ p.name ≠ c.conventions.childrenProp))
      (hd : (c.classify p.type).value = .ok d) : Placed { forwarded := [p.toForwarded d] }
  | unclassified {e : ClassifyError} (hr : ¬ c.conventions.isReserved p.name)
      (hn : ¬ (c.isNode p.type ∧ p.name ≠ c.conventions.childrenProp))
      (he : (c.classify p.type).value = .error e) : Placed (c.skip p e.skipReason e.message)

theorem value_settle_error (e : ClassifyError) :
    (c.settle p (.error e)).value = c.skip p e.skipReason e.message := by
  cases e <;> rfl

/-- What becomes of a property depends on the value of a classification only. It is said of any
computation, so that comparing both sides does not run a classification. -/
theorem value_bind_settle (x : Logged Outcome) :
    (do let outcome ← x; c.settle p outcome : Logged Assembly).value =
      (c.settle p x.value).value := rfl

/-- A property is settled by its classification if its name is not reserved and it may hold what its
type says. -/
theorem value_place_eq_settle (hr : ¬ c.conventions.isReserved p.name)
    (hn : ¬ (c.isNode p.type ∧ p.name ≠ c.conventions.childrenProp)) :
    (c.place p).value = (c.settle p (c.classify p.type).value).value := by
  unfold place
  rw [if_neg hr, if_neg hn, value_bind_settle]

variable {c p} in
/-- A property with a descriptor is forwarded with it, unless its type is recognized as a whole and
another property is the one that may hold it. -/
theorem value_place_of_classify {d : Descriptor} (hr : ¬ c.conventions.isReserved p.name)
    (hn : ¬ (c.isNode p.type ∧ p.name ≠ c.conventions.childrenProp))
    (hd : (c.classify p.type).value = .ok d) :
    (c.place p).value = { forwarded := [p.toForwarded d] } := by
  rw [value_place_eq_settle c p hr hn, hd]
  rfl

theorem placed_place : c.Placed p (c.place p).value := by
  by_cases hr : c.conventions.isReserved p.name
  · unfold place
    rw [if_pos hr]
    exact .reserved hr
  · by_cases hn : c.isNode p.type ∧ p.name ≠ c.conventions.childrenProp
    · unfold place
      rw [if_neg hr, if_pos hn]
      exact .anyInstead hr hn.1 hn.2
    · rw [value_place_eq_settle c p hr hn]
      cases ho : (c.classify p.type).value with
      | ok d => exact .classified hr hn ho
      | error e =>
        rw [value_settle_error]
        exact .unclassified hr hn ho

variable {c p} {ps : List ComponentProperty}

theorem value_assemble_cons : (c.assemble (p :: ps)).value =
    (c.place p).value ++ (c.assemble ps).value := by
  simp only [assemble, Logged.value_bind, Logged.value_pure]

/-- The entries forwarded are those of the properties. -/
theorem mem_forwarded_assemble {f : ForwardedProperty} :
    f ∈ (c.assemble ps).value.forwarded ↔ ∃ p ∈ ps, f ∈ (c.place p).value.forwarded := by
  induction ps with
  | nil => simp
  | cons p ps ih =>
    rw [value_assemble_cons, Assembly.forwarded_append, List.mem_append, ih]
    simp

theorem exists_placed_of_mem_forwarded {f : ForwardedProperty}
    (h : f ∈ (c.assemble ps).value.forwarded) : ∃ p ∈ ps, ∃ a, c.Placed p a ∧ f ∈ a.forwarded := by
  obtain ⟨p, hp, hf⟩ := mem_forwarded_assemble.1 h
  exact ⟨p, hp, _, c.placed_place p, hf⟩

/-- One entry comes of a property. -/
theorem Placed.cases_entry {a : Assembly} (h : c.Placed p a) :
    (∃ f, p.IsEntry f ∧ a.forwarded = [f] ∧ a.skipped = []) ∨
      ∃ s, p.IsLeftOut s ∧ a.forwarded = [] ∧ a.skipped = [s] := by
  cases h with
  | reserved | unclassified => exact .inr ⟨_, ⟨rfl, rfl⟩, rfl, rfl⟩
  | anyInstead | classified => exact .inl ⟨_, ⟨rfl, rfl⟩, rfl, rfl⟩

/-- The properties are distributed over the entries forwarded and those left out. -/
theorem distributed_assemble (c : Classifier) (ps : List ComponentProperty) :
    Distributed ComponentProperty.IsEntry ComponentProperty.IsLeftOut ps
      (c.assemble ps).value.forwarded (c.assemble ps).value.skipped := by
  induction ps with
  | nil => exact .nil
  | cons p ps ih =>
    rw [value_assemble_cons, Assembly.forwarded_append, Assembly.skipped_append]
    rcases (c.placed_place p).cases_entry with ⟨f, he, hf, hs⟩ | ⟨s, he, hf, hs⟩
    · rw [hf, hs]
      exact .left he ih
    · rw [hf, hs]
      exact .right he ih

end Classifier

end ComponentViews
