import ComponentViews.Command.Conversions
import ComponentViews.Proofs.Conversion.Accounting
import ComponentViews.Proofs.Customization

/-!
# Properties that need attention

An author should look at the properties that are left out because their types have no descriptors.
These are the properties that are neither reserved nor accepted for all values, whose types cannot
be classified, and which no overrides restore. A conversion leaves out exactly those for this
reason, so what is reported about its views can be read off the graphs.

## Main definitions

* `Classifier.IsUnclassified`: a property has a type that decides about it and has no descriptor.
* `Overrides.Restores`: the overrides for a component restore a property.
* `Converter.NeedsAttention`: a property of an export needs attention.
* `Converter.openProperties`: the exports of some graphs, each with its properties that need
  attention.
* `Converter.views`: the views of graphs.

## Main results

* `skipSummary_assemble`: what is left out for this reason before overrides.
* `Overrides.skipped_customize`: what stays left out after them.
* `mem_openProperties_iff`: what needs attention in some graphs.
* `attention_views`, `length_views`: what is reported about the views of graphs, and their number.
-/

namespace ComponentViews

/-! ## Properties without descriptors -/

instance (o : Outcome) :
    Decidable (∃ typeName obstacle, o = .error (.unclassifiable typeName obstacle)) :=
  match o with
  | .ok _ => isFalse (by simp)
  | .error (.functionType _) => isFalse (by simp)
  | .error (.unclassifiable typeName obstacle) => isTrue ⟨typeName, obstacle, rfl⟩

namespace Classifier

/-- The type of a property decides about it: neither has it a reserved name nor does it accept all
values. The type cannot be classified and is none of functions. -/
structure IsUnclassified (c : Classifier) (p : ComponentProperty) : Prop where
  not_reserved : ¬ c.conventions.isReserved p.name
  not_anyInstead : ¬ (c.isNode p.type ∧ p.name ≠ c.conventions.childrenProp)
  unclassifiable : ∃ typeName obstacle,
    (c.classify p.type).value = .error (.unclassifiable typeName obstacle)

instance (c : Classifier) (p : ComponentProperty) : Decidable (c.IsUnclassified p) :=
  decidable_of_iff (¬ c.conventions.isReserved p.name ∧
      ¬ (c.isNode p.type ∧ p.name ≠ c.conventions.childrenProp) ∧
      ∃ typeName obstacle, (c.classify p.type).value = .error (.unclassifiable typeName obstacle))
    ⟨fun ⟨hr, hn, hu⟩ => ⟨hr, hn, hu⟩, fun ⟨hr, hn, hu⟩ => ⟨hr, hn, hu⟩⟩

variable {c : Classifier} {p : ComponentProperty}

/-- A property is left out for an author to look at if it is unclassified. -/
theorem Placed.skipSummary_eq {a : Assembly} (h : c.Placed p a) :
    (skipSummary a.skipped).map (·.name) = if c.IsUnclassified p then [p.name] else [] := by
  cases h with
  | reserved hr =>
    rw [if_neg fun h => h.not_reserved hr]
    rfl
  | anyInstead hr hn hc =>
    rw [if_neg fun h => h.not_anyInstead ⟨hn, hc⟩]
    rfl
  | classified hr hn hd =>
    rw [if_neg]
    · rfl
    · rintro ⟨-, -, typeName, obstacle, he⟩
      rw [hd] at he
      cases he
  -- Properties whose type is a function are skipped for a reason of their own.
  | @unclassified e hr hn he =>
    cases e with
    | functionType typeName =>
      rw [if_neg]
      · rfl
      · rintro ⟨-, -, typeName, obstacle, he'⟩
        rw [he] at he'
        cases he'
    | unclassifiable typeName obstacle =>
      rw [if_pos ⟨hr, hn, typeName, obstacle, he⟩]
      rfl

/-- Of the properties left out an author should look at those that are unclassified. -/
theorem skipSummary_assemble (c : Classifier) (ps : List ComponentProperty) :
    (skipSummary (c.assemble ps).value.skipped).map (·.name) =
      (ps.filter fun p => c.IsUnclassified p).map (·.name) := by
  induction ps with
  | nil => rfl
  | cons p ps ih =>
    have hfirst := (c.placed_place p).skipSummary_eq
    unfold skipSummary at hfirst ih ⊢
    rw [value_assemble_cons, Assembly.skipped_append, List.filter_append, List.map_append, hfirst,
      ih, List.filter_cons]
    by_cases hp : c.IsUnclassified p <;> simp [hp]

end Classifier

/-! ## Properties that are restored -/

/-- There are overrides for the component that a view is of, and they restore a property. -/
def Overrides.Restores (overrides : Overrides) (v : ComponentView) (n : String) : Prop :=
  ∃ o, valueOf? overrides v.name = some o ∧ o.Restores v n

instance (overrides : Overrides) (v : ComponentView) (n : String) :
    Decidable (overrides.Restores v n) :=
  match h : valueOf? overrides v.name with
  | none => isFalse (by simp [Overrides.Restores, h])
  | some o => decidable_of_iff (o.Restores v n) (by simp [Overrides.Restores, h])

/-- What is left out by overrides. -/
theorem Overrides.skipped_customize (overrides : Overrides) (v : ComponentView) :
    (overrides.customize v.skipped v).value.skipped =
      v.skipped.filter fun s => ¬ overrides.Restores v s.name := by
  unfold customize
  cases ho : valueOf? overrides v.name with
  | none => simp [Restores, ho]
  | some o =>
    refine (ComponentOverrides.skipped_apply fun s hs => hs).trans ?_
    simp [Restores, ho]

/-! ## What needs attention -/

namespace Converter

variable (c : Converter) (g : TypeGraph)

/-- A property of an export, which has some properties, needs attention: it is unclassified, and no
overrides restore it. -/
structure NeedsAttention (e : ComponentEntry) (ps : List ComponentProperty)
    (p : ComponentProperty) : Prop where
  unclassified : (Classifier.mk g c.conventions).IsUnclassified p
  not_restored : ¬ c.overrides.Restores
    (((Classifier.mk g c.conventions).assemble ps).value.toView e.name) p.name

instance (e : ComponentEntry) (ps : List ComponentProperty) (p : ComponentProperty) :
    Decidable (c.NeedsAttention g e ps p) :=
  decidable_of_iff ((Classifier.mk g c.conventions).IsUnclassified p ∧
      ¬ c.overrides.Restores
        (((Classifier.mk g c.conventions).assemble ps).value.toView e.name) p.name)
    ⟨fun ⟨hu, hr⟩ => ⟨hu, hr⟩, fun ⟨hu, hr⟩ => ⟨hu, hr⟩⟩

/-- The properties of an export that need attention, if it is a component. -/
def openIn (e : ComponentEntry) : List ComponentProperty :=
  match extractProperties g c.conventions e.type with
  | .ok ps => ps.filter fun p => c.NeedsAttention g e ps p
  | .error _ => []

/-- Whether an export is a component. -/
def accepts (e : ComponentEntry) : Bool := (extractProperties g c.conventions e.type).toBool

/-- The exports of some graphs, each with its properties that need attention. -/
def openProperties (graphs : List LoadedGraph) : List (ComponentEntry × ComponentProperty) :=
  graphs.flatMap fun loaded => loaded.graph.components.flatMap fun e =>
    (c.openIn loaded.graph e).map fun p => (e, p)

/-- The exports of some graphs that are components. -/
def accepted (graphs : List LoadedGraph) : List ComponentEntry :=
  graphs.flatMap fun loaded => loaded.graph.components.filter (c.accepts loaded.graph)

variable {c g}

theorem mem_openIn_iff {e : ComponentEntry} {p : ComponentProperty} :
    p ∈ c.openIn g e ↔ ∃ ps, extractProperties g c.conventions e.type = .ok ps ∧ p ∈ ps ∧
      c.NeedsAttention g e ps p := by
  unfold openIn
  cases extractProperties g c.conventions e.type <;> simp

/-- What needs attention in some graphs. -/
theorem mem_openProperties_iff {graphs : List LoadedGraph} {e : ComponentEntry}
    {p : ComponentProperty} :
    (e, p) ∈ c.openProperties graphs ↔ ∃ loaded ∈ graphs, e ∈ loaded.graph.components ∧
      ∃ ps, extractProperties loaded.graph c.conventions e.type = .ok ps ∧ p ∈ ps ∧
        c.NeedsAttention loaded.graph e ps p := by
  simp [openProperties, mem_openIn_iff]

/-- Something needs attention in some graphs if any of their exports has a property that does. -/
theorem length_openProperties_pos_iff {graphs : List LoadedGraph} :
    0 < (c.openProperties graphs).length ↔ ∃ loaded ∈ graphs, ∃ e ∈ loaded.graph.components,
      ∃ ps, extractProperties loaded.graph c.conventions e.type = .ok ps ∧
        ∃ p ∈ ps, c.NeedsAttention loaded.graph e ps p := by
  rw [List.length_pos_iff_exists_mem]
  constructor
  · rintro ⟨⟨e, p⟩, hmem⟩
    obtain ⟨loaded, hloaded, he, ps, hps, hp, hopen⟩ := mem_openProperties_iff.1 hmem
    exact ⟨loaded, hloaded, e, he, ps, hps, p, hp, hopen⟩
  · rintro ⟨loaded, hloaded, e, he, ps, hps, p, hp, hopen⟩
    exact ⟨(e, p), mem_openProperties_iff.2 ⟨loaded, hloaded, he, ps, hps, hp, hopen⟩⟩

/-- After the overrides, what is left out for an author to look at is what needs attention. -/
theorem skipSummary_customize (c : Converter) (g : TypeGraph) (e : ComponentEntry)
    (ps : List ComponentProperty) :
    let before := ((Classifier.mk g c.conventions).assemble ps).value.toView e.name
    (skipSummary (c.overrides.customize before.skipped before).value.skipped).map (·.name) =
      (ps.filter fun p => c.NeedsAttention g e ps p).map (·.name) := by
  intro before
  have hskipped := c.overrides.skipped_customize before
  have hsummary := (Classifier.mk g c.conventions).skipSummary_assemble ps
  unfold skipSummary at hsummary ⊢
  -- Restoring is by name, so it can be done before or after the reasons are looked at.
  calc ((c.overrides.customize before.skipped before).value.skipped.filter
        (·.reason.isActionable)).map (·.name)
    _ = ((before.skipped.filter (·.reason.isActionable)).filter
          ((fun n => decide (¬ c.overrides.Restores before n)) ∘ (·.name))).map (·.name) := by
        rw [hskipped, List.filter_comm]
        rfl
    _ = ((ps.filter fun p => (Classifier.mk g c.conventions).IsUnclassified p).filter
          ((fun n => decide (¬ c.overrides.Restores before n)) ∘ (·.name))).map (·.name) := by
        rw [← List.filter_map, ← List.filter_map]
        exact congrArg _ hsummary
    _ = (ps.filter fun p => c.NeedsAttention g e ps p).map (·.name) := by
        rw [List.filter_filter]
        congr 1
        refine List.filter_congr fun p _ => ?_
        rw [Function.comp_apply, ← Bool.decide_and]
        refine decide_eq_decide.2 ⟨?_, ?_⟩
        · rintro ⟨hr, hu⟩
          exact ⟨hu, hr⟩
        · rintro ⟨hu, hr⟩
          exact ⟨hr, hu⟩

/-- What a view leaves out for an author to look at is what needs attention in the export. -/
theorem skipSummary_convertComponent {e : ComponentEntry} {v : ComponentView}
    (h : (c.convertComponent g e.name e.type).value = .ok v) :
    (skipSummary v.skipped).map (·.name) = (c.openIn g e).map (·.name) := by
  unfold convertComponent at h
  unfold openIn
  cases hextract : extractProperties g c.conventions e.type with
  | error reason =>
    rw [value_convertComponentWith_error e.name hextract] at h
    cases h
  | ok ps =>
    rw [value_convertComponentWith_ok e.name hextract] at h
    obtain rfl := Except.ok.inj h
    exact c.skipSummary_customize g e ps

/-- An export has a view if it is a component. -/
theorem toBool_value_convertComponent (c : Converter) (g : TypeGraph) (e : ComponentEntry) :
    (c.convertComponent g e.name e.type).value.toBool = c.accepts g e := by
  unfold convertComponent accepts
  cases hextract : extractProperties g c.conventions e.type with
  | ok ps =>
    rw [value_convertComponentWith_ok e.name hextract]
    rfl
  | error reason =>
    rw [value_convertComponentWith_error e.name hextract]
    rfl

/-- Nothing needs attention in an export that has no view. -/
theorem openIn_of_rejected {e : ComponentEntry} {reason : NotComponent}
    (h : (c.convertComponent g e.name e.type).value = .error reason) : c.openIn g e = [] := by
  have hextract := TypeGraph.isRefused_iff.1 (value_convertComponentWith_eq_error_iff.1 h)
  unfold openIn
  rw [hextract]

/-! ## All exports -/

theorem attention_append (views more : List ComponentView) :
    attention (views ++ more) = attention views ++ attention more := List.flatMap_append

/-- What is reported about the views of some exports is what needs attention in them. -/
theorem attention_convertEntries (c : Converter) (g : TypeGraph) (entries : List ComponentEntry) :
    (attention (convertEntriesWith c.conventions c.overrides.customize g entries).value.views).map
        (·.2.name) =
      entries.flatMap fun e => (c.openIn g e).map (·.name) := by
  induction entries with
  | nil => rfl
  | cons e entries ih =>
    rw [value_convertEntriesWith_cons, List.flatMap_cons]
    cases hv : (c.convertComponent g e.name e.type).value with
    | ok v =>
      have hfirst : (attention [v]).map (·.2.name) = (c.openIn g e).map (·.name) := by
        rw [← skipSummary_convertComponent hv]
        simp [attention]
      unfold convertComponent at hv
      rw [hv, ← hfirst, ← ih, ← List.map_append, ← attention_append]
      rfl
    | error reason =>
      rw [openIn_of_rejected hv]
      unfold convertComponent at hv
      rw [hv]
      exact ih

/-- The views of some exports are those of the components among them. -/
theorem length_views_convertEntries (c : Converter) (g : TypeGraph)
    (entries : List ComponentEntry) :
    (convertEntriesWith c.conventions c.overrides.customize g entries).value.views.length =
      (entries.filter (c.accepts g)).length := by
  induction entries with
  | nil => rfl
  | cons e entries ih =>
    rw [value_convertEntriesWith_cons, List.filter_cons, ← c.toBool_value_convertComponent]
    unfold convertComponent
    cases (convertComponentWith c.conventions c.overrides.customize g e.name e.type).value with
    | ok v => exact congrArg (· + 1) ih
    | error reason => exact ih

/-- The views of all components that some graphs export, in the order of the graphs. -/
def views (c : Converter) (graphs : List LoadedGraph) : List ComponentView :=
  graphs.flatMap fun loaded => (c.convertGraph loaded.graph).value.views

theorem value_convertLoaded (c : Converter) (graphs : List LoadedGraph) :
    (convertLoaded c graphs).value.flatMap (·.views) = c.views graphs := by
  have hvalue : (convertLoaded c graphs).value = (convertGraphs c graphs).value.map (·.2) := rfl
  rw [hvalue, convertGraphs, Logged.value_mapM, List.map_map, List.flatMap_map]
  rfl

/-- What is reported about the views of graphs is what needs attention in them. -/
theorem attention_views (c : Converter) (graphs : List LoadedGraph) :
    (attention (c.views graphs)).map (·.2.name) = (c.openProperties graphs).map (·.2.name) := by
  have hgraph : ∀ loaded ∈ graphs,
      (attention (c.convertGraph loaded.graph).value.views).map (·.2.name) =
        (loaded.graph.components.flatMap fun e =>
          (c.openIn loaded.graph e).map fun p => (e, p)).map (·.2.name) := by
    intro loaded _
    rw [List.map_flatMap]
    simp only [List.map_map]
    exact attention_convertEntries c loaded.graph loaded.graph.components
  unfold views openProperties attention at *
  rw [List.flatMap_assoc, List.map_flatMap, List.map_flatMap]
  exact List.flatMap_congr hgraph

theorem length_attention_views (c : Converter) (graphs : List LoadedGraph) :
    (attention (c.views graphs)).length = (c.openProperties graphs).length := by
  simpa using congrArg List.length (c.attention_views graphs)

/-- The views of graphs are those of the components that they export. -/
theorem length_views (c : Converter) (graphs : List LoadedGraph) :
    (c.views graphs).length = (c.accepted graphs).length := by
  rw [views, accepted, List.length_flatMap, List.length_flatMap]
  congr 1
  refine List.map_congr_left fun loaded _ => ?_
  exact length_views_convertEntries c loaded.graph loaded.graph.components

end Converter

end ComponentViews
