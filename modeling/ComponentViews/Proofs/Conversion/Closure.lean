import ComponentViews.Proofs.Conversion.Renaming

/-!
# Graphs that are closed under references

A graph that is made from a document is closed: from an id of one of its types, and so from an
export, all references and all classifications lead to ids of its types. What is rendered,
classified, extracted, assembled or converted therefore never depends on what the graph answers
about other ids.

A graph whose answers about unknown ids are exchanged is a renaming of the graph that leaves all
ids as they are.

## Main definitions

* `TypeGraph.Leads`: one id leads to another along the ids in answers.
* `Graph.Closed`: the references of the types are ids of types.
* `Graph.Indifferent`: what is done with a type comes out the same whatever is answered about
  unknown ids.

## Main results

* `Graph.indifferent`: what is done with a type of a closed graph comes out the same.
* `Graph.closed_of_document`: the graph of a document is closed, and its conversion does not depend
  on unknown ids.
-/

namespace ComponentViews

open Relation

/-- One id leads to another along the ids in answers. -/
def TypeGraph.Leads (G : TypeGraph) : TypeId → TypeId → Prop :=
  ReflTransGen fun t u => u ∈ G.references t

/-- The references of the types are ids of types: leaving ids as they are renames the graph to
itself. -/
abbrev Graph.Closed (g : Graph) : Prop := g.Renaming g {t | t ∈ g.ids} fun t => t

/-- The graph of a consistent document is closed. -/
theorem GraphDocument.Consistent.closed {d : GraphDocument} (h : d.Consistent) :
    Graph.Closed ⟨d.types, d.components⟩ where
  injOn _ _ _ _ he := he
  node t ht := by
    obtain ⟨n, hn, rfl⟩ := List.mem_map.1 ht
    have hnode := Graph.node?_of_mem (g := ⟨d.types, d.components⟩) h.nodup hn
    refine ⟨n, hnode, ?_, h.references n hn⟩
    rw [n.rename_self]
    exact hnode

namespace Graph

variable {g : Graph} {t : TypeId}

/-- What is done with a type comes out the same whatever is answered about unknown ids. -/
structure Indifferent (g : Graph) (f : Fallback) (t : TypeId) : Prop where
  render : g.render t f = g.render t
  renderWithin : ∀ room, g.renderWithin f room t = g.renderWithin .usual room t
  classify : ∀ conventions, (Classifier.mk (g.answering f) conventions).classify t =
    (Classifier.mk g conventions).classify t
  extract : ∀ conventions, extractProperties (g.answering f) conventions t =
    extractProperties g conventions t
  convert : ∀ conventions hook name,
    convertComponentWith conventions hook (g.answering f) name t =
      convertComponentWith conventions hook g name t

section Closed

variable (h : g.Closed)
include h

/-- All ids that a known one leads to are known. -/
theorem mem_ids_of_leads (ht : t ∈ g.ids) {u : TypeId} (hu : g.queries.Leads t u) : u ∈ g.ids := by
  induction hu with
  | refl => exact ht
  | tail _ hv ih => exact (h.answering .usual .usual).closed _ ih _ hv

/-- All types that are met while a known one is classified are known. -/
theorem mem_ids_of_occurs (ht : t ∈ g.ids) {conventions : Conventions} {stack s : List TypeId}
    {u : TypeId} (hu : (Classifier.mk g conventions).Occurs stack t s u) : u ∈ g.ids := by
  induction hu with
  | root => exact ht
  | part _ hb ih =>
    exact (h.answering .usual .usual).closed _ ih _ (Classifier.mem_references_of_mem_parts _ hb)

/-- What is done with a known type comes out the same whatever is answered about unknown ids. -/
theorem indifferent (f : Fallback) (ht : t ∈ g.ids) : g.Indifferent f t where
  render := h.renderWithin .usual f maxRenderDepth ht
  renderWithin room := h.renderWithin .usual f room ht
  classify conventions := Classifier.classify_rename conventions (h.answering .usual f) ht
  extract conventions := by
    have hextract := extractProperties_rename conventions (h.answering .usual f) ht
    have hself : List.map (ComponentProperty.rename fun t => t) = id :=
      funext ComponentProperty.map_rename_self
    rw [hself, Except.map_id] at hextract
    exact hextract
  convert conventions hook name :=
    convertComponentWith_rename conventions (h.answering .usual f) hook name ht

/-- Properties of known types are decided upon alike. -/
theorem assemble_answering (f : Fallback) (conventions : Conventions)
    {ps : List ComponentProperty} (hps : ∀ p ∈ ps, p.type ∈ g.ids) :
    (Classifier.mk (g.answering f) conventions).assemble ps =
      (Classifier.mk g conventions).assemble ps := by
  have hassemble := Classifier.assemble_rename conventions (h.answering .usual f) hps
  rw [ComponentProperty.map_rename_self] at hassemble
  exact hassemble

/-- Exports of known types are converted alike. -/
theorem convertEntriesWith_answering (f : Fallback) (conventions : Conventions) (hook : Hook)
    {entries : List ComponentEntry} (hentries : ∀ e ∈ entries, e.type ∈ g.ids) :
    convertEntriesWith conventions hook (g.answering f) entries =
      convertEntriesWith conventions hook g entries := by
  have hconvert := convertEntriesWith_rename conventions (h.answering .usual f) hook hentries
  rw [ComponentEntry.map_rename_self] at hconvert
  exact hconvert

end Closed

/-! ## Graphs of documents -/

/-- **The graph of a document is closed.** The types of its exports are known, and from a known type
only known types are led to or met while it is classified. Whatever is answered about unknown ids,
known types are rendered, classified and converted alike, properties of known types are decided upon
alike, and so are all exports. -/
theorem closed_of_document {d : GraphDocument} (h : ofDocument d = .ok g) :
    (∀ e ∈ g.components, e.type ∈ g.ids) ∧
      (∀ t ∈ g.ids, (∀ u, g.queries.Leads t u → u ∈ g.ids) ∧
        ∀ conventions s u, (Classifier.mk g conventions).Occurs [] t s u → u ∈ g.ids) ∧
      ∀ f : Fallback, (∀ t ∈ g.ids, g.Indifferent f t) ∧ ∀ conventions : Conventions,
        (∀ ps : List ComponentProperty, (∀ p ∈ ps, p.type ∈ g.ids) →
          (Classifier.mk (g.answering f) conventions).assemble ps =
            (Classifier.mk g conventions).assemble ps) ∧
        ∀ hook, convertEntriesWith conventions hook (g.answering f) g.components =
          convertGraphWith conventions hook g := by
  obtain ⟨hconsistent, rfl⟩ := (ofDocument_eq_ok_iff d g).1 h
  have hclosed := hconsistent.closed
  refine ⟨hconsistent.components, ?_, ?_⟩
  · intro t ht
    constructor
    · intro u hu
      exact mem_ids_of_leads hclosed ht hu
    · intro conventions s u hu
      exact mem_ids_of_occurs hclosed ht hu
  · intro f
    refine ⟨fun t ht => indifferent hclosed f ht, fun conventions => ⟨?_, ?_⟩⟩
    · intro ps hps
      exact assemble_answering hclosed f conventions hps
    · intro hook
      exact convertEntriesWith_answering hclosed f conventions hook hconsistent.components

/-- Answers by which every type would be a list of itself. -/
def listAnswers : Fallback where
  flags _ := TypeFlags.object
  render _ := "?"
  symbolName _ := some "Array"
  unionTypes t := some [t]
  intersectionTypes t := some [t]
  typeArguments t := [t]
  callSignatures t := [⟨[t], t⟩]
  properties t := [⟨"item", t, ""⟩]
  needsParens _ := true

/-- The picker does not depend on such answers. -/
theorem closed_of_document_picker :
    let g : Graph := ⟨picker.types, picker.components⟩
    ofDocument picker = .ok g ∧ (⟨3⟩ : TypeId) ∈ g.ids ∧ (⟨7⟩ : TypeId) ∉ g.ids ∧
      g.render ⟨3⟩ listAnswers = g.render ⟨3⟩ ∧ g.render ⟨7⟩ listAnswers ≠ g.render ⟨7⟩ ∧
      convertEntriesWith {} (fun _ view => pure view) (g.answering listAnswers) g.components =
        convertGraphWith {} (fun _ view => pure view) g := by
  intro g
  have hdocument : ofDocument picker = .ok g := rfl
  have hknown : (⟨3⟩ : TypeId) ∈ g.ids := by decide
  have hunknown : (⟨7⟩ : TypeId) ∉ g.ids := by decide
  obtain ⟨-, -, hsame⟩ := closed_of_document hdocument
  obtain ⟨htypes, hconversions⟩ := hsame listAnswers
  refine ⟨hdocument, hknown, hunknown, (htypes ⟨3⟩ hknown).render, ?_, ?_⟩
  · decide
  · exact (hconversions {}).2 _

end Graph

end ComponentViews
