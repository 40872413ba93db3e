import ComponentViews.Conversion
import ComponentViews.Proofs.Classification.Renaming

/-!
# Conversion of renamed documents

Views mention types by their renderings and descriptors only. So a document may number its types as
it likes, list them in any order and contain types that no export leads to: the views of its
components and the reasons why other exports are rejected stay the same, and so do the reports.

## Main definitions

* `ComponentProperty.rename`: a property with its type renamed.

## Main results

* `extractProperties_rename`: the properties of a component under its new id.
* `Classifier.assemble_rename`: what becomes of properties whose types are renamed.
* `convertEntriesWith_rename`: the conversion of exports whose types are renamed.
* `convertGraphWith_of_renaming`: the conversion of a document under new ids.
-/

namespace ComponentViews

/-- A property with its type renamed. -/
def ComponentProperty.rename (r : TypeId → TypeId) (p : ComponentProperty) : ComponentProperty :=
  { p with type := r p.type }

theorem ComponentProperty.map_rename_self (ps : List ComponentProperty) :
    ps.map (rename fun t => t) = ps :=
  List.map_id'' (fun _ => rfl) ps

section Renaming

variable {G H : TypeGraph} {S : Set TypeId} {r : TypeId → TypeId}
variable (conventions : Conventions) (h : G.Renaming H S r)
include h

/-! ## Properties -/

/-- The ids in the signatures of a type are among those in the answers. -/
theorem TypeGraph.Renaming.mem_of_signature {t u : TypeId} (ht : t ∈ S) {s : Signature}
    (hs : s ∈ G.callSignatures t) (hu : u ∈ s.references) : u ∈ S := by
  refine h.closed t ht u ?_
  simp only [TypeGraph.references, List.mem_append, List.mem_flatMap]
  exact .inl (.inr ⟨s, hs, hu⟩)

/-- The properties of a component under its new id. -/
theorem extractProperties_rename {t : TypeId} (ht : t ∈ S) :
    extractProperties H conventions (r t) =
      (extractProperties G conventions t).map (List.map (ComponentProperty.rename r)) := by
  unfold extractProperties
  rw [h.callSignatures t ht]
  cases hs : G.callSignatures t with
  | nil => rfl
  | cons signature rest =>
    have hmem : signature ∈ G.callSignatures t := by simp [hs]
    have hS : ∀ u ∈ signature.references, u ∈ S := fun u hu => h.mem_of_signature ht hmem hu
    obtain ⟨parameters, returnType⟩ := signature
    have hreturn : H.symbolName (r returnType) = G.symbolName returnType :=
      h.symbolName _ (hS returnType (by simp [Signature.references]))
    -- A component takes at most one parameter, whose properties are those that are read.
    match parameters with
    | [] => rfl
    | [props] =>
      have hprops := h.properties props (hS props (by simp [Signature.references]))
      simp only [List.map_cons, Signature.rename, List.map_nil, hreturn, hprops, List.map_map]
      split
      · simp only [Except.map, List.map_map]
        rfl
      · rfl
    | a :: b :: more => simp [Signature.rename, Except.map]

/-- The types of a component's properties are among the ids in the answers. -/
theorem mem_of_extractProperties {t : TypeId} (ht : t ∈ S) {ps : List ComponentProperty}
    (hp : extractProperties G conventions t = .ok ps) : ∀ p ∈ ps, p.type ∈ S := by
  obtain ⟨signature, hs, props, hparameters, rfl⟩ := extractProperties_eq_ok hp
  have hprops : props ∈ S := h.mem_of_signature ht hs (by simp [Signature.references, hparameters])
  intro p hp
  obtain ⟨q, hq, rfl⟩ := List.mem_map.1 hp
  refine h.closed props hprops q.type ?_
  simp only [TypeGraph.references, List.mem_append]
  exact .inr (List.mem_map_of_mem hq)

namespace Classifier

theorem skip_rename {p : ComponentProperty} (hp : p.type ∈ S) (reason : SkipReason)
    (detail : String) :
    (mk H conventions).skip (p.rename r) reason detail =
      (mk G conventions).skip p reason detail := by
  simp only [skip, ComponentProperty.rename, h.render _ hp]

theorem settle_rename {p : ComponentProperty} (hp : p.type ∈ S) (outcome : Outcome) :
    (mk H conventions).settle (p.rename r) outcome = (mk G conventions).settle p outcome := by
  unfold settle
  simp only [skip_rename conventions h hp]
  rfl

/-- What becomes of a property whose type is renamed. -/
theorem place_rename {p : ComponentProperty} (hp : p.type ∈ S) :
    (mk H conventions).place (p.rename r) = (mk G conventions).place p := by
  have hname : (p.rename r).name = p.name := rfl
  have hforwarded : (p.rename r).toForwarded .any = p.toForwarded .any := rfl
  have hnode : (mk H conventions).isNode (p.rename r).type = (mk G conventions).isNode p.type :=
    isNode_rename conventions h hp
  have hrender : H.render (p.rename r).type = G.render p.type := h.render _ hp
  have hclassify : (mk H conventions).classify (p.rename r).type =
      (mk G conventions).classify p.type := classify_rename conventions h hp
  unfold place
  dsimp only
  rw [hname, hforwarded, hnode, hrender, hclassify]
  simp only [skip_rename conventions h hp, settle_rename conventions h hp]

/-- What becomes of properties whose types are renamed. -/
theorem assemble_rename {ps : List ComponentProperty} (hps : ∀ p ∈ ps, p.type ∈ S) :
    (mk H conventions).assemble (ps.map (ComponentProperty.rename r)) =
      (mk G conventions).assemble ps := by
  induction ps with
  | nil => rfl
  | cons p ps ih =>
    have hp := place_rename conventions h (hps p List.mem_cons_self)
    have hrest := ih fun q hq => hps q (List.mem_cons_of_mem p hq)
    simp only [List.map_cons, assemble, hp, hrest]

end Classifier

/-! ## Exports -/

variable (hook : Hook)

/-- The conversion of a component whose type is renamed. -/
theorem convertComponentWith_rename (name : String) {t : TypeId} (ht : t ∈ S) :
    convertComponentWith conventions hook H name (r t) =
      convertComponentWith conventions hook G name t := by
  have hextract := extractProperties_rename conventions h ht
  unfold convertComponentWith
  rw [hextract]
  cases hp : extractProperties G conventions t with
  | error e => rfl
  | ok ps =>
    have hassemble := Classifier.assemble_rename conventions h
      (mem_of_extractProperties conventions h ht hp)
    simp only [Except.map, hassemble]

/-- The conversion of exports whose types are renamed. -/
theorem convertEntriesWith_rename {entries : List ComponentEntry}
    (hentries : ∀ e ∈ entries, e.type ∈ S) :
    convertEntriesWith conventions hook H (entries.map (ComponentEntry.rename r)) =
      convertEntriesWith conventions hook G entries := by
  induction entries with
  | nil => rfl
  | cons entry entries ih =>
    have hname : (entry.rename r).name = entry.name := rfl
    have hentry : convertComponentWith conventions hook H entry.name (entry.rename r).type =
        convertComponentWith conventions hook G entry.name entry.type :=
      convertComponentWith_rename conventions h hook entry.name
        (hentries entry List.mem_cons_self)
    have hrest := ih fun e he => hentries e (List.mem_cons_of_mem entry he)
    rw [List.map_cons, convertEntriesWith, convertEntriesWith, hname, hentry, hrest]

end Renaming

/-! ## Documents -/

/-- **Conversion does not depend on the numbers of types.** If a document has the exports of
another under new ids, and the types that can be reached from them, the graphs of both are converted
into the same views and the same rejected exports, with the same reports, whatever the conventions
and the hook are. Where types stand, and which types there are besides, does not matter. -/
theorem convertGraphWith_of_renaming {d₁ d₂ : GraphDocument} {g₁ g₂ : Graph}
    (h₁ : Graph.ofDocument d₁ = .ok g₁) (h₂ : Graph.ofDocument d₂ = .ok g₂) {r : TypeId → TypeId}
    (h : d₁.Renaming d₂ r) (conventions : Conventions) (hook : Hook) :
    convertGraphWith conventions hook g₂ = convertGraphWith conventions hook g₁ := by
  obtain ⟨hc₁, rfl⟩ := (Graph.ofDocument_eq_ok_iff d₁ g₁).1 h₁
  obtain ⟨hc₂, rfl⟩ := (Graph.ofDocument_eq_ok_iff d₂ g₂).1 h₂
  have hanswers := (h.graph hc₁ hc₂).answering .usual .usual
  have hentries : ∀ e ∈ d₁.components, d₁.Reachable e.type := fun e he => .component he
  have hconvert := convertEntriesWith_rename conventions hanswers hook hentries
  rw [← h.components] at hconvert
  exact hconvert

/-- A component with a property of a type that is a branch of itself, and an export that is no
component. -/
def picker : GraphDocument where
  types := [
    { id := ⟨0⟩, flags := TypeFlags.object, signatures := [⟨[⟨1⟩], ⟨2⟩⟩] },
    { id := ⟨1⟩, flags := TypeFlags.object
      properties := [⟨"value", ⟨3⟩, "What is picked."⟩, ⟨"label", ⟨4⟩, ""⟩] },
    { id := ⟨2⟩, flags := TypeFlags.object, symbol := some "Element" },
    { id := ⟨3⟩, flags := TypeFlags.unionType, union := [⟨4⟩, ⟨3⟩] },
    { id := ⟨4⟩, flags := TypeFlags.string }]
  components := [⟨"Picker", ⟨0⟩⟩, ⟨"label", ⟨4⟩⟩]

/-- The same with greater ids, in the opposite order, after a type that is not needed. -/
def renumberedPicker : GraphDocument where
  types := { id := ⟨0⟩ } :: (picker.types.map (TypeNode.rename fun t => ⟨t.value + 7⟩)).reverse
  components := picker.components.map (ComponentEntry.rename fun t => ⟨t.value + 7⟩)

/-- The picker with its old and its new ids. -/
theorem convertGraphWith_renumberedPicker :
    Graph.ofDocument picker = .ok ⟨picker.types, picker.components⟩ ∧
      Graph.ofDocument renumberedPicker =
        .ok ⟨renumberedPicker.types, renumberedPicker.components⟩ ∧
      picker.Renaming renumberedPicker (fun t => ⟨t.value + 7⟩) ∧
      convertGraphWith {} (fun _ view => pure view)
          ⟨renumberedPicker.types, renumberedPicker.components⟩ =
        convertGraphWith {} (fun _ view => pure view) ⟨picker.types, picker.components⟩ := by
  have h₁ : Graph.ofDocument picker = .ok ⟨picker.types, picker.components⟩ := rfl
  have h₂ : Graph.ofDocument renumberedPicker =
      .ok ⟨renumberedPicker.types, renumberedPicker.components⟩ := rfl
  have hr : picker.Renaming renumberedPicker (fun t => ⟨t.value + 7⟩) := by
    refine ⟨?_, ?_, rfl⟩
    · rintro ⟨a⟩ - ⟨b⟩ - he
      simpa using he
    · intro n hn _
      exact List.mem_cons_of_mem _ (List.mem_reverse.2 (List.mem_map_of_mem hn))
  exact ⟨h₁, h₂, hr, convertGraphWith_of_renaming h₁ h₂ hr {} _⟩

end ComponentViews
