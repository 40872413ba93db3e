import ComponentViews.Graph.Rendering
import ComponentViews.Proofs.Graph.Consistency
import Mathlib.Data.Set.Function

/-!
# Renamed types

Ids are handles: they may be exchanged for others as long as different types keep different ids. A
renaming of a graph relates it to another that knows, for some ids closed under references, the
same types under their new ids. What the other graph answers is then what the first one answers,
with the ids renamed; renderings show no ids of types that are known, so they are the same.

Nothing is asked of the other types of either graph, nor of the answers about unknown ids.

## Main definitions

* `Signature.rename`, `PropertySymbol.rename`, `TypeNode.rename`, `ComponentEntry.rename`: data
  with their ids renamed.
* `TypeGraph.references`: all ids in the answers about a type.
* `TypeGraph.Renaming`: a graph that answers like another up to the names of ids.
* `Graph.Renaming`: a graph that knows the types of another under new ids.
* `GraphDocument.Renaming`: a document with the types and exports of another under new ids.

## Main results

* `TypeNode.layout_rename`: the rendering from a structure does not depend on ids.
* `Graph.Renaming.renderWithin`: neither does the rendering of a type.
* `Graph.Renaming.answering`: the answers about types under new ids.
* `GraphDocument.Renaming.graph`: the graph of a document with new ids.
-/

namespace ComponentViews

variable {r : TypeId → TypeId} {S : Set TypeId}

/-! ## Data with their ids renamed -/

/-- A signature with its ids renamed. -/
def Signature.rename (r : TypeId → TypeId) (s : Signature) : Signature :=
  { parameters := s.parameters.map r, returnType := r s.returnType }

/-- A member with its type renamed. -/
def PropertySymbol.rename (r : TypeId → TypeId) (p : PropertySymbol) : PropertySymbol :=
  { p with type := r p.type }

/-- A type with all its ids renamed, its own among them. -/
def TypeNode.rename (r : TypeId → TypeId) (n : TypeNode) : TypeNode :=
  { n with
    id := r n.id
    union := n.union.map r
    intersection := n.intersection.map r
    typeArguments := n.typeArguments.map r
    signatures := n.signatures.map (Signature.rename r)
    properties := n.properties.map (PropertySymbol.rename r) }

/-- An export with its type renamed. -/
def ComponentEntry.rename (r : TypeId → TypeId) (c : ComponentEntry) : ComponentEntry :=
  { c with type := r c.type }

theorem Signature.rename_self (s : Signature) : s.rename (fun t => t) = s := by
  simp [rename]

theorem TypeNode.rename_self (n : TypeNode) : n.rename (fun t => t) = n := by
  have hsignatures : n.signatures.map (Signature.rename fun t => t) = n.signatures :=
    List.map_id'' Signature.rename_self n.signatures
  have hproperties : n.properties.map (PropertySymbol.rename fun t => t) = n.properties :=
    List.map_id'' (fun _ => rfl) n.properties
  simp [rename, hsignatures, hproperties]

theorem ComponentEntry.map_rename_self (entries : List ComponentEntry) :
    entries.map (rename fun t => t) = entries :=
  List.map_id'' (fun _ => rfl) entries

theorem TypeNode.unionTypes_rename (n : TypeNode) :
    (n.rename r).unionTypes = n.unionTypes.map (List.map r) := by
  simp only [unionTypes, rename, ne_eq, List.map_eq_nil_iff]
  split <;> rfl

theorem TypeNode.intersectionTypes_rename (n : TypeNode) :
    (n.rename r).intersectionTypes = n.intersectionTypes.map (List.map r) := by
  simp only [intersectionTypes, rename, ne_eq, List.map_eq_nil_iff]
  split <;> rfl

theorem TypeNode.needsParens_rename (n : TypeNode) :
    (n.rename r).needsParens = n.needsParens := by
  simp [needsParens, rename]

/-! ## Layout -/

section Layout

variable {needsParens newParens : TypeId → Bool} {child newChild : TypeId → String}

/-- Renamed ids have the images that the ids have by a function that agrees with the renaming. -/
theorem map_rename {α : Type} {f f' : TypeId → α} {ts : List TypeId}
    (h : ∀ u ∈ ts, f' (r u) = f u) : (ts.map r).map f' = ts.map f := by
  rw [List.map_map]
  exact List.map_congr_left h

theorem layoutNominal_rename (symbol : String) (ts : List TypeId)
    (hp : ∀ u ∈ ts, newParens (r u) = needsParens u)
    (hc : ∀ u ∈ ts, newChild (r u) = child u) :
    layoutNominal newParens newChild symbol (ts.map r) =
      layoutNominal needsParens child symbol ts := by
  match ts with
  | [] => rfl
  | [element] =>
    have hp := hp element List.mem_cons_self
    have hc := hc element List.mem_cons_self
    simp only [List.map_cons, List.map_nil, layoutNominal, hp, hc]
  | t :: u :: rest =>
    have hmap := map_rename hc
    simp only [List.map_cons] at hmap
    simp only [List.map_cons, layoutNominal, hmap]

theorem layoutParameters_rename (parameters : List TypeId)
    (hc : ∀ u ∈ parameters, newChild (r u) = child u) :
    ((parameters.map r).zipIdx.map fun (p, i) => s!"arg{i}: {newChild p}") =
      parameters.zipIdx.map fun (p, i) => s!"arg{i}: {child p}" := by
  rw [List.zipIdx_map, List.map_map]
  refine List.map_congr_left ?_
  rintro ⟨p, i⟩ hp
  simp only [Function.comp_apply, Prod.map_apply, id_eq, hc p (List.fst_mem_of_mem_zipIdx hp)]

theorem Signature.layout_rename (s : Signature) (hc : ∀ u ∈ s.references, newChild (r u) = child u) :
    (s.rename r).layout newChild = s.layout child := by
  have hparameters := layoutParameters_rename s.parameters fun p hp =>
    hc p (List.mem_append_left _ hp)
  have hreturn : newChild (r s.returnType) = child s.returnType :=
    hc _ (List.mem_append_right _ (List.mem_singleton_self _))
  simp only [layout, rename, hparameters, hreturn]

theorem layoutMembers_rename (members : List PropertySymbol)
    (hc : ∀ u ∈ members.map (·.type), newChild (r u) = child u) :
    layoutMembers newChild (members.map (PropertySymbol.rename r)) =
      layoutMembers child members := by
  have htexts : ((members.map (PropertySymbol.rename r)).map fun p =>
      p.name ++ ": " ++ newChild p.type ++ ";") =
      members.map fun p => p.name ++ ": " ++ child p.type ++ ";" := by
    rw [List.map_map]
    refine List.map_congr_left fun p hp => ?_
    have ht := hc p.type (List.mem_map_of_mem hp)
    simp only [Function.comp_apply, PropertySymbol.rename, ht]
  simp only [layoutMembers, htexts]

/-- The rendering from a structure does not depend on ids, if the renderings of the types in it do
not. -/
theorem TypeNode.layout_rename (n : TypeNode)
    (hp : ∀ u ∈ n.references, newParens (r u) = needsParens u)
    (hc : ∀ u ∈ n.references, newChild (r u) = child u) :
    (n.rename r).layout newParens newChild = n.layout needsParens child := by
  simp only [references, List.mem_append, or_imp, forall_and] at hp hc
  obtain ⟨⟨⟨⟨hunion, hintersection⟩, harguments⟩, hsignatures⟩, hproperties⟩ := hc
  obtain ⟨⟨⟨-, hparens⟩, -⟩, -⟩ := hp
  have hmembers := layoutMembers_rename n.properties hproperties
  simp only [layout, rename, ne_eq, List.map_eq_nil_iff, map_rename hunion,
    map_rename hintersection, layoutNominal_rename _ n.typeArguments hparens harguments, hmembers]
  -- What is left of the structure is the first signature of a type without a name.
  cases n.symbol with
  | some symbol => rfl
  | none =>
    cases hs : n.signatures with
    | nil => rfl
    | cons s rest =>
      have hmem : s ∈ n.signatures := by simp [hs]
      have hlayout := s.layout_rename fun u hu =>
        hsignatures u (List.mem_flatMap.2 ⟨s, hmem, hu⟩)
      simp only [List.map_cons, hlayout]

end Layout

/-! ## Renamings of graphs -/

/-- A graph knows, under new ids, the types that another has for some ids closed under references;
different ones of these ids stay different. -/
structure Graph.Renaming (g₁ g₂ : Graph) (S : Set TypeId) (r : TypeId → TypeId) : Prop where
  injOn : Set.InjOn r S
  node : ∀ t ∈ S, ∃ n, g₁.node? t = some n ∧ g₂.node? (r t) = some (n.rename r) ∧
    ∀ u ∈ n.references, u ∈ S

/-- All ids in the answers about a type. -/
def TypeGraph.references (G : TypeGraph) (t : TypeId) : List TypeId :=
  (G.unionTypes t).getD [] ++ (G.intersectionTypes t).getD [] ++ G.typeArguments t ++
    (G.callSignatures t).flatMap Signature.references ++ (G.properties t).map (·.type)

/-- For some ids closed under references, a graph answers about the new ids as another about the
old ones; different ones of these ids stay different. -/
structure TypeGraph.Renaming (G H : TypeGraph) (S : Set TypeId) (r : TypeId → TypeId) : Prop where
  injOn : Set.InjOn r S
  closed : ∀ t ∈ S, ∀ u ∈ G.references t, u ∈ S
  flags : ∀ t ∈ S, H.flags (r t) = G.flags t
  render : ∀ t ∈ S, H.render (r t) = G.render t
  symbolName : ∀ t ∈ S, H.symbolName (r t) = G.symbolName t
  unionTypes : ∀ t ∈ S, H.unionTypes (r t) = (G.unionTypes t).map (List.map r)
  intersectionTypes : ∀ t ∈ S,
    H.intersectionTypes (r t) = (G.intersectionTypes t).map (List.map r)
  typeArguments : ∀ t ∈ S, H.typeArguments (r t) = (G.typeArguments t).map r
  callSignatures : ∀ t ∈ S,
    H.callSignatures (r t) = (G.callSignatures t).map (Signature.rename r)
  properties : ∀ t ∈ S, H.properties (r t) = (G.properties t).map (PropertySymbol.rename r)

/-- The ids in the answers about a type that is known are the references of the type. -/
theorem Graph.references_of_node? {g : Graph} {t : TypeId} {n : TypeNode}
    (h : g.node? t = some n) (f : Fallback) : (g.answering f).references t = n.references := by
  simp only [TypeGraph.references, answering, unionTypes, intersectionTypes, typeArguments,
    callSignatures, properties, answer_of_node? h, TypeNode.getD_unionTypes,
    TypeNode.getD_intersectionTypes, TypeNode.references]

namespace Graph.Renaming

variable {g₁ g₂ : Graph}

/-- The answer to a question is renamed if it is for every type. -/
theorem answer {α : Type} (h : Renaming g₁ g₂ S r) (question : TypeNode → α) (rename : α → α)
    (hq : ∀ n : TypeNode, question (n.rename r) = rename (question n)) (a b : α) {t : TypeId}
    (ht : t ∈ S) : g₂.answer (r t) question b = rename (g₁.answer t question a) := by
  obtain ⟨n, h₁, h₂, -⟩ := h.node t ht
  rw [answer_of_node? h₁, answer_of_node? h₂, hq]

/-- Types are rendered alike under their new ids, at any depth. -/
theorem renderWithin (h : Renaming g₁ g₂ S r) (f₁ f₂ : Fallback) (room : Nat) {t : TypeId}
    (ht : t ∈ S) : g₂.renderWithin f₂ room (r t) = g₁.renderWithin f₁ room t := by
  induction room generalizing t with
  | zero =>
    obtain ⟨n, h₁, h₂, -⟩ := h.node t ht
    cases hd : n.display with
    | some display => rw [renderWithin_of_display h₁ hd, renderWithin_of_display h₂ hd]
    | none => rw [renderWithin_zero h₁ hd, renderWithin_zero h₂ hd]
  | succ room ih =>
    obtain ⟨n, h₁, h₂, hS⟩ := h.node t ht
    cases hd : n.display with
    | some display => rw [renderWithin_of_display h₁ hd, renderWithin_of_display h₂ hd]
    | none =>
      rw [renderWithin_succ h₁ hd, renderWithin_succ h₂ hd]
      have hparens : ∀ u ∈ n.references, g₂.needsParens f₂ (r u) = g₁.needsParens f₁ u :=
        fun u hu => h.answer TypeNode.needsParens id TypeNode.needsParens_rename _ _ (hS u hu)
      exact n.layout_rename hparens fun u hu => ih (hS u hu)

/-- The answers about types under their new ids. -/
theorem answering (h : Renaming g₁ g₂ S r) (f₁ f₂ : Fallback) :
    (g₁.answering f₁).Renaming (g₂.answering f₂) S r where
  injOn := h.injOn
  closed t ht u hu := by
    obtain ⟨n, h₁, -, hS⟩ := h.node t ht
    rw [references_of_node? h₁] at hu
    exact hS u hu
  flags t := h.answer (·.flags) id (fun _ => rfl) _ _
  render t := h.renderWithin f₁ f₂ maxRenderDepth
  symbolName t := h.answer (·.symbol) id (fun _ => rfl) _ _
  unionTypes t := h.answer _ _ TypeNode.unionTypes_rename _ _
  intersectionTypes t := h.answer _ _ TypeNode.intersectionTypes_rename _ _
  typeArguments t := h.answer (·.typeArguments) (List.map r) (fun _ => rfl) _ _
  callSignatures t := h.answer (·.signatures) (List.map (Signature.rename r)) (fun _ => rfl) _ _
  properties t := h.answer (·.properties) (List.map (PropertySymbol.rename r)) (fun _ => rfl) _ _

end Graph.Renaming

/-! ## Renamings of documents -/

/-- A document has the exports of another under new ids, and among its types those that can be
reached from them; different ids that can be reached stay different. -/
structure GraphDocument.Renaming (d₁ d₂ : GraphDocument) (r : TypeId → TypeId) : Prop where
  injOn : Set.InjOn r {t | d₁.Reachable t}
  types : ∀ n ∈ d₁.types, d₁.Reachable n.id → n.rename r ∈ d₂.types
  components : d₂.components = d₁.components.map (ComponentEntry.rename r)

/-- Graphs know the types that can be reached under the new ids of a document. -/
theorem GraphDocument.Renaming.graph {d₁ d₂ : GraphDocument} (h : d₁.Renaming d₂ r)
    (h₁ : d₁.Consistent) (h₂ : d₂.Consistent) :
    Graph.Renaming ⟨d₁.types, d₁.components⟩ ⟨d₂.types, d₂.components⟩
      {t | d₁.Reachable t} r where
  injOn := h.injOn
  node t ht := by
    obtain ⟨n, hn, rfl⟩ := List.mem_map.1 (h₁.mem_of_reachable ht)
    refine ⟨n, ?_, ?_, fun u hu => .reference hn ht hu⟩
    · exact Graph.node?_of_mem (g := ⟨d₁.types, d₁.components⟩) h₁.nodup hn
    · exact Graph.node?_of_mem (g := ⟨d₂.types, d₂.components⟩) h₂.nodup (h.types n hn ht)

end ComponentViews
