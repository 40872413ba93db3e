import ComponentViews.Proofs.Fields
import ComponentViews.Registry

/-!
# What registries hold

What a registry finds is determined by its graphs: the exports of all of them, in the order in which
they were loaded, sorted by their folded names. Every way to add graphs keeps it so, and none leaves
fewer names than there were.

## Main definitions

* `exportsOf`, `locationsOf`: the exports of some graphs, and where they are found.
* `Registry.Indexed`: a registry finds what the exports of its graphs determine.
* `Registry.addAll`: a registry with more graphs.

## Main results

* `indexed_addAll`, `graphs_addAll`, `length_le_length_addAll`: what adding graphs does.
* `value_absorb`: of the graphs found in a directory those that can be loaded are added.
-/

namespace ComponentViews

/-- The exports of some graphs, in the order of the graphs. -/
def exportsOf (graphs : List LoadedGraph) : List ComponentEntry :=
  graphs.flatMap (·.graph.components)

/-- Where an export of the graph with a number is found. -/
def ComponentEntry.location (graphIndex : Nat) (e : ComponentEntry) : ComponentLocation :=
  { name := e.name, graphIndex, type := e.type }

/-- Where the exports of some graphs are found. -/
def locationsOf (graphs : List LoadedGraph) : List ComponentLocation :=
  graphs.zipIdx.flatMap fun (loaded, i) => loaded.graph.components.map (·.location i)

@[simp] theorem exportsOf_nil : exportsOf [] = [] := rfl

@[simp] theorem exportsOf_concat (graphs : List LoadedGraph) (loaded : LoadedGraph) :
    exportsOf (graphs ++ [loaded]) = exportsOf graphs ++ loaded.graph.components := by
  simp [exportsOf]

theorem locationsOf_concat (graphs : List LoadedGraph) (loaded : LoadedGraph) :
    locationsOf (graphs ++ [loaded]) =
      locationsOf graphs ++ loaded.graph.components.map (·.location graphs.length) := by
  simp [locationsOf, List.zipIdx_append]

/-- The graphs that could be loaded. -/
def loadable (found : List (String × Except GraphError Graph)) : List LoadedGraph :=
  found.filterMap fun
    | (path, .ok graph) => some ⟨path, graph⟩
    | (_, .error _) => none

namespace Registry

variable {fold : String → String} {r : Registry}

/-- A registry finds what the exports of its graphs determine. -/
def Indexed (fold : String → String) (r : Registry) : Prop :=
  r.components = sortFields ((locationsOf r.graphs).map fun l => (fold l.name, l))

theorem indexed_empty (fold : String → String) : Indexed fold {} := rfl

/-! ## One more graph -/

theorem value_register (r : Registry) (path : String) (entry : ComponentEntry)
    (fold : String → String) :
    (r.register path entry fold).value = { r with
      components :=
        insertField (fold entry.name) (entry.location (r.graphs.length - 1)) r.components } := by
  unfold register
  dsimp only
  split <;> rfl

theorem value_registerAll (r : Registry) (path : String) (entries : List ComponentEntry)
    (fold : String → String) :
    (r.registerAll path entries fold).value = { r with
      components := entries.foldl (fun sorted e =>
        insertField (fold e.name) (e.location (r.graphs.length - 1)) sorted) r.components } := by
  induction entries generalizing r with
  | nil => rfl
  | cons entry entries ih => rw [registerAll, Logged.value_bind, ih, value_register, List.foldl_cons]

/-- A registry with one more graph. -/
def add (fold : String → String) (r : Registry) (loaded : LoadedGraph) : Registry where
  graphs := r.graphs ++ [loaded]
  components := loaded.graph.components.foldl (fun sorted e =>
    insertField (fold e.name) (e.location r.graphs.length) sorted) r.components

theorem value_insert (r : Registry) (path : String) (graph : Graph) (fold : String → String) :
    (r.insert path graph fold).value =
      ((r.add fold ⟨path, graph⟩).components.length - r.components.length,
        r.add fold ⟨path, graph⟩) := by
  have hadded := value_registerAll { r with graphs := r.graphs ++ [⟨path, graph⟩] } path
    graph.components fold
  rw [List.length_append, List.length_singleton, Nat.add_sub_cancel] at hadded
  rw [insert, Logged.value_bind, hadded]
  rfl

theorem indexed_add (h : Indexed fold r) (loaded : LoadedGraph) :
    Indexed fold (r.add fold loaded) := by
  have hfields : ∀ (entries : List ComponentEntry) (fields : List (String × ComponentLocation)),
      entries.foldl (fun sorted e =>
        insertField (fold e.name) (e.location r.graphs.length) sorted) (sortFields fields) =
      sortFields (fields ++
        (entries.map (·.location r.graphs.length)).map fun l => (fold l.name, l)) := by
    intro entries fields
    rw [sortFields, sortFields, List.foldl_append, List.foldl_map, List.foldl_map]
    rfl
  unfold Indexed add
  rw [h, hfields, locationsOf_concat, List.map_append]

/-- No graph takes a name away, so the names that can be found only now can be counted. -/
theorem length_le_length_add (fold : String → String) (r : Registry) (loaded : LoadedGraph) :
    r.components.length ≤ (r.add fold loaded).components.length := by
  unfold add
  dsimp only
  generalize r.components = fields
  induction loaded.graph.components generalizing fields with
  | nil => exact Nat.le_refl _
  | cons entry entries ih =>
    rw [List.foldl_cons]
    exact Nat.le_trans (length_le_length_insertField _ _ fields) (ih _)

/-! ## More graphs -/

/-- A registry with more graphs, added in their order. -/
def addAll (fold : String → String) (r : Registry) (graphs : List LoadedGraph) : Registry :=
  graphs.foldl (add fold) r

theorem addAll_cons (fold : String → String) (r : Registry) (loaded : LoadedGraph)
    (graphs : List LoadedGraph) :
    r.addAll fold (loaded :: graphs) = (r.add fold loaded).addAll fold graphs := rfl

theorem addAll_append (fold : String → String) (r : Registry) (graphs later : List LoadedGraph) :
    r.addAll fold (graphs ++ later) = (r.addAll fold graphs).addAll fold later :=
  List.foldl_append

theorem graphs_addAll (fold : String → String) (r : Registry) (graphs : List LoadedGraph) :
    (r.addAll fold graphs).graphs = r.graphs ++ graphs := by
  induction graphs generalizing r with
  | nil => exact (List.append_nil _).symm
  | cons loaded graphs ih =>
    rw [addAll_cons, ih, add, List.append_assoc, List.singleton_append]

theorem indexed_addAll (h : Indexed fold r) (graphs : List LoadedGraph) :
    Indexed fold (r.addAll fold graphs) := by
  induction graphs generalizing r with
  | nil => exact h
  | cons loaded graphs ih => exact ih (indexed_add h loaded)

theorem length_le_length_addAll (fold : String → String) (r : Registry)
    (graphs : List LoadedGraph) :
    r.components.length ≤ (r.addAll fold graphs).components.length := by
  induction graphs generalizing r with
  | nil => exact Nat.le_refl _
  | cons loaded graphs ih => exact Nat.le_trans (length_le_length_add fold r loaded) (ih _)

/-- Of the graphs found in a directory those that can be loaded are added, and the names that can be
found only then are counted. -/
theorem value_absorb (r : Registry) (found : List (String × Except GraphError Graph))
    (fold : String → String) :
    (r.absorb found fold).value =
      ((r.addAll fold (loadable found)).components.length - r.components.length,
        r.addAll fold (loadable found)) := by
  induction found generalizing r with
  | nil => exact Prod.ext (Nat.sub_self _).symm rfl
  | cons x found ih =>
    match x with
    | (path, .ok graph) =>
      have hloadable : loadable ((path, .ok graph) :: found) = ⟨path, graph⟩ :: loadable found :=
        rfl
      -- That registries only grow is what lets truncated differences be added up.
      have hfirst := length_le_length_add fold r ⟨path, graph⟩
      have hrest := length_le_length_addAll fold (r.add fold ⟨path, graph⟩) (loadable found)
      simp only [absorb, Logged.value_bind, Logged.value_pure, value_insert, ih, hloadable,
        addAll_cons]
      refine Prod.ext ?_ rfl
      dsimp only
      omega
    | (path, .error e) =>
      rw [absorb, Logged.value_bind, ih]
      rfl

end Registry

end ComponentViews
