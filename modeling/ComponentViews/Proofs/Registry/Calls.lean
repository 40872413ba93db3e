import ComponentViews.Proofs.Graph.Consistency
import ComponentViews.Proofs.Registry.Resolution

/-!
# Registries after calls

A registry changes by calls that load graphs from files and directories. A call either fails and
leaves the registry as it is, or adds the graphs that it found and could load, and counts the names
that can be found only then. So a registry after any calls holds the graphs of those that did not
fail, in their order, and finds what they determine.

## Main definitions

* `LoadingCall`, `LoadingCall.perform`: calls, and what they do to a registry.
* `LoadingCall.found`, `foundAll`: the graphs that calls find and can load.
* `Registry.performAll`: calls one after the other.
* `Registry.Performed`: what a call can do.

## Main results

* `performs_perform`: what a call does is one of these.
* `registry_performAll`, `totalCount_performAll`: what calls one after the other do.
* `resolves_of_calls`: what is found after any calls.
-/

namespace ComponentViews

/-- A call that adds graphs to a registry. -/
inductive LoadingCall where
  /-- Load the graph in a file, or the graphs in a directory. -/
  | load (path : String)
  /-- Load the graph in a file. -/
  | loadFile (path : String)
  /-- Load the graphs in a directory. -/
  | scan (path : String)
  deriving DecidableEq, Repr

section Calls

variable {m : Type → Type} [Monad m] [Host m]

/-- Perform a call on a registry. -/
def LoadingCall.perform (fold : String → String) (r : Registry) :
    LoadingCall → m Registry.Loading
  | .load path => r.load path fold
  | .loadFile path => r.loadFile path fold
  | .scan path => r.scan path fold

/-- The graph in a file, if it can be loaded. -/
def foundInFile (path : String) : m (List LoadedGraph) := do
  let graph ← Graph.ofFile path
  pure (loadable [(path, graph)])

/-- The graphs below a path that can be loaded, in the order of their paths. -/
def foundBelow (path : String) : m (List LoadedGraph) := do
  if ← Host.isThere path then
    let listing ← Host.listing path
    let found ← Graph.ofFiles (graphPaths listing)
    pure (loadable found)
  else pure []

/-- The graphs that a call finds and can load, in their order. -/
def LoadingCall.found : LoadingCall → m (List LoadedGraph)
  | .load path => do if ← Host.isDirectory path then foundBelow path else foundInFile path
  | .loadFile path => foundInFile path
  | .scan path => foundBelow path

/-- The graphs that calls find one after the other and can load, in their order. -/
def foundAll : List LoadingCall → m (List LoadedGraph)
  | [] => pure []
  | call :: calls => do
    let graphs ← call.found
    let later ← foundAll calls
    pure (graphs ++ later)

/-- Perform calls one after the other, each on the registry that the one before left: their outcomes
and the registry at the end. -/
def Registry.performAll (fold : String → String) (r : Registry) :
    List LoadingCall → m (List (Except RegistryError Nat) × Registry)
  | [] => pure ([], r)
  | call :: calls => do
    let loading ← call.perform fold r
    let (outcomes, last) ← Registry.performAll fold loading.value.2 calls
    pure (loading.value.1 :: outcomes, last)

end Calls

/-- What the calls that did not fail have counted, added up. -/
def totalCount : List (Except RegistryError Nat) → Nat
  | [] => 0
  | .ok count :: outcomes => count + totalCount outcomes
  | .error _ :: outcomes => totalCount outcomes

/-! ## Graphs that are found -/

section Found

variable {σ α β : Type}

/-- What is done first leaves the state on which the rest is done. -/
theorem run_bind_eq (x : StateM σ α) (f : α → StateM σ β) (s : σ) :
    (x >>= f).run s = (f (x.run s).1).run (x.run s).2 := rfl

variable [Host (StateM σ)]

/-- A graph of a text is that of a document. -/
theorem exists_document_of_ofText {format : DocumentFormat} {text : String} {g : Graph}
    (h : Graph.ofText format text = .ok g) : ∃ d, Graph.ofDocument d = .ok g := by
  unfold Graph.ofText at h
  cases hd : GraphDocument.ofText format text with
  | error e =>
    rw [hd] at h
    cases h
  | ok d =>
    rw [hd] at h
    exact ⟨d, h⟩

theorem exists_document_of_ofFile {path : String} {s : σ} {g : Graph}
    (h : ((Graph.ofFile path : StateM σ _).run s).1 = .ok g) : ∃ d, Graph.ofDocument d = .ok g := by
  unfold Graph.ofFile at h
  split at h
  · cases h
  · rw [run_bind_eq] at h
    cases hread : ((Host.read path : StateM σ _).run s).1 with
    | ok text =>
      rw [hread] at h
      exact exists_document_of_ofText h
    | error e =>
      rw [hread] at h
      cases h

theorem exists_document_of_ofFiles {paths : List String} {s : σ} {path : String} {g : Graph}
    (h : (path, .ok g) ∈ ((Graph.ofFiles paths : StateM σ _).run s).1) :
    ∃ d, Graph.ofDocument d = .ok g := by
  unfold Graph.ofFiles at h
  induction paths generalizing s with
  | nil => cases h
  | cons first paths ih =>
    rw [List.mapM_cons, run_bind_eq, run_bind_eq] at h
    rcases List.mem_cons.1 h with hfirst | hrest
    · exact exists_document_of_ofFile (Prod.ext_iff.1 hfirst).2.symm
    · exact ih hrest

/-- The graphs that could be loaded from files are those of documents. -/
theorem exists_document_of_mem_loadable {found : List (String × Except GraphError Graph)}
    (hfound : ∀ path g, (path, .ok g) ∈ found → ∃ d, Graph.ofDocument d = .ok g)
    {loaded : LoadedGraph} (h : loaded ∈ loadable found) :
    ∃ d, Graph.ofDocument d = .ok loaded.graph := by
  obtain ⟨⟨path, outcome⟩, hmem, hloaded⟩ := List.mem_filterMap.1 h
  cases outcome with
  | ok g =>
    obtain rfl := Option.some.inj hloaded
    exact hfound path g hmem
  | error e => cases hloaded

theorem exists_document_of_mem_foundInFile {path : String} {s : σ} {loaded : LoadedGraph}
    (h : loaded ∈ ((foundInFile path : StateM σ _).run s).1) :
    ∃ d, Graph.ofDocument d = .ok loaded.graph := by
  refine exists_document_of_mem_loadable (fun path' g hmem => ?_) h
  exact exists_document_of_ofFile (Prod.ext_iff.1 (List.mem_singleton.1 hmem)).2.symm

theorem exists_document_of_mem_foundBelow {path : String} {s : σ} {loaded : LoadedGraph}
    (h : loaded ∈ ((foundBelow path : StateM σ _).run s).1) :
    ∃ d, Graph.ofDocument d = .ok loaded.graph := by
  unfold foundBelow at h
  rw [run_bind_eq] at h
  split at h
  · exact exists_document_of_mem_loadable (fun _ _ hmem => exists_document_of_ofFiles hmem) h
  · cases h

/-- The graphs that a call finds are those of documents. -/
theorem exists_document_of_mem_found {call : LoadingCall} {s : σ} {loaded : LoadedGraph}
    (h : loaded ∈ ((call.found : StateM σ _).run s).1) :
    ∃ d, Graph.ofDocument d = .ok loaded.graph := by
  cases call with
  | loadFile path => exact exists_document_of_mem_foundInFile h
  | scan path => exact exists_document_of_mem_foundBelow h
  | load path =>
    unfold LoadingCall.found at h
    rw [run_bind_eq] at h
    split at h
    · exact exists_document_of_mem_foundBelow h
    · exact exists_document_of_mem_foundInFile h

theorem exists_document_of_mem_foundAll {calls : List LoadingCall} {s : σ} {loaded : LoadedGraph}
    (h : loaded ∈ ((foundAll calls : StateM σ _).run s).1) :
    ∃ d, Graph.ofDocument d = .ok loaded.graph := by
  induction calls generalizing s with
  | nil => cases h
  | cons call calls ih =>
    rcases List.mem_append.1 h with hfirst | hlater
    · exact exists_document_of_mem_found hfirst
    · exact ih hlater

end Found

/-! ## What calls do -/

namespace Registry

section Runs

variable {σ : Type} [Host (StateM σ)] {fold : String → String} {r : Registry}
  {graphs : List LoadedGraph}

/-- What a call can do with the graphs that it found and could load: fail without any and leave the
registry as it is, or add them and count the names that can be found only then. -/
inductive Performed (fold : String → String) (r : Registry) (graphs : List LoadedGraph) :
    Except RegistryError Nat × Registry → Prop
  | failed (e : RegistryError) (h : graphs = []) : Performed fold r graphs (.error e, r)
  | added : Performed fold r graphs
      (.ok ((r.addAll fold graphs).components.length - r.components.length),
        r.addAll fold graphs)

/-- A call does one of these with the graphs that it finds, and leaves the host where it was left by
finding them. -/
def Performs (fold : String → String) (r : Registry) (found : StateM σ (List LoadedGraph))
    (x : StateM σ Loading) (s : σ) : Prop :=
  Performed fold r (found.run s).1 (x.run s).1.value ∧ (x.run s).2 = (found.run s).2

/-- Graphs are added with a count of the names that can be found only then. -/
theorem Performed.of_value {x : Logged (Nat × Registry)}
    (hx : x.value = ((r.addAll fold graphs).components.length - r.components.length,
      r.addAll fold graphs)) :
    Performed fold r graphs (do
      let (count, r) ← x
      pure (.ok count, r) : Loading).value := by
  rw [Logged.value_bind, hx]
  exact .added

theorem performs_loadFile (fold : String → String) (r : Registry) (path : String) (s : σ) :
    Performs fold r (foundInFile path) (r.loadFile path fold) s := by
  unfold Performs foundInFile loadFile
  rw [run_bind_eq, run_bind_eq]
  cases ((Graph.ofFile path : StateM σ _).run s).1 with
  | ok graph => exact ⟨.of_value (value_insert r path graph fold), rfl⟩
  | error e => exact ⟨.failed _ rfl, rfl⟩

theorem performs_scan (fold : String → String) (r : Registry) (path : String) (s : σ) :
    Performs fold r (foundBelow path) (r.scan path fold) s := by
  unfold Performs foundBelow scan
  rw [run_bind_eq, run_bind_eq]
  split
  · exact ⟨.of_value (value_absorb r _ fold), rfl⟩
  · exact ⟨.failed _ rfl, rfl⟩

theorem performs_perform (fold : String → String) (r : Registry) (call : LoadingCall) (s : σ) :
    Performs fold r call.found (call.perform fold r) s := by
  cases call with
  | loadFile path => exact performs_loadFile fold r path s
  | scan path => exact performs_scan fold r path s
  | load path =>
    unfold Performs LoadingCall.found LoadingCall.perform load
    rw [run_bind_eq, run_bind_eq]
    split
    · exact performs_scan fold r path _
    · exact performs_loadFile fold r path _

/-- Whatever a call does, the registry then holds the graphs that it found. -/
theorem Performed.registry_eq {result : Except RegistryError Nat × Registry}
    (h : Performed fold r graphs result) : result.2 = r.addAll fold graphs := by
  cases h with
  | failed e h => rw [h]; rfl
  | added => rfl

/-- A call that fails leaves the registry as it is. -/
theorem Performed.of_error {result : Except RegistryError Nat × Registry}
    (h : Performed fold r graphs result) {e : RegistryError} (he : result.1 = .error e) :
    result.2 = r := by
  cases h with
  | failed => rfl
  | added => cases he

/-- A call that does not fail counts the names that can be found only then. -/
theorem Performed.totalCount_add {result : Except RegistryError Nat × Registry}
    (h : Performed fold r graphs result) (later : List (Except RegistryError Nat)) :
    totalCount (result.1 :: later) + r.components.length =
      totalCount later + result.2.components.length := by
  cases h with
  | failed e h => rfl
  | added =>
    have hgrown := length_le_length_addAll fold r graphs
    simp only [totalCount]
    omega

theorem performAll_cons (fold : String → String) (r : Registry) (call : LoadingCall)
    (calls : List LoadingCall) (s : σ) :
    ((r.performAll fold (call :: calls) : StateM σ _).run s).1 =
      let loading := (call.perform fold r : StateM σ Loading).run s
      let rest := ((loading.1.value.2.performAll fold calls : StateM σ _).run loading.2).1
      (loading.1.value.1 :: rest.1, rest.2) := rfl

/-- Calls add the graphs that they find, one call after the other. -/
theorem registry_performAll (fold : String → String) (r : Registry) (calls : List LoadingCall)
    (s : σ) :
    ((r.performAll fold calls : StateM σ _).run s).1.2 =
      r.addAll fold ((foundAll calls : StateM σ _).run s).1 := by
  induction calls generalizing r s with
  | nil => rfl
  | cons call calls ih =>
    obtain ⟨hperformed, hstate⟩ := performs_perform fold r call s
    have hfound : ((foundAll (call :: calls) : StateM σ _).run s).1 =
        ((call.found : StateM σ _).run s).1 ++
          ((foundAll calls : StateM σ _).run ((call.found : StateM σ _).run s).2).1 := rfl
    rw [performAll_cons, hfound, addAll_append]
    dsimp only
    rw [ih, hstate, hperformed.registry_eq]

/-- All names that can be found have been counted by some call. -/
theorem totalCount_performAll (fold : String → String) (r : Registry) (calls : List LoadingCall)
    (s : σ) :
    let run := ((r.performAll fold calls : StateM σ _).run s).1
    totalCount run.1 + r.components.length = run.2.components.length := by
  induction calls generalizing r s with
  | nil => exact Nat.zero_add _
  | cons call calls ih =>
    have hfirst := (performs_perform fold r call s).1
    have hrest := ih (((call.perform fold r : StateM σ Loading).run s).1.value.2)
      ((call.perform fold r : StateM σ Loading).run s).2
    rw [performAll_cons]
    dsimp only at hrest ⊢
    rw [hfirst.totalCount_add, hrest]

/-- What is left after calls on a new registry finds what the graphs determine. -/
theorem indexed_performAll (fold : String → String) (calls : List LoadingCall) (s : σ) :
    (((performAll fold {} calls : StateM σ _).run s).1.2).Indexed fold := by
  rw [registry_performAll]
  exact indexed_addAll (indexed_empty fold) _

theorem graphs_performAll (fold : String → String) (calls : List LoadingCall) (s : σ) :
    (((performAll fold {} calls : StateM σ _).run s).1.2).graphs =
      ((foundAll calls : StateM σ _).run s).1 := by
  rw [registry_performAll, graphs_addAll, List.nil_append]

/-- What is found is in one of the graphs, and its type is one of that graph. -/
theorem exists_graph_of_find? {n : String} {l : ComponentLocation} (h : Indexed fold r)
    (hdocuments : ∀ loaded ∈ r.graphs, ∃ d, Graph.ofDocument d = .ok loaded.graph)
    (hl : r.find? n fold = some l) :
    ∃ loaded, r.graphs[l.graphIndex]? = some loaded ∧ l.type ∈ loaded.graph.ids := by
  obtain ⟨earlier, loaded, before, entry, after, hlast, rfl⟩ :=
    (h.resolves.find?_eq_some_iff n l).1 hl
  obtain ⟨later, hgraphs, -⟩ := hlast.not_later
  obtain ⟨d, hd⟩ := hdocuments loaded (hgraphs ▸ by simp)
  obtain ⟨hconsistent, hgraph⟩ := (Graph.ofDocument_eq_ok_iff d loaded.graph).1 hd
  have hentry : entry ∈ loaded.graph.components := hlast.components ▸ by simp
  refine ⟨loaded, by simp [hgraphs], ?_⟩
  rw [hgraph] at hentry ⊢
  exact hconsistent.components entry hentry

/-- After any calls on a new registry, it holds the graphs that were loaded, in their order. A name
leads to the last export with the folded name, in one of the graphs and with a type of that graph;
the names are in order, one for each folded name, and the calls have counted all of them. No graph
that is added takes a name away from a registry, and no call that fails changes one. -/
theorem resolves_of_calls (fold : String → String) (calls : List LoadingCall) (s : σ) :
    let run := ((performAll fold {} calls : StateM σ _).run s).1
    let r := run.2
    r.graphs = ((foundAll calls : StateM σ _).run s).1 ∧
      Resolves fold r ∧
      (∀ n l, r.find? n fold = some l →
        ∃ loaded, r.graphs[l.graphIndex]? = some loaded ∧ l.type ∈ loaded.graph.ids) ∧
      totalCount run.1 = r.names.length ∧
      (∀ (before : Registry) (path : String) (graph : Graph),
        let added := (before.insert path graph fold).value.2
        before.components.length ≤ added.components.length) ∧
      ∀ (before : Registry) (call : LoadingCall) (s' : σ) (e : RegistryError),
        let loading := ((call.perform fold before : StateM σ Loading).run s').1.value
        loading.1 = .error e → loading.2 = before := by
  intro run r
  -- Each invariant holds of an empty registry and is preserved by a call.
  have hindexed : Indexed fold r := indexed_performAll fold calls s
  have hgraphs : r.graphs = ((foundAll calls : StateM σ _).run s).1 :=
    graphs_performAll fold calls s
  have hcounts : totalCount run.1 + 0 = r.components.length :=
    totalCount_performAll fold {} calls s
  refine ⟨hgraphs, hindexed.resolves, fun n l => ?_, ?_, ?_, ?_⟩
  · refine exists_graph_of_find? hindexed fun loaded hloaded => ?_
    exact exists_document_of_mem_foundAll (hgraphs ▸ hloaded)
  · rw [length_names, ← hcounts, Nat.add_zero]
  · intro before path graph
    rw [value_insert]
    exact length_le_length_add fold before _
  · intro before call s' e loading he
    exact (performs_perform fold before call s').1.of_error he

end Runs

end Registry

end ComponentViews
