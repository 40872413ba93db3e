import ComponentViews.Command.Conversions
import ComponentViews.Files.Tree
import ComponentViews.Proofs.Command.Results
import ComponentViews.Proofs.Files.Order
import ComponentViews.Proofs.Registry.Calls

/-!
# Scanning directories

While nothing changes on a host, what a scan does is determined by the graphs that can be loaded
from files of the directory: they are added in the order of their paths, as if each file were loaded
on its own and failures were passed over. The order in which the directory is listed makes no
difference, and neither do files that cannot be loaded.

## Main definitions

* `FileView`, `FileView.ShownIn`: what can be seen of files, and hosts that show it.
* `FileView.graph`, `FileView.Loads`: the graphs in files and below a directory.
* `GraphPathsOf`: the paths of graph documents in a listing, in order.

## Main results

* `graphPaths_eq`: there is only one such order, whatever the order of the listing.
* `run_scan`: what a scan does is determined by what can be seen.
* `loadable_found_eq`: it is determined by the graphs that can be loaded.
* `scan_of_views`: listings in other orders and files that cannot be loaded make no difference.
-/

namespace ComponentViews

/-! ## Paths of graph documents -/

/-- Some paths are those of graph documents in a listing, in ascending order. -/
structure GraphPathsOf (listing paths : List String) : Prop where
  perm : paths.Perm (listing.filter fun p => (graphFormat? p).isSome)
  ascending : AscendingPaths paths

theorem graphPathsOf_graphPaths (listing : List String) :
    GraphPathsOf listing (graphPaths listing) where
  perm := List.mergeSort_perm _ _
  ascending := ascending_mergeSort _

theorem mem_graphPaths {listing : List String} {p : String} :
    p ∈ graphPaths listing ↔ p ∈ listing ∧ (graphFormat? p).isSome := by
  rw [(graphPathsOf_graphPaths listing).perm.mem_iff, List.mem_filter]

/-- There is only one order for the paths of graph documents. -/
theorem graphPaths_eq {listing paths : List String} (hdistinct : DistinctPaths listing)
    (h : GraphPathsOf listing paths) : graphPaths listing = paths := by
  have hsorted := graphPathsOf_graphPaths listing
  refine eq_of_perm_of_ascending id hdistinct (fun x _ y _ hxy => hxy) ?_ ?_ ?_ ?_
    (hsorted.perm.trans h.perm.symm)
  · exact fun p hp => (mem_graphPaths.1 hp).1
  · exact fun p hp => (List.mem_filter.1 (h.perm.mem_iff.1 hp)).1
  · simpa using hsorted.ascending
  · simpa using h.ascending

/-! ## What can be seen of files -/

/-- What can be seen of files while nothing changes. -/
structure FileView where
  /-- Whether there is something at a path. -/
  isThere : String → Bool
  /-- Whether there is a directory at a path. -/
  isDirectory : String → Bool
  /-- The text of the file at a path. -/
  read : String → Except FileError String
  /-- The path and those of all that is inside. -/
  listing : String → List String

/-- What can be seen of the files of a tree. -/
def FileTree.view (t : FileTree) : FileView where
  isThere := t.isThere
  isDirectory := t.isDirectory
  read := t.read
  listing := t.listing

namespace FileView

/-- The graph in the file at a path. -/
def graph (v : FileView) (path : String) : Except GraphError Graph :=
  match graphFormat? path with
  | none => .error (.unsupportedFormat path)
  | some format =>
    match v.read path with
    | .ok text => Graph.ofText format text
    | .error e => .error (.unreadable path e.message)

/-- A graph can be loaded from the file at a path, which is in a directory or below. -/
def Loads (v : FileView) (directory path : String) (g : Graph) : Prop :=
  path ∈ v.listing directory ∧ v.graph path = .ok g

/-- What is found in the files of graph documents in a directory and below, in the order of their
paths. -/
def found (v : FileView) (directory : String) : List (String × Except GraphError Graph) :=
  (graphPaths (v.listing directory)).map fun p => (p, v.graph p)

theorem isSome_graphFormat?_of_graph {v : FileView} {path : String} {g : Graph}
    (h : v.graph path = .ok g) : (graphFormat? path).isSome := by
  unfold graph at h
  split at h
  · cases h
  · rename_i format hformat
    rw [hformat]
    rfl

theorem graph_eq_of_read_eq {v₁ v₂ : FileView} {path : String} (h : v₁.read path = v₂.read path) :
    v₁.graph path = v₂.graph path := by
  unfold graph
  rw [h]

end FileView

/-! ## Graphs that can be loaded -/

section Loadable

variable {v : FileView} {paths : List String}

theorem loadable_cons (x : String × Except GraphError Graph)
    (found : List (String × Except GraphError Graph)) :
    loadable (x :: found) = loadable [x] ++ loadable found := by
  obtain ⟨path, graph | graph⟩ := x <;> rfl

/-- No path is added and none moved where graphs that cannot be loaded are left out. -/
theorem paths_loadable_sublist (found : List (String × Except GraphError Graph)) :
    ((loadable found).map (·.path)).Sublist (found.map (·.1)) := by
  induction found with
  | nil => exact List.Sublist.refl _
  | cons x found ih =>
    obtain ⟨path, e | graph⟩ := x
    · exact ih.cons path
    · exact ih.cons_cons path

theorem mem_loadable_iff {found : List (String × Except GraphError Graph)} {loaded : LoadedGraph} :
    loaded ∈ loadable found ↔ (loaded.path, .ok loaded.graph) ∈ found := by
  rw [loadable, List.mem_filterMap]
  constructor
  · rintro ⟨⟨path, e | g⟩, hx, hl⟩
    · cases hl
    · obtain rfl := Option.some.inj hl
      exact hx
  · intro h
    exact ⟨_, h, rfl⟩

theorem mem_loadable_found_iff {directory : String} {loaded : LoadedGraph} :
    loaded ∈ loadable (v.found directory) ↔ v.Loads directory loaded.path loaded.graph := by
  rw [mem_loadable_iff, FileView.found, List.mem_map]
  constructor
  · rintro ⟨p, hp, hloaded⟩
    obtain ⟨rfl, hgraph⟩ := Prod.ext_iff.1 hloaded
    exact ⟨(mem_graphPaths.1 hp).1, hgraph⟩
  · rintro ⟨hp, hgraph⟩
    exact ⟨loaded.path, mem_graphPaths.2 ⟨hp, FileView.isSome_graphFormat?_of_graph hgraph⟩,
      Prod.ext rfl hgraph⟩

/-- No path is found below a directory that is not listed, and none moved out of the order. -/
theorem paths_loadable_found_sublist (v : FileView) (directory : String) :
    ((loadable (v.found directory)).map (·.path)).Sublist (graphPaths (v.listing directory)) := by
  simpa [FileView.found, Function.comp_def] using paths_loadable_sublist (v.found directory)

theorem nodup_loadable_found {directory : String} (h : DistinctPaths (v.listing directory)) :
    (loadable (v.found directory)).Nodup := by
  refine List.Nodup.of_map (·.path) ((paths_loadable_found_sublist v directory).nodup ?_)
  exact (graphPathsOf_graphPaths _).perm.nodup_iff.2 (h.nodup.filter _)

/-- What is added by a scan depends on the graphs alone that can be loaded below the directory. -/
theorem loadable_found_eq {v₁ v₂ : FileView} {directory : String}
    (hdistinct₁ : DistinctPaths (v₁.listing directory))
    (hdistinct₂ : DistinctPaths (v₂.listing directory))
    (h : ∀ p g, v₁.Loads directory p g ↔ v₂.Loads directory p g) :
    loadable (v₁.found directory) = loadable (v₂.found directory) := by
  have hascending : ∀ v : FileView,
      AscendingPaths ((loadable (v.found directory)).map (·.path)) := fun v =>
    (graphPathsOf_graphPaths _).ascending.sublist (paths_loadable_found_sublist v directory)
  refine eq_of_perm_of_ascending (·.path) hdistinct₁ ?_ ?_ ?_ (hascending v₁)
    (hascending v₂) ?_
  · -- At one path there is only one graph.
    rintro ⟨path, graph⟩ hx ⟨path', graph'⟩ hy hpath
    obtain rfl : path = path' := hpath
    have hgraph := ((h _ _).1 (mem_loadable_found_iff.1 hx)).2
    have hgraph' := (mem_loadable_found_iff.1 hy).2
    exact congrArg _ (Except.ok.inj (hgraph.symm.trans hgraph'))
  · exact fun x hx => (mem_loadable_found_iff.1 hx).1
  · exact fun y hy => ((h _ _).2 (mem_loadable_found_iff.1 hy)).1
  · refine (List.perm_ext_iff_of_nodup (nodup_loadable_found hdistinct₁)
      (nodup_loadable_found hdistinct₂)).2 fun x => ?_
    rw [mem_loadable_found_iff, mem_loadable_found_iff, h]

end Loadable

/-! ## Hosts that show files -/

variable {σ : Type} [Host (StateM σ)]

/-- A host shows a view of files in a state: it answers so, and asking changes nothing. -/
structure FileView.ShownIn (v : FileView) (s : σ) : Prop where
  isThere : ∀ path, (Host.isThere path : StateM σ _).run s = (v.isThere path, s)
  isDirectory : ∀ path, (Host.isDirectory path : StateM σ _).run s = (v.isDirectory path, s)
  read : ∀ path, (Host.read path : StateM σ _).run s = (v.read path, s)
  listing : ∀ path, (Host.listing path : StateM σ _).run s = (v.listing path, s)

/-- A desk shows the files that lie on it. -/
theorem shownIn_desk (desk : Desk) : desk.files.view.ShownIn desk where
  isThere _ := rfl
  isDirectory _ := rfl
  read _ := rfl
  listing _ := rfl

namespace FileView.ShownIn

variable {v : FileView} {s : σ} (h : v.ShownIn s)
include h

theorem run_ofFile (path : String) :
    (Graph.ofFile path : StateM σ _).run s = (v.graph path, s) := by
  unfold Graph.ofFile FileView.graph
  cases graphFormat? path with
  | none => rfl
  | some format =>
    dsimp only
    rw [StateT.run_bind, h.read]
    cases v.read path <;> rfl

theorem run_ofFiles (paths : List String) :
    (Graph.ofFiles paths : StateM σ _).run s = (paths.map fun p => (p, v.graph p), s) := by
  unfold Graph.ofFiles
  induction paths with
  | nil => rfl
  | cons p paths ih =>
    rw [List.mapM_cons, run_bind_eq, run_bind_eq, run_bind_eq, h.run_ofFile]
    exact congrArg (fun x => ((p, v.graph p) :: x.1, x.2)) ih

/-- Files that are loaded one after the other give the graphs that can be loaded. -/
theorem run_foundAll (paths : List String) :
    (foundAll (paths.map .loadFile) : StateM σ _).run s =
      (loadable (paths.map fun p => (p, v.graph p)), s) := by
  induction paths with
  | nil => rfl
  | cons p paths ih =>
    have hfirst : (foundInFile p : StateM σ _).run s = (loadable [(p, v.graph p)], s) := by
      rw [foundInFile, run_bind_eq, h.run_ofFile]
      rfl
    rw [List.map_cons, List.map_cons, loadable_cons, foundAll, LoadingCall.found, run_bind_eq,
      run_bind_eq, hfirst, ih]
    rfl

theorem run_scan (fold : String → String) (r : Registry) (directory : String) :
    ((r.scan directory fold : StateM σ Registry.Loading).run s).1 =
      if v.isThere directory then do
        let (count, r) ← r.absorb (v.found directory) fold
        pure (.ok count, r)
      else pure (.error (.directoryNotFound directory), r) := by
  rw [Registry.scan, run_bind_eq, h.isThere]
  cases v.isThere directory with
  | false => rfl
  | true =>
    rw [if_pos rfl, if_pos rfl, run_bind_eq, h.listing, run_bind_eq, h.run_ofFiles]
    rfl

theorem value_scan (fold : String → String) (r : Registry) (directory : String) :
    ((r.scan directory fold : StateM σ Registry.Loading).run s).1.value =
      if v.isThere directory then
        let after := r.addAll fold (loadable (v.found directory))
        (.ok (after.components.length - r.components.length), after)
      else (.error (.directoryNotFound directory), r) := by
  rw [h.run_scan]
  split
  · rw [Logged.value_bind, Registry.value_absorb]
    rfl
  · rfl

/-- A scan does what loading the files one after the other does, in the order of their paths, where
failures are passed over. -/
theorem value_scan_eq_performAll (fold : String → String) (r : Registry) {directory : String}
    (hthere : v.isThere directory) (hdistinct : DistinctPaths (v.listing directory))
    {paths : List String} (hpaths : GraphPathsOf (v.listing directory) paths) :
    let run := ((r.performAll fold (paths.map .loadFile) : StateM σ _).run s).1
    ((r.scan directory fold : StateM σ Registry.Loading).run s).1.value =
      (.ok (totalCount run.1), run.2) := by
  intro run
  have hregistry : run.2 = r.addAll fold (loadable (v.found directory)) := by
    rw [Registry.registry_performAll, h.run_foundAll, ← graphPaths_eq hdistinct hpaths]
    rfl
  have hcount : totalCount run.1 + r.components.length = run.2.components.length :=
    Registry.totalCount_performAll fold r (paths.map .loadFile) s
  rw [h.value_scan, if_pos hthere, ← hregistry]
  dsimp only
  rw [← hcount, Nat.add_sub_cancel]

end FileView.ShownIn

/-! ## Conversions of what is scanned -/

/-- The conversions of an input are those of the graphs that are loaded, if none of it fails. -/
theorem result_convertInput (c : Configuration) (input : String) (t : Transcript) (s : σ) :
    (Session.result (convertInput c input : Session (StateM σ) _) t s).1.1 =
      match ((Registry.load {} input : StateM σ Registry.Loading).run s).1.value with
      | (.ok _, r) => .ok (convertLoaded c.converter r.graphs).value
      | (.error e, _) => .error (.unloadedGraphs input e) := by
  have hload : Session.result (Session.onHost (Registry.load {} input) : Session (StateM σ) _) t s =
      ((.ok ((Registry.load {} input : StateM σ Registry.Loading).run s).1, t),
        ((Registry.load {} input : StateM σ Registry.Loading).run s).2) := rfl
  rw [convertInput, Session.result_bind, loadGraphs, Session.result_bind, hload]
  dsimp only
  rw [Session.result_bind, Session.result_log]
  dsimp only
  rcases ((Registry.load {} input : StateM σ Registry.Loading).run s).1.value with ⟨e | count, r⟩ <;>
    rfl

/-- Of a directory the conversions are those of what a scan finds. -/
theorem run_load_of_isDirectory {v : FileView} {s : σ} (h : v.ShownIn s) {directory : String}
    (hdirectory : v.isDirectory directory) (fold : String → String) (r : Registry) :
    (r.load directory fold : StateM σ Registry.Loading).run s =
      (r.scan directory fold : StateM σ Registry.Loading).run s := by
  rw [Registry.load, run_bind_eq, h.isDirectory, if_pos hdirectory]

namespace Registry

/-- A scan ends as loading each file on its own would, in the order of the paths and passing over
failures. So a listing of the same files in another order gives the same, reports included; and files
that cannot be loaded, wherever they are, change neither the registry with what is found in it, nor
the count, nor the conversions. -/
theorem scan_of_views (fold : String → String) (r : Registry) (directory : String)
    {v₁ v₂ : FileView} {s₁ s₂ : σ} (h₁ : v₁.ShownIn s₁) (h₂ : v₂.ShownIn s₂)
    (hthere : v₁.isThere directory = v₂.isThere directory)
    (hdistinct₁ : DistinctPaths (v₁.listing directory))
    (hdistinct₂ : DistinctPaths (v₂.listing directory)) :
    let scan := fun s => ((r.scan directory fold : StateM σ Loading).run s).1
    (v₁.isThere directory → ∀ paths, GraphPathsOf (v₁.listing directory) paths →
      let run := ((r.performAll fold (paths.map .loadFile) : StateM σ _).run s₁).1
      (scan s₁).value = (.ok (totalCount run.1), run.2)) ∧
    ((v₁.listing directory).Perm (v₂.listing directory) →
      (∀ p ∈ v₁.listing directory, v₁.read p = v₂.read p) → scan s₁ = scan s₂) ∧
    ((∀ p g, v₁.Loads directory p g ↔ v₂.Loads directory p g) →
      (scan s₁).value = (scan s₂).value ∧
      (v₁.isDirectory directory → v₂.isDirectory directory →
        ∀ (c : Configuration) (t₁ t₂ : Transcript),
          (Session.result (convertInput c directory : Session (StateM σ) _) t₁ s₁).1.1 =
            (Session.result (convertInput c directory : Session (StateM σ) _) t₂ s₂).1.1)) := by
  intro scan
  refine ⟨fun hone paths hpaths => ?_, fun hperm hread => ?_, fun hloads => ?_⟩
  · exact h₁.value_scan_eq_performAll fold r hone hdistinct₁ hpaths
  · -- Listings of the same files have the same paths in order, and so the same graphs.
    have hpaths : graphPaths (v₁.listing directory) = graphPaths (v₂.listing directory) := by
      refine graphPaths_eq hdistinct₁ ⟨?_, (graphPathsOf_graphPaths _).ascending⟩
      exact (graphPathsOf_graphPaths _).perm.trans (hperm.symm.filter _)
    have hfound : v₁.found directory = v₂.found directory := by
      rw [FileView.found, FileView.found, ← hpaths]
      refine List.map_congr_left fun p hp => ?_
      rw [FileView.graph_eq_of_read_eq (hread p (mem_graphPaths.1 hp).1)]
    have hscan₁ := h₁.run_scan fold r directory
    rw [hthere, hfound] at hscan₁
    exact hscan₁.trans (h₂.run_scan fold r directory).symm
  · -- Reports tell of failures, too; so here only the values of the scans are the same.
    have hgraphs := loadable_found_eq hdistinct₁ hdistinct₂ hloads
    have hscan : ∀ (fold : String → String) (r : Registry),
        ((r.scan directory fold : StateM σ Loading).run s₁).1.value =
          ((r.scan directory fold : StateM σ Loading).run s₂).1.value := by
      intro fold r
      rw [h₁.value_scan, h₂.value_scan, hthere, hgraphs]
    refine ⟨hscan fold r, fun hdirectory₁ hdirectory₂ c t₁ t₂ => ?_⟩
    rw [result_convertInput, result_convertInput, run_load_of_isDirectory h₁ hdirectory₁,
      run_load_of_isDirectory h₂ hdirectory₂, hscan]

/-- A desk with texts in the files of one directory. -/
def shelf (texts : List (String × String)) : Desk where
  files := ⟨(["g".toList], .directory) :: texts.map fun (name, text) =>
    (["g".toList, name.toList], .file (some text))⟩
  clock := "0"

/-- Two graphs whose exports differ in case only, listed in either order, and with a file between
them that cannot be loaded. -/
theorem scan_of_views_shelf :
    let badge := "[[[0]],[[\"Badge\",0]]]"
    let shadow := "[[[7]],[[\"badge\",7]]]"
    let listed := shelf [("b.json", shadow), ("a.json", badge)]
    let other := shelf [("a.json", badge), ("b.json", shadow)]
    let more := shelf [("a.json", badge), ("aa.json", "["), ("b.json", shadow)]
    let paths := ["g/a.json", "g/b.json"]
    let scan := fun s : Desk => ((({} : Registry).scan "g" lowercase : StateM Desk Loading).run s).1
    let run := ((({} : Registry).performAll lowercase (paths.map .loadFile) :
      StateM Desk _).run listed).1
    GraphPathsOf (listed.files.view.listing "g") paths ∧
      (∀ p ∈ listed.files.view.listing "g", listed.files.view.read p = other.files.view.read p) ∧
      (∀ p g, listed.files.view.Loads "g" p g ↔ more.files.view.Loads "g" p g) ∧
      (scan listed).value = (.ok (totalCount run.1), run.2) ∧
      scan listed = scan other ∧
      (scan listed).value = (scan more).value ∧
      ∀ (c : Configuration) (t : Transcript),
        (Session.result (convertInput c "g" : Session (StateM Desk) _) t listed).1.1 =
          (Session.result (convertInput c "g" : Session (StateM Desk) _) t more).1.1 := by
  intro badge shadow listed other more paths scan run
  have hlisted : listed.files.view.listing "g" = ["g", "g/b.json", "g/a.json"] := by decide +kernel
  have hother : other.files.view.listing "g" = ["g", "g/a.json", "g/b.json"] := by decide +kernel
  have hmore : more.files.view.listing "g" = ["g", "g/a.json", "g/aa.json", "g/b.json"] := by
    decide +kernel
  have hpaths : GraphPathsOf (listed.files.view.listing "g") paths :=
    ⟨by decide +kernel, by decide +kernel⟩
  have hread : ∀ p ∈ listed.files.view.listing "g",
      listed.files.view.read p = other.files.view.read p := by decide +kernel
  have hsame : ∀ p ∈ listed.files.view.listing "g",
      listed.files.view.read p = more.files.view.read p := by decide +kernel
  -- The third file is listed in one of the desks only, and cannot be loaded.
  have hbad : (more.files.view.graph "g/aa.json").toBool = false := by decide +kernel
  have hloads : ∀ p g, listed.files.view.Loads "g" p g ↔ more.files.view.Loads "g" p g := by
    intro p g
    constructor
    · rintro ⟨hp, hg⟩
      refine ⟨?_, (FileView.graph_eq_of_read_eq (hsame p hp)).symm.trans hg⟩
      rw [hlisted] at hp
      rw [hmore]
      simp only [List.mem_cons, List.not_mem_nil, or_false] at hp ⊢
      tauto
    · rintro ⟨hp, hg⟩
      have hne : p ≠ "g/aa.json" := by
        rintro rfl
        rw [hg] at hbad
        cases hbad
      have hp' : p ∈ listed.files.view.listing "g" := by
        rw [hmore] at hp
        rw [hlisted]
        simp only [List.mem_cons, List.not_mem_nil, or_false] at hp ⊢
        tauto
      exact ⟨hp', (FileView.graph_eq_of_read_eq (hsame p hp')).trans hg⟩
  obtain ⟨hone, horder, -⟩ := scan_of_views lowercase {} "g" (shownIn_desk listed)
    (shownIn_desk other) (by decide +kernel) (by decide +kernel) (by decide +kernel)
  obtain ⟨-, -, hskip⟩ := scan_of_views lowercase {} "g" (shownIn_desk listed) (shownIn_desk more)
    (by decide +kernel) (by decide +kernel) (by decide +kernel)
  obtain ⟨hvalue, hconversions⟩ := hskip hloads
  refine ⟨hpaths, hread, hloads, hone (by decide +kernel) paths hpaths, ?_, hvalue, fun c t => ?_⟩
  · refine horder ?_ hread
    rw [hlisted, hother]
    decide
  · exact hconversions (by decide +kernel) (by decide +kernel) c t t

end Registry

end ComponentViews
