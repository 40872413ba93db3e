import ComponentViews.Proofs.Command.Agreement
import ComponentViews.Proofs.Files.Writing

/-!
# Files of views

A command that converts components into a directory writes one file for each view, one after the
other. Where the files of two views are the same, only the later view is left, which is not reported.

## Main definitions

* `ComponentView.file`: the path and the text of the file for a view.
* `linkAsButton`: a desk with two components that get one name.

## Main results

* `writes_of_result_writeViews`, `writes_of_run`: views are written one after the other.
* `convert_keeps_views_iff`: which views are left after a run.
-/

namespace ComponentViews

open Session (result)

/-- The path and the text of the file for a view. -/
def ComponentView.file (v : ComponentView) (directory : String) (format : DocumentFormat) :
    String × String :=
  (v.path directory format, v.text format)

theorem run_change (operation : FileTree → Except FileError FileTree) (s : Desk) :
    (Desk.change operation).run s =
      match operation s.files with
      | .ok files => (.ok (), { s with files })
      | .error e => (.error e, s) := by
  have hrun : (Desk.change operation).run s =
      (match operation s.files with
        | .ok files => (do set { s with files }; pure (.ok ()) : StateM Desk (Except FileError Unit))
        | .error e => pure (.error e)).run s := rfl
  rw [hrun]
  cases operation s.files <;> rfl

variable {directory : String} {format : DocumentFormat} {views : List ComponentView}
  {t t' : Transcript} {s s' : Desk}

/-- A text that is put into a file on the desk is written there. -/
theorem write_of_result {path text : String} {outcome : Except FileError Unit}
    (h : result (Session.onHost (Host.write path text) : Session (StateM Desk) _) t s =
      ((.ok outcome, t'), s')) (hok : outcome = .ok ()) :
    s.files.write path text = .ok s'.files := by
  have hwrite : ((Host.write path text : StateM Desk _).run s) = (outcome, s') := by
    rw [Session.result_onHost] at h
    simp only [Prod.mk.injEq, Except.ok.injEq] at h
    exact Prod.ext h.1.1 h.2
  have hrun := (run_change (fun files => files.write path text) s).symm.trans hwrite
  subst hok
  cases hfiles : s.files.write path text with
  | error e =>
    rw [hfiles] at hrun
    cases hrun
  | ok files =>
    rw [hfiles] at hrun
    cases hrun
    rfl

/-- Views that are written in a loop are written one after the other. -/
theorem writes_of_result_forIn {u : PUnit}
    (h : result (forIn views PUnit.unit fun v _ => do
        let written ← Session.onHost (Host.write (v.path directory format) (v.text format))
        Session.orFail (CommandError.unwrittenFile (v.path directory format)) written
        Session.log (Logged.debug s!"Wrote {v.path directory format}")
        pure (ForInStep.yield PUnit.unit) : Session (StateM Desk) PUnit) t s = ((.ok u, t'), s')) :
    FileTree.Writes s.files (views.map (·.file directory format)) s'.files := by
  induction views generalizing t s with
  | nil =>
    cases h
    exact .nil _
  | cons view views ih =>
    rw [List.forIn_cons] at h
    obtain ⟨step, t₁, s₁, hstep, h⟩ := Session.exists_of_result_bind_eq_ok h
    obtain ⟨written, t₂, s₂, hwrite, hrest⟩ := Session.exists_of_result_bind_eq_ok hstep
    obtain ⟨_, t₃, s₃, hfail, hreport⟩ := Session.exists_of_result_bind_eq_ok hrest
    obtain ⟨hok, rfl, rfl⟩ := Session.result_orFail_eq_ok hfail
    cases hreport
    exact .cons (write_of_result hwrite hok) (ih h)

/-- Views that are written are written one after the other. -/
theorem writes_of_result_writeViews
    (h : result (writeViews directory format views : Session (StateM Desk) Unit) t s =
      ((.ok (), t'), s')) :
    ∃ files, FileTree.Writes files (views.map (·.file directory format)) s'.files := by
  unfold writeViews at h
  obtain ⟨made, t₁, s₁, -, h⟩ := Session.exists_of_result_bind_eq_ok h
  obtain ⟨u, t₂, s₂, -, h⟩ := Session.exists_of_result_bind_eq_ok h
  obtain ⟨v, t₃, s₃, hloop, h⟩ := Session.exists_of_result_bind_eq_ok h
  cases h
  exact ⟨s₂.files, writes_of_result_forIn hloop⟩

/-- What is written is left when attention and numbers have been reported. -/
theorem writes_of_result_writeConverted
    (h : result (writeConverted (some directory) format views : Session (StateM Desk) Unit) t s =
      ((.ok (), t'), s')) :
    ∃ files, FileTree.Writes files (views.map (·.file directory format)) s'.files := by
  unfold writeConverted at h
  obtain ⟨u, t₁, s₁, hput, h⟩ := Session.exists_of_result_bind_eq_ok h
  obtain ⟨events, hreported⟩ := (reports_reportAttention views).result_bind
    (fun _ => reportWritten (some directory) views) t₁ s₁
  rw [hreported] at h
  cases h
  exact writes_of_result_writeViews hput

/-- A command that succeeds and goes on with the views of the graphs that it loads succeeds with
these. -/
theorem exists_of_result_withViews {configuration input : String}
    {rest : Configuration → List ComponentView → Session (StateM Desk) Unit} {c : Configuration}
    {graphs : List LoadedGraph}
    (hload : (result (loadProject configuration input : Session (StateM Desk) _) t s).1.1 =
      .ok (c, graphs))
    (h : result (withViews configuration input rest) t s = ((.ok (), t'), s')) :
    ∃ t₁ s₁, result (rest c (c.converter.views graphs)) t₁ s₁ = ((.ok (), t'), s') := by
  unfold withViews at h
  obtain ⟨⟨c', graphs'⟩, t₁, s₁, hproject, h⟩ := Session.exists_of_result_bind_eq_ok h
  rw [hproject] at hload
  obtain ⟨rfl, rfl⟩ := Prod.mk.inj (Except.ok.inj hload)
  obtain ⟨conversions, t₂, s₂, hconverted, h⟩ := Session.exists_of_result_bind_eq_ok h
  cases hconverted
  exact ⟨_, _, by rwa [Converter.value_convertLoaded] at h⟩

/-- A file of a view that is written is one of the directory. -/
theorem slash_notMem_fileName {name : String} (h : '/' ∉ name.toList) (format : DocumentFormat) :
    '/' ∉ (name ++ "." ++ format.name).toList := by
  rw [String.toList_append, String.toList_append, List.mem_append, List.mem_append]
  cases format <;> simp [h, DocumentFormat.name]

theorem sameFile_path_iff {files : FileTree} {v w : ComponentView} (hv : '/' ∉ v.name.toList)
    (hw : '/' ∉ w.name.toList)
    (hfile : ∃ way name, files.IsFileAt (v.path directory format) way name) :
    files.SameFile (v.path directory format) (w.path directory format) ↔ v.name = w.name := by
  unfold ComponentView.path at hfile ⊢
  rw [FileTree.sameFile_joinPath_iff (slash_notMem_fileName hv format)
    (slash_notMem_fileName hw format) hfile, String.append_assoc, String.append_assoc]
  exact String.append_left_inj _

section Runs

variable {configuration input : String} {verbose : Bool} {output : Option String}
  {format : Option DocumentFormat} {c : Configuration} {graphs : List LoadedGraph}
  (hload : (result (loadProject configuration input : Session (StateM Desk) _) {} s).1.1 =
    .ok (c, graphs))
  (hdirectory : output.or c.output.directory = some directory)
include hload hdirectory

/-- A conversion into a directory writes the views one after the other. -/
theorem writes_of_run
    (hok : ((Invocation.run ⟨configuration, verbose, .convert input output format⟩ :
      StateM Desk _).run s).1.error = none) :
    ∃ files, FileTree.Writes files
      ((c.converter.views graphs).map (·.file directory (format.getD c.output.format)))
      ((Invocation.run ⟨configuration, verbose, .convert input output format⟩ :
        StateM Desk _).run s).2.files := by
  rw [run_eq_result] at hok ⊢
  rw [error_outcomeOf_eq_none_iff] at hok
  generalize hresult : result (Invocation.session
    ⟨configuration, verbose, .convert input output format⟩ : Session (StateM Desk) Unit) {} s = r
    at hok ⊢
  rw [session_convert] at hresult
  obtain ⟨⟨outcome, t'⟩, s'⟩ := r
  obtain rfl : outcome = .ok () := hok
  obtain ⟨t₁, s₁, hwritten⟩ := exists_of_result_withViews hload hresult
  rw [hdirectory] at hwritten
  exact writes_of_result_writeConverted hwritten

/-- **Views that are lost.** After a conversion into a directory has succeeded, the file of each view
has the view's text exactly if views that share a file have the same text, and there are as many files
as views exactly if no two views share one. In a file that is shared the last view is left. Views whose
names have no solidus share a file exactly if they have one name. -/
theorem convert_keeps_views_iff :
    let run := (Invocation.run ⟨configuration, verbose, .convert input output format⟩ :
      StateM Desk _).run s
    let files := run.2.files
    let format := format.getD c.output.format
    let views := c.converter.views graphs
    let shared := fun v w : ComponentView =>
      files.SameFile (v.path directory format) (w.path directory format)
    run.1.error = none →
      ((∀ v ∈ views, files.read (v.path directory format) = .ok (v.text format)) ↔
        ∀ v ∈ views, ∀ w ∈ views, shared v w → v.text format = w.text format) ∧
      ((files.filesAt (views.map (·.path directory format))).length = views.length ↔
        views.Pairwise fun v w => ¬ shared v w) ∧
      (∀ before v after, views = before ++ v :: after → (∀ w ∈ after, ¬ shared v w) →
        files.read (v.path directory format) = .ok (v.text format)) ∧
      ∀ v ∈ views, ∀ w ∈ views, '/' ∉ v.name.toList → '/' ∉ w.name.toList →
        (shared v w ↔ v.name = w.name) := by
  intro run files format' views shared hok
  obtain ⟨before, hwrites⟩ : ∃ before : FileTree,
      before.Writes (views.map (·.file directory format')) files :=
    writes_of_run hload hdirectory hok
  -- Since all writes succeeded, each path is that of a file.
  have hfile : ∀ v ∈ views, ∃ way name, files.IsFileAt (v.path directory format') way name :=
    fun v hv => hwrites.exists_isFileAt _ (List.mem_map_of_mem hv)
  refine ⟨?_, ?_, ?_, fun v hv w hw hvname hwname => sameFile_path_iff hvname hwname (hfile v hv)⟩
  · have hkept := hwrites.kept_iff
    simp only [List.forall_mem_map] at hkept
    exact hkept
  · have hlength := FileTree.length_filesAt_eq_iff (List.forall_mem_map.2 hfile)
    rwa [List.length_map, List.pairwise_map] at hlength
  · intro first v after hviews hlast
    rw [hviews, List.map_append, List.map_cons] at hwrites
    exact hwrites.read_of_last (List.forall_mem_map.2 hlast)

end Runs

/-! ## A view that is lost -/

/-- A desk with two components, of which the first is given the name of the second. -/
def linkAsButton : Desk where
  files := ⟨[
    (["propcast.toml".toList], .file (some
      "[components.Link]\nrename = \"Button\"\nextra_code = [\"\"]")),
    (["g.json".toList], .file (some
      ("[[[0],\x7b\"id\":1,\"symbol\":\"Element\"\x7d,\x7b\"id\":2,\"signatures\":[[[0],1]]\x7d]," ++
        "[[\"Link\",2],[\"Button\",2]]]")))]⟩
  clock := "0"

/-- The views of the graphs that are loaded. -/
def viewsOf : Except CommandError (Configuration × List LoadedGraph) → List ComponentView
  | .ok (c, graphs) => c.converter.views graphs
  | .error _ => []

theorem exists_of_viewsOf {loaded : Except CommandError (Configuration × List LoadedGraph)}
    (h : viewsOf loaded ≠ []) :
    ∃ c graphs, loaded = .ok (c, graphs) ∧ c.converter.views graphs = viewsOf loaded := by
  rcases loaded with e | ⟨c, graphs⟩
  · exact absurd rfl h
  · exact ⟨c, graphs, rfl, rfl⟩

/-- The view of the first component, and that of the second. -/
def linkViews : List ComponentView :=
  [{ name := "Button", extraCode := [""] }, { name := "Button" }]

/-- The conversion succeeds with the view of the second component in the file for both. -/
theorem run_linkAsButton :
    let run := (Invocation.run ⟨"propcast.toml", false, .convert "g.json" (some "out") (some .json)⟩ :
      StateM Desk _).run linkAsButton
    viewsOf (result (loadProject "propcast.toml" "g.json" : Session (StateM Desk) _) {}
      linkAsButton).1.1 = linkViews ∧ run.1.error = none ∧
      (run.2.files.read "out/Button.json").toOption =
        some (({ name := "Button" } : ComponentView).text .json) := by
  decide +kernel

/-- The file for both views is the same, so there are fewer files than views, and the view of the
second component is left. -/
theorem convert_keeps_views_iff_linkAsButton :
    let run := (Invocation.run ⟨"propcast.toml", false, .convert "g.json" (some "out") (some .json)⟩ :
      StateM Desk _).run linkAsButton
    ∃ c graphs,
      (result (loadProject "propcast.toml" "g.json" : Session (StateM Desk) _) {}
        linkAsButton).1.1 = .ok (c, graphs) ∧
      c.converter.views graphs = linkViews ∧ run.1.error = none ∧
      (run.2.files.filesAt (linkViews.map (·.path "out" .json))).length ≠ 2 ∧
      run.2.files.read "out/Button.json" = .ok (({ name := "Button" } : ComponentView).text .json) := by
  obtain ⟨hviews, hok, -⟩ := run_linkAsButton
  obtain ⟨c, graphs, hload, hgraphs⟩ := exists_of_viewsOf (by rw [hviews]; exact List.cons_ne_nil _ _)
  have hdirectory : (some "out").or c.output.directory = some "out" := rfl
  have hkept := convert_keeps_views_iff hload hdirectory hok
  rw [hgraphs, hviews] at hkept
  -- What follows holds of any run, so it is shown without a look at this one.
  generalize (Invocation.run _ : StateM Desk _).run linkAsButton = run at hok hkept ⊢
  obtain ⟨-, hcount, hlast, hnames⟩ := hkept
  refine ⟨c, graphs, hload, hgraphs.trans hviews, hok, fun hlength => ?_, ?_⟩
  · have hapart := hcount.1 hlength
    rw [linkViews, List.pairwise_pair] at hapart
    exact hapart ((hnames _ (by simp [linkViews]) _ (by simp [linkViews]) (by decide) (by decide)).2 rfl)
  · have hpath : ({ name := "Button" } : ComponentView).path "out" .json = "out/Button.json" := by
      decide +kernel
    have hread := hlast [{ name := "Button", extraCode := [""] }] { name := "Button" } [] rfl
      (List.forall_mem_nil _)
    rwa [Option.getD_some, hpath] at hread

/-- The view of the first component is lost. -/
theorem convert_linkAsButton :
    let run := (Invocation.run ⟨"propcast.toml", false, .convert "g.json" (some "out") (some .json)⟩ :
      StateM Desk _).run linkAsButton
    let link : ComponentView := { name := "Button", extraCode := [""] }
    ∃ c graphs,
      (result (loadProject "propcast.toml" "g.json" : Session (StateM Desk) _) {}
        linkAsButton).1.1 = .ok (c, graphs) ∧
      link ∈ c.converter.views graphs ∧ run.1.error = none ∧
      link.path "out" .json = "out/Button.json" ∧
      run.2.files.read "out/Button.json" ≠ .ok (link.text .json) := by
  obtain ⟨hviews, hok, hread⟩ := run_linkAsButton
  obtain ⟨c, graphs, hload, hgraphs⟩ := exists_of_viewsOf (by rw [hviews]; exact List.cons_ne_nil _ _)
  generalize (Invocation.run _ : StateM Desk _).run linkAsButton = run at hok hread ⊢
  have hlink : { name := "Button", extraCode := [""] } ∈ c.converter.views graphs := by
    rw [hgraphs, hviews]
    exact List.mem_cons_self
  refine ⟨c, graphs, hload, hlink, hok, by decide +kernel, fun h => ?_⟩
  rw [h] at hread
  exact absurd (Option.some.inj hread) (by decide +kernel)

end ComponentViews
