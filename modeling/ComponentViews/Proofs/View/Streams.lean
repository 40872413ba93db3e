import ComponentViews.Proofs.Command.Output
import ComponentViews.Proofs.Json.Streams
import ComponentViews.Proofs.View.YamlTexts

/-!
# Printed views

Views that are printed one after the other have a line break after each. In JSON this makes a stream
of values, which are read back in their order. In YAML nothing is written between documents, so that
the views of a text are one document. The line break makes an empty line after the text of a view, and
the last string of a view may take it for its own.

## Main definitions

* `readViewStream?`: read the views of a stream.

## Main results

* `readJsonStream?_printedViews`, `readYamlStream?_printedViews_iff`: what is read of printed views.
* `printed_views_readable_iff`: which printed views are read back.
-/

namespace ComponentViews

open Session (result)
open Yaml

/-- Read the views of a stream. -/
def readViewStream? : DocumentFormat → String → Option (List ComponentView)
  | .json => readJsonStream? ComponentView.read
  | .yaml => readYamlStream? ComponentView.read

/-! ## Streams in YAML -/

/-- What is printed in YAML has no signs between documents. -/
theorem unmarked_printedViews (views : List ComponentView) :
    Unmarked true (printedViews .yaml views).toList := by
  have hview : ∀ v : ComponentView, Unmarked true v.toJson.yaml.toList := fun v =>
    v.textual_toJson.unmarked_yaml
  have hbreak : "\n".toList = ['\n'] := rfl
  have hend : Unmarked true ['\n'] :=
    unmarked_cons (by decide) (by decide) (unmarked_nil _)
  rw [printedViews, String.toList_join, List.flatMap_map]
  refine Unmarked.flatMap fun v _ => ?_
  rw [String.toList_append, ComponentView.text, hbreak]
  exact (hview v).append hend

/-- A view is not read from a text without tokens. -/
theorem tokens?_ne_nil_of_readYamlText? {s : String} {v : ComponentView}
    (h : readYamlText? ComponentView.read s = some v) : tokens? s.toList ≠ some [] := by
  intro hempty
  rw [readYamlText?, hempty] at h
  cases h

theorem readYamlStream?_of_unmarked {s : String} (h : Unmarked true s.toList) :
    readYamlStream? ComponentView.read s =
      if tokens? s.toList = some [] then some []
      else (readYamlText? ComponentView.read s).map ([·]) := by
  rw [readYamlStream?, documentTexts_of_unmarked h]
  split
  · rfl
  · simp only [List.mapM_cons, String.ofList_toList]
    cases readYamlText? ComponentView.read s <;> rfl

/-- In JSON, views are read back. -/
theorem readJsonStream?_printedViews (views : List ComponentView) :
    readJsonStream? ComponentView.read (printedViews .json views) = some views := by
  have hplain : ∀ v ∈ views, v.toJson.Plain (123 + 4) := fun v _ => v.plain_toJson
  have hread : ∀ v ∈ views, Recovers JsonText.Shows ComponentView.read v.toJson v :=
    fun v _ => v.recovers JsonText.faithful
  rw [printedViews]
  exact readJsonStream?_pretty hread hplain

/-- In YAML, views are read back if there are none, or if there is one whose last string does not take
the empty line after the text for its own. -/
theorem readYamlStream?_printedViews_iff (views : List ComponentView) :
    readYamlStream? ComponentView.read (printedViews .yaml views) = some views ↔
      views = [] ∨ ∃ v, views = [v] ∧ ∀ s ∈ v.lastString?, ¬ KeepsBreaks s.toList := by
  have hsingle : ∀ v : ComponentView, printedViews .yaml [v] = v.text .yaml ++ "\n" := fun v => by
    simp [printedViews, String.join]
  simp only [← ComponentView.readYamlText?_text_newline_iff]
  rw [readYamlStream?_of_unmarked (unmarked_printedViews views)]
  constructor
  · intro h
    split at h
    · exact .inl (Option.some.inj h).symm
    · obtain ⟨v, hv, rfl⟩ := Option.map_eq_some_iff.1 h
      exact .inr ⟨v, rfl, by rwa [hsingle] at hv⟩
  · rintro (rfl | ⟨v, rfl, hv⟩)
    · rfl
    · rw [hsingle, if_neg (tokens?_ne_nil_of_readYamlText? hv), hv]
      rfl

variable {σ : Type} [Host (StateM σ)]

/-- **What is printed.** Views that are printed are read back in JSON, whatever they are. In YAML they
are read back if there are none, or if there is one whose last string is not a block that keeps all
line breaks after it, since such a block takes the line break after the text for its own. Two views or
more are not read back. -/
theorem printed_views_readable_iff (format : DocumentFormat) (views : List ComponentView)
    (t : Transcript) (s : σ) :
    ∃ text, result (putViews none format views : Session (StateM σ) Unit) t s =
        ((.ok (), { t with printed := t.printed ++ text }), s) ∧
      (readViewStream? format text = some views ↔
        format = .json ∨ views = [] ∨
          ∃ v, views = [v] ∧ ∀ last ∈ v.lastString?, ¬ KeepsBreaks last.toList) := by
  refine ⟨printedViews format views, rfl, ?_⟩
  cases format with
  | json => exact iff_of_true (readJsonStream?_printedViews views) (.inl rfl)
  | yaml =>
    rw [or_iff_right DocumentFormat.noConfusion]
    exact readYamlStream?_printedViews_iff views

/-! ## Views that are not read back -/

/-- A desk with two components. -/
def linkAndButton : Desk where
  files := ⟨[(["g.json".toList], .file (some
    ("[[[0],\x7b\"id\":1,\"symbol\":\"Element\"\x7d,\x7b\"id\":2,\"signatures\":[[[0],1]]\x7d]," ++
      "[[\"Link\",2],[\"Button\",2]]]")))]⟩
  clock := "0"

theorem run_linkAndButton :
    let run := (Invocation.run ⟨"propcast.toml", false, .convert "g.json" none (some .yaml)⟩ :
      StateM Desk _).run linkAndButton
    let views : List ComponentView := [{ name := "Link" }, { name := "Button" }]
    viewsOf (result (loadProject "propcast.toml" "g.json" : Session (StateM Desk) _) {}
      linkAndButton).1.1 = views ∧ run.1.error = none ∧
      run.1.transcript.printed = printedViews .yaml views := by
  decide +kernel

/-- The views of both components are printed without a sign between them, and are not read back. -/
theorem convert_linkAndButton :
    let run := (Invocation.run ⟨"propcast.toml", false, .convert "g.json" none (some .yaml)⟩ :
      StateM Desk _).run linkAndButton
    ∃ c graphs,
      (result (loadProject "propcast.toml" "g.json" : Session (StateM Desk) _) {}
        linkAndButton).1.1 = .ok (c, graphs) ∧ run.1.error = none ∧
      readViewStream? .yaml run.1.transcript.printed ≠ some (c.converter.views graphs) := by
  obtain ⟨hviews, hok, hprinted⟩ := run_linkAndButton
  obtain ⟨c, graphs, hload, hgraphs⟩ := exists_of_viewsOf (by rw [hviews]; exact List.cons_ne_nil _ _)
  generalize (Invocation.run _ : StateM Desk _).run linkAndButton = run at hok hprinted ⊢
  refine ⟨c, graphs, hload, hok, fun h => ?_⟩
  rw [hprinted, hgraphs, hviews] at h
  obtain h | ⟨v, h, -⟩ := (readYamlStream?_printedViews_iff _).1 h <;> cases h

end ComponentViews
