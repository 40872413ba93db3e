import ComponentViews.Conversion
import ComponentViews.Proofs.Assembly.Placement

/-!
# Accounting for exports and properties

A conversion loses nothing, and nothing comes twice: each export has one view or one rejection, and
each property of a component has one entry in its view, forwarded or left out. All of them come in
the order of the graph, with the names and the documentation declared there.

## Main definitions

* `IsLines`: some lines are those of a text.
* `TypeGraph.IsComponent`, `TypeGraph.IsRefused`: a type is that of a component, or is not for a
  reason.
* `ComponentView.AccountsFor`: the entries of a view are those of some properties.

## Main results

* `isLines_documentationLines`: a documentation is given back by its lines.
* `isComponent_or_isRefused`: one of both holds of each type.
* `distributed_convertEntriesWith`: exports are distributed over views and rejections, whatever the
  hook.
* `distributed_convertGraph`: exports and properties are accounted for.
-/

namespace ComponentViews

/-! ## Documentation -/

/-- No piece of a list split at an element contains that element. -/
theorem not_mem_of_mem_splitOn {α : Type} [DecidableEq α] {a : α} {xs piece : List α}
    (h : piece ∈ xs.splitOn a) : a ∉ piece := by
  induction xs generalizing piece with
  | nil =>
    rw [List.splitOn_nil, List.mem_singleton] at h
    simp [h]
  | cons x xs ih =>
    rw [List.splitOn_cons_eq_if_modifyHead] at h
    by_cases hx : x = a
    · rw [if_pos (by simpa using hx)] at h
      rcases List.mem_cons.1 h with rfl | h
      · simp
      · exact ih h
    · rw [if_neg (by simpa using hx)] at h
      obtain ⟨first, rest, hsplit⟩ := List.exists_cons_of_ne_nil (List.splitOn_ne_nil a xs)
      rw [hsplit, List.modifyHead_cons] at h
      rw [hsplit] at ih
      -- Only the first piece becomes longer, by an element that is not the one in question.
      rcases List.mem_cons.1 h with rfl | h
      · rw [List.mem_cons, not_or]
        exact ⟨Ne.symm hx, ih List.mem_cons_self⟩
      · exact ih (List.mem_cons_of_mem first h)

/-- Some lines are those of a text: joined by line feeds they give it back, there are none only if
it is empty, and no line goes over a line feed. -/
structure IsLines (lines : List String) (text : String) : Prop where
  intercalate : String.intercalate "\n" lines = text
  eq_nil_iff : lines = [] ↔ text = ""
  not_mem : ∀ line ∈ lines, '\n' ∉ line.toList

theorem isLines_documentationLines (text : String) : IsLines (documentationLines text) text := by
  unfold documentationLines
  by_cases ht : text = ""
  · subst ht
    rw [if_pos rfl]
    exact ⟨rfl, by simp, by simp⟩
  · rw [if_neg ht]
    refine ⟨?_, ?_, ?_⟩
    · apply String.toList_inj.1
      rw [String.toList_intercalate, List.map_map]
      -- Joining the pieces again gives back the text that was cut.
      have hid : String.toList ∘ String.ofList = id := funext fun cs => String.toList_ofList
      rw [hid, List.map_id]
      exact List.intercalate_splitOn '\n'
    · simp [ht, List.splitOn_ne_nil]
    · intro line hline
      obtain ⟨piece, hpiece, rfl⟩ := List.mem_map.1 hline
      rw [String.toList_ofList]
      exact not_mem_of_mem_splitOn hpiece

/-! ## Components -/

namespace TypeGraph

variable (g : TypeGraph) (conventions : Conventions) (t : TypeId)

/-- The type is that of a component with the members of another type: its first signature takes that
type alone and returns what components return. -/
def IsComponent (props : TypeId) : Prop :=
  ∃ signature later symbol, g.callSignatures t = signature :: later ∧
    signature.parameters = [props] ∧ g.symbolName signature.returnType = some symbol ∧
    conventions.isElementMarker symbol

/-- The type is not that of a component, for the first reason that applies. -/
inductive IsRefused : NotComponent → Prop
  | noCallSignature (hs : g.callSignatures t = []) : IsRefused .noCallSignature
  | parameterCount {signature : Signature} {later : List Signature}
      (hs : g.callSignatures t = signature :: later) (hp : signature.parameters.length ≠ 1) :
      IsRefused (.parameterCount signature.parameters.length)
  | notAnElement {signature : Signature} {later : List Signature}
      (hs : g.callSignatures t = signature :: later) (hp : signature.parameters.length = 1)
      (hm : ∀ symbol, g.symbolName signature.returnType = some symbol →
        ¬ conventions.isElementMarker symbol) :
      IsRefused (.notAnElement (g.symbolName signature.returnType))

theorem isComponent_or_isRefused :
    (∃ props, g.IsComponent conventions t props) ∨ ∃ e, g.IsRefused conventions t e := by
  match hs : g.callSignatures t with
  | [] => exact .inr ⟨_, .noCallSignature hs⟩
  | signature :: later =>
    by_cases hp : signature.parameters.length = 1
    · obtain ⟨props, hprops⟩ := List.length_eq_one_iff.1 hp
      by_cases hm : ∃ symbol, g.symbolName signature.returnType = some symbol ∧
          conventions.isElementMarker symbol
      · obtain ⟨symbol, hsymbol, hmarker⟩ := hm
        exact .inl ⟨props, signature, later, symbol, hs, hprops, hsymbol, hmarker⟩
      · exact .inr ⟨_, .notAnElement hs hp fun symbol hsymbol hmarker =>
          hm ⟨symbol, hsymbol, hmarker⟩⟩
    · exact .inr ⟨_, .parameterCount hs hp⟩

variable {g conventions t}

theorem IsComponent.extractProperties {props : TypeId} (h : g.IsComponent conventions t props) :
    extractProperties g conventions t =
      .ok ((g.properties props).map PropertySymbol.toProperty) := by
  obtain ⟨signature, later, symbol, hs, hp, hsymbol, hm⟩ := h
  simp [ComponentViews.extractProperties, hs, hp, hsymbol, hm]

theorem IsRefused.extractProperties {e : NotComponent} (h : g.IsRefused conventions t e) :
    extractProperties g conventions t = .error e := by
  unfold ComponentViews.extractProperties
  cases h with
  | noCallSignature hs => rw [hs]
  | @parameterCount signature later hs hp =>
    rw [hs]
    dsimp only
    split
    · rename_i props hprops
      exact absurd (congrArg List.length hprops) hp
    · rfl
  | @notAnElement signature later hs hp hm =>
    obtain ⟨props, hprops⟩ := List.length_eq_one_iff.1 hp
    have hany : (g.symbolName signature.returnType).any conventions.isElementMarker = false := by
      cases hsymbol : g.symbolName signature.returnType with
      | none => rfl
      | some symbol => exact Bool.eq_false_iff.2 (hm symbol hsymbol)
    simp [hs, hprops, hany]

theorem isRefused_iff {e : NotComponent} :
    g.IsRefused conventions t e ↔ ComponentViews.extractProperties g conventions t = .error e := by
  refine ⟨IsRefused.extractProperties, fun he => ?_⟩
  rcases g.isComponent_or_isRefused conventions t with ⟨props, h⟩ | ⟨e', h⟩
  · rw [h.extractProperties] at he
    cases he
  · obtain rfl := Except.error.inj (h.extractProperties.symm.trans he)
    exact h

theorem exists_isRefused_iff :
    (∃ e, g.IsRefused conventions t e) ↔ ¬ ∃ props, g.IsComponent conventions t props := by
  constructor
  · rintro ⟨e, he⟩ ⟨props, h⟩
    cases h.extractProperties.symm.trans he.extractProperties
  · exact (g.isComponent_or_isRefused conventions t).resolve_left

end TypeGraph

/-! ## Values of conversions -/

section Hooks

variable {conventions : Conventions} {hook : Hook} {g : TypeGraph} {t : TypeId}

theorem value_convertComponentWith_error {e : NotComponent} (name : String)
    (h : extractProperties g conventions t = .error e) :
    (convertComponentWith conventions hook g name t).value = .error e := by
  unfold convertComponentWith
  rw [h]
  rfl

/-- A view depends on the value of an assembly only, whatever is reported about it. It is said of
any computation, so that comparing both sides does not run a classification. -/
theorem value_bind_customize (hook : Hook) (name : String) (report : ComponentView → String)
    (x : Logged Assembly) :
    (do
      let assembly ← x
      let view ← hook assembly.skipped (assembly.toView name)
      Logged.debug (report view)
      pure (.ok view) : Logged (Except NotComponent ComponentView)).value =
      .ok (hook x.value.skipped (x.value.toView name)).value := rfl

theorem value_convertComponentWith_ok {ps : List ComponentProperty} (name : String)
    (h : extractProperties g conventions t = .ok ps) :
    (convertComponentWith conventions hook g name t).value =
      let assembly := ((Classifier.mk g conventions).assemble ps).value
      .ok (hook assembly.skipped (assembly.toView name)).value := by
  unfold convertComponentWith
  rw [h]
  exact value_bind_customize hook name _ _

/-- Whatever the hook, an export is rejected for the first reason why it is not a component. -/
theorem value_convertComponentWith_eq_error_iff {name : String} {e : NotComponent} :
    (convertComponentWith conventions hook g name t).value = .error e ↔
      g.IsRefused conventions t e := by
  rw [TypeGraph.isRefused_iff]
  cases hx : extractProperties g conventions t with
  | ok ps =>
    rw [value_convertComponentWith_ok name hx]
    simp
  | error e' =>
    rw [value_convertComponentWith_error name hx]
    simp

/-- A converted export comes first among those with views or among those rejected. -/
theorem value_convertEntriesWith_cons (conventions : Conventions) (hook : Hook) (g : TypeGraph)
    (entry : ComponentEntry) (entries : List ComponentEntry) :
    (convertEntriesWith conventions hook g (entry :: entries)).value =
      let rest := (convertEntriesWith conventions hook g entries).value
      match (convertComponentWith conventions hook g entry.name entry.type).value with
      | .ok view => { rest with views := view :: rest.views }
      | .error e => { rest with rejected := (entry.name, e) :: rest.rejected } := by
  rw [convertEntriesWith, Logged.value_bind]
  cases (convertComponentWith conventions hook g entry.name entry.type).value with
  | ok view => rfl
  | error e => rfl

/-- The exports are distributed over the views and the rejections. -/
theorem distributed_convertEntriesWith (conventions : Conventions) (hook : Hook) (g : TypeGraph)
    (entries : List ComponentEntry) :
    let conversion := (convertEntriesWith conventions hook g entries).value
    Distributed
      (fun entry view =>
        (convertComponentWith conventions hook g entry.name entry.type).value = .ok view)
      (fun entry rejection => rejection.1 = entry.name ∧
        (convertComponentWith conventions hook g entry.name entry.type).value =
          .error rejection.2)
      entries conversion.views conversion.rejected := by
  induction entries with
  | nil => exact .nil
  | cons entry entries ih =>
    rw [value_convertEntriesWith_cons]
    cases h : (convertComponentWith conventions hook g entry.name entry.type).value with
    | ok view => exact .left h ih
    | error e => exact .right ⟨rfl, h⟩ ih

end Hooks

/-! ## Accounts -/

/-- The entries of a view, forwarded or left out, are those of some members of a type. -/
def ComponentView.AccountsFor (v : ComponentView) (members : List PropertySymbol) : Prop :=
  Distributed (fun p f => f.name = p.name ∧ IsLines f.documentation p.documentation)
    (fun p s => s.name = p.name ∧ IsLines s.documentation p.documentation)
    members v.properties v.skipped

theorem accountsFor_assemble (c : Classifier) (members : List PropertySymbol) (name : String) :
    ((c.assemble (members.map PropertySymbol.toProperty)).value.toView name).AccountsFor
      members := by
  refine (c.distributed_assemble (members.map PropertySymbol.toProperty)).of_map.mono ?_ ?_
  · rintro p - f ⟨hname, hdoc⟩
    exact ⟨hname, hdoc ▸ isLines_documentationLines p.documentation⟩
  · rintro p - s ⟨hname, hdoc⟩
    exact ⟨hname, hdoc ▸ isLines_documentationLines p.documentation⟩

/-- Without overrides, a view is that of a component and accounts for its properties. -/
theorem accountsFor_of_value_eq_ok {conventions : Conventions} {g : TypeGraph} {name : String}
    {t : TypeId} {view : ComponentView}
    (hview : (convertComponentWith conventions (Overrides.customize []) g name t).value =
      .ok view) :
    view.name = name ∧
      ∃ props, g.IsComponent conventions t props ∧ view.AccountsFor (g.properties props) := by
  rcases g.isComponent_or_isRefused conventions t with ⟨props, h⟩ | ⟨e, h⟩
  · rw [value_convertComponentWith_ok name h.extractProperties] at hview
    obtain rfl := Except.ok.inj hview
    exact ⟨rfl, props, h, accountsFor_assemble ⟨g, conventions⟩ (g.properties props) name⟩
  · rw [value_convertComponentWith_error name h.extractProperties] at hview
    cases hview

/-- **Nothing is lost and nothing comes twice.** Without overrides, the exports of a graph are
distributed over the views and the rejections. A view is that of a component, and accounts for the
members of the type of its only parameter. A rejection gives the first reason why an export is not a
component, of which there is one exactly if it is not. -/
theorem distributed_convertGraph (conventions : Conventions) (g : Graph) :
    let G : TypeGraph := g
    let conversion := (Converter.convertGraph { conventions } g).value
    Distributed
        (fun entry view => view.name = entry.name ∧
          ∃ props, G.IsComponent conventions entry.type props ∧
            view.AccountsFor (G.properties props))
        (fun entry rejection => rejection.1 = entry.name ∧
          G.IsRefused conventions entry.type rejection.2)
        g.components conversion.views conversion.rejected ∧
      ∀ t, ((∃ e, G.IsRefused conventions t e) ↔ ¬ ∃ props, G.IsComponent conventions t props) ∧
        ∀ e e', G.IsRefused conventions t e → G.IsRefused conventions t e' → e = e' := by
  intro G conversion
  have hentries :=
    distributed_convertEntriesWith conventions (Overrides.customize []) G g.components
  refine ⟨hentries.mono ?_ ?_, fun t => ⟨G.exists_isRefused_iff, fun e e' he he' => ?_⟩⟩
  · exact fun entry _ view hview => accountsFor_of_value_eq_ok hview
  · rintro entry - rejection ⟨hname, herror⟩
    exact ⟨hname, value_convertComponentWith_eq_error_iff.1 herror⟩
  · exact Except.error.inj (he.extractProperties.symm.trans he'.extractProperties)

end ComponentViews
