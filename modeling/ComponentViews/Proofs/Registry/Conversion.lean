import ComponentViews.Proofs.Conversion.Accounting
import ComponentViews.Proofs.Registry.Calls

/-!
# Conversion by name

A component can be converted by its name, which a registry looks up, or with all other exports of
its graph. Both ways meet: what a name gives is what the conversion of a graph has for the last
export with that folded name, at the place that the exports before it leave for it.

## Main definitions

* `GraphConversion.ViewBetween`, `GraphConversion.RejectionBetween`: what the conversion of a graph
  has for an export that stands between others.

## Main results

* `viewBetween_iff`, `rejectionBetween_iff`: it is what the export alone is converted to.
* `Registry.Resolves.value_convertWith`: a name gives what the last export with it is converted to.
* `convertWith_of_calls`: the two ways meet after any calls.
-/

namespace ComponentViews

/-! ## An export between others -/

/-- A conversion has a view right after those of a first and before those of a last conversion, and
nothing else but what these two have. -/
def GraphConversion.ViewBetween (whole first last : GraphConversion) (view : ComponentView) :
    Prop :=
  whole.views = first.views ++ view :: last.views ∧ whole.rejected = first.rejected ++ last.rejected

/-- A conversion has a rejection right after those of a first and before those of a last conversion,
and nothing else but what these two have. -/
def GraphConversion.RejectionBetween (whole first last : GraphConversion) (name : String)
    (reason : NotComponent) : Prop :=
  whole.views = first.views ++ last.views ∧
    whole.rejected = first.rejected ++ (name, reason) :: last.rejected

section Between

variable {conventions : Conventions} {hook : Hook} {g : Graph} {before after : List ComponentEntry}
  {entry : ComponentEntry}

theorem value_convertEntriesWith_append (conventions : Conventions) (hook : Hook) (g : TypeGraph)
    (before after : List ComponentEntry) :
    let first := (convertEntriesWith conventions hook g before).value
    let last := (convertEntriesWith conventions hook g after).value
    (convertEntriesWith conventions hook g (before ++ after)).value =
      ⟨first.views ++ last.views, first.rejected ++ last.rejected⟩ := by
  induction before with
  | nil => rfl
  | cons entry before ih =>
    dsimp only at ih ⊢
    rw [List.cons_append, value_convertEntriesWith_cons, value_convertEntriesWith_cons, ih]
    cases (convertComponentWith conventions hook g entry.name entry.type).value <;> rfl

/-- The conversion of a graph adds for an export what it alone is converted to. -/
theorem value_convertGraphWith_of_components (h : g.components = before ++ entry :: after) :
    let first := (convertEntriesWith conventions hook g before).value
    let last := (convertEntriesWith conventions hook g after).value
    (convertGraphWith conventions hook g).value =
      match (convertComponentWith conventions hook g entry.name entry.type).value with
      | .ok view => ⟨first.views ++ view :: last.views, first.rejected ++ last.rejected⟩
      | .error reason =>
        ⟨first.views ++ last.views, first.rejected ++ (entry.name, reason) :: last.rejected⟩ := by
  rw [convertGraphWith, h, value_convertEntriesWith_append, value_convertEntriesWith_cons]
  cases (convertComponentWith conventions hook g entry.name entry.type).value <;> rfl

/-- A list is not the same with one more element in it. -/
theorem append_ne_append_cons {α : Type} (xs ys : List α) (x : α) : xs ++ ys ≠ xs ++ x :: ys := by
  intro h
  have hlength := congrArg List.length h
  simp at hlength

theorem viewBetween_iff (h : g.components = before ++ entry :: after) {view : ComponentView} :
    (convertGraphWith conventions hook g).value.ViewBetween
        (convertEntriesWith conventions hook g before).value
        (convertEntriesWith conventions hook g after).value view ↔
      (convertComponentWith conventions hook g entry.name entry.type).value = .ok view := by
  unfold GraphConversion.ViewBetween
  rw [value_convertGraphWith_of_components h]
  cases (convertComponentWith conventions hook g entry.name entry.type).value with
  | ok other => simp
  | error reason => simp

theorem rejectionBetween_iff (h : g.components = before ++ entry :: after) {name : String}
    {reason : NotComponent} :
    (convertGraphWith conventions hook g).value.RejectionBetween
        (convertEntriesWith conventions hook g before).value
        (convertEntriesWith conventions hook g after).value name reason ↔
      name = entry.name ∧
        (convertComponentWith conventions hook g entry.name entry.type).value = .error reason := by
  unfold GraphConversion.RejectionBetween
  rw [value_convertGraphWith_of_components h]
  cases (convertComponentWith conventions hook g entry.name entry.type).value with
  | ok view => simp [(append_ne_append_cons _ _ _).symm]
  | error other => simp [eq_comm]

end Between

/-! ## What a name gives -/

namespace Registry

variable {fold : String → String} {r : Registry} {n : String} {conventions : Conventions}
  {hook : Hook}

/-- A name gives what the last export with it is converted to. -/
theorem Resolves.value_convertWith (h : Resolves fold r) {earlier : List LoadedGraph}
    {loaded : LoadedGraph} {before after : List ComponentEntry} {entry : ComponentEntry}
    (hlast : LastExport fold r.graphs (fold n) earlier loaded before entry after) :
    (r.convertWith conventions hook n fold).value =
      match (convertComponentWith conventions hook loaded.graph entry.name entry.type).value with
      | .ok view => .ok view
      | .error reason => .error (.notComponent entry.name reason) := by
  have hfind : r.find? n fold = some (entry.location earlier.length) :=
    (h.find?_eq_some_iff n _).2 ⟨earlier, loaded, before, entry, after, hlast, rfl⟩
  have hgraph : r.graphs[earlier.length]? = some loaded := by
    obtain ⟨later, hgraphs, -⟩ := hlast.not_later
    simp [hgraphs]
  unfold convertWith
  rw [hfind]
  simp only [ComponentEntry.location, hgraph, Logged.value_bind]
  cases (convertComponentWith conventions hook loaded.graph entry.name entry.type).value <;> rfl

/-- A name that no export has gives nothing. -/
theorem value_convertWith_of_not_contains (h : ¬ r.contains n fold) :
    (r.convertWith conventions hook n fold).value = .error (.componentNotFound n) := by
  have hfind : r.find? n fold = none := by simpa [contains] using h
  unfold convertWith
  rw [hfind]
  rfl

/-- Only a name that is not found is itself in what it gives. -/
theorem value_convertWith_of_fold {n' : String} {view : ComponentView} (hfold : fold n = fold n')
    (h : (r.convertWith conventions hook n fold).value = .ok view) :
    (r.convertWith conventions hook n' fold).value = .ok view := by
  unfold convertWith find? at h ⊢
  rw [hfold] at h
  cases hl : valueOf? r.components (fold n') with
  | none =>
    rw [hl] at h
    cases h
  | some l =>
    rw [hl] at h
    dsimp only at h ⊢
    cases hgraph : r.graphs[l.graphIndex]? with
    | none =>
      rw [hgraph] at h
      cases h
    | some loaded =>
      rw [hgraph] at h
      exact h

/-- A name that some export has leads to the last such export. -/
theorem Resolves.exists_lastExport (h : Resolves fold r) (hn : r.contains n fold) :
    ∃ earlier loaded before entry after,
      LastExport fold r.graphs (fold n) earlier loaded before entry after := by
  obtain ⟨l, hl⟩ := Option.isSome_iff_exists.1 hn
  obtain ⟨earlier, loaded, before, entry, after, hlast, -⟩ := (h.find?_eq_some_iff n l).1 hl
  exact ⟨earlier, loaded, before, entry, after, hlast⟩

theorem Resolves.value_convertWith_eq_componentNotFound_iff (h : Resolves fold r)
    {missing : String} :
    (r.convertWith conventions hook n fold).value = .error (.componentNotFound missing) ↔
      missing = n ∧ ¬ ∃ e ∈ exportsOf r.graphs, fold e.name = fold n := by
  rw [← h.contains_iff]
  by_cases hn : r.contains n fold
  · obtain ⟨earlier, loaded, before, entry, after, hlast⟩ := h.exists_lastExport hn
    rw [h.value_convertWith hlast]
    cases (convertComponentWith conventions hook loaded.graph entry.name entry.type).value with
    | ok view => simp [hn]
    | error reason => simp [hn]
  · rw [value_convertWith_of_not_contains hn]
    simp [hn, eq_comm]

/-- After any calls on a new registry, a name and the conversion of the graph that has the last
export with the folded name give the same: the view or the rejection that stands between those of
the exports before it and those of the exports after it. Only where there is no such export nothing
is found; so spellings that are folded to the same give the same views, and all names of the
registry are found. -/
theorem convertWith_of_calls {σ : Type} [Host (StateM σ)] (fold : String → String)
    (calls : List LoadingCall) (s : σ) (conventions : Conventions) (hook : Hook) :
    let r := ((performAll fold {} calls : StateM σ _).run s).1.2
    let converted := fun n => (r.convertWith conventions hook n fold).value
    let all := fun g entries => (convertEntriesWith conventions hook g entries).value
    (∀ n earlier loaded before entry after,
      LastExport fold r.graphs (fold n) earlier loaded before entry after →
        let g : Graph := loaded.graph
        let whole := (convertGraphWith conventions hook g).value
        (∀ view, converted n = .ok view ↔ whole.ViewBetween (all g before) (all g after) view) ∧
        ∀ name reason, converted n = .error (.notComponent name reason) ↔
          name = entry.name ∧ whole.RejectionBetween (all g before) (all g after) name reason) ∧
    (∀ n missing, converted n = .error (.componentNotFound missing) ↔
      missing = n ∧ ¬ ∃ e ∈ exportsOf r.graphs, fold e.name = fold n) ∧
    (∀ n n', fold n = fold n' → ∀ view, converted n = .ok view ↔ converted n' = .ok view) ∧
    ∀ n ∈ r.names, r.contains n fold ∧
      ∀ missing, converted n ≠ .error (.componentNotFound missing) := by
  intro r converted all
  have hresolves : Resolves fold r := (indexed_performAll fold calls s).resolves
  refine ⟨?_, fun n missing => hresolves.value_convertWith_eq_componentNotFound_iff, ?_, ?_⟩
  · intro n earlier loaded before entry after hlast g whole
    -- The export that is found is converted in its own graph, like all others of that graph.
    have hconverted : converted n =
        match (convertComponentWith conventions hook g entry.name entry.type).value with
        | .ok view => .ok view
        | .error reason => .error (.notComponent entry.name reason) :=
      hresolves.value_convertWith hlast
    refine ⟨fun view => ?_, fun name reason => ?_⟩
    · rw [viewBetween_iff hlast.components, hconverted]
      cases (convertComponentWith conventions hook g entry.name entry.type).value <;> simp
    · rw [rejectionBetween_iff hlast.components, hconverted]
      cases (convertComponentWith conventions hook g entry.name entry.type).value with
      | ok view => simp
      | error other => simp [eq_comm]
  · intro n n' hfold view
    exact ⟨value_convertWith_of_fold hfold, value_convertWith_of_fold hfold.symm⟩
  · intro n hn
    have hcontains : r.contains n fold := by
      rw [hresolves.contains_iff, ← hresolves.mem_fold_names]
      exact List.mem_map_of_mem hn
    refine ⟨hcontains, fun missing hmissing => ?_⟩
    rw [hresolves.value_convertWith_eq_componentNotFound_iff, ← hresolves.contains_iff] at hmissing
    exact hmissing.2 hcontains

end Registry

end ComponentViews
