import ComponentViews.Proofs.Registry.Contents
import Mathlib.Data.List.Nodup

/-!
# How names are resolved

A name leads to the last of all exports whose names are folded to the same, with the graph that it
is of. The names that can be found are those of these last exports, one for each folded name.

## Main definitions

* `LastExport`: the last export of some graphs with a folded name.
* `Registry.Resolves`: what a registry finds, and under which names.

## Main results

* `lastExport_concat_iff`: how one more graph changes the last export.
* `location?_eq_some_iff`: the last of the places of exports is that of the last export.
* `Indexed.resolves`: a registry that finds what its graphs determine resolves names.
-/

namespace ComponentViews

/-- An export is the last one of some graphs whose name is folded to a key: it stands between two
lists of others in one of the graphs, after some graphs, and no export after it there or in a later
graph has such a name. -/
structure LastExport (fold : String → String) (graphs : List LoadedGraph) (key : String)
    (earlier : List LoadedGraph) (loaded : LoadedGraph) (before : List ComponentEntry)
    (entry : ComponentEntry) (after : List ComponentEntry) : Prop where
  components : loaded.graph.components = before ++ entry :: after
  fold_name : fold entry.name = key
  not_after : ∀ e ∈ after, fold e.name ≠ key
  not_later : ∃ later, graphs = earlier ++ loaded :: later ∧
    ∀ e ∈ exportsOf later, fold e.name ≠ key

/-! ## The last value with a key -/

section Values

variable {α β : Type} {k : String}

/-- The last of some elements with a key gives the value, read from the end. -/
theorem valueOf?_reverse_eq_some_iff {key : α → String} {value : α → β} {xs : List α} {b : β} :
    valueOf? (xs.map fun x => (key x, value x)).reverse k = some b ↔
      ∃ before x after, xs = before ++ x :: after ∧ key x = k ∧ (∀ y ∈ after, key y ≠ k) ∧
        value x = b := by
  have hfind : valueOf? (xs.map fun x => (key x, value x)).reverse k =
      (xs.reverse.find? fun x => key x = k).map value := by
    rw [valueOf?, ← List.map_reverse, List.find?_map, Option.map_map]
    rfl
  rw [hfind, Option.map_eq_some_iff]
  constructor
  · rintro ⟨x, hx, rfl⟩
    obtain ⟨hkey, as, bs, hsplit, has⟩ := List.find?_eq_some_iff_append.1 hx
    refine ⟨bs.reverse, x, as.reverse, ?_, by simpa using hkey, by simpa using has, rfl⟩
    rw [← List.reverse_reverse xs, hsplit]
    simp
  · rintro ⟨before, x, after, rfl, hkey, hafter, rfl⟩
    refine ⟨x, List.find?_eq_some_iff_append.2 ⟨by simpa using hkey, after.reverse, before.reverse,
      by simp, by simpa using hafter⟩, rfl⟩

end Values

/-! ## The last export -/

section Last

variable {fold : String → String} {graphs earlier : List LoadedGraph} {key : String}
  {loaded more : LoadedGraph} {before after : List ComponentEntry} {entry : ComponentEntry}

/-- The last export is in the last graph, or the last graph has none of the name. -/
theorem lastExport_concat_iff :
    LastExport fold (graphs ++ [more]) key earlier loaded before entry after ↔
      (earlier = graphs ∧ loaded = more ∧ more.graph.components = before ++ entry :: after ∧
        fold entry.name = key ∧ ∀ e ∈ after, fold e.name ≠ key) ∨
      (∀ e ∈ more.graph.components, fold e.name ≠ key) ∧
        LastExport fold graphs key earlier loaded before entry after := by
  constructor
  · rintro ⟨hcomponents, hname, hafter, later, hgraphs, hlater⟩
    -- It is in the graph that was loaded last, unless none of the exports there has the key.
    rcases List.eq_nil_or_concat later with rfl | ⟨later, last, rfl⟩
    · obtain ⟨rfl, hlast⟩ := List.append_inj' hgraphs rfl
      obtain rfl : more = loaded := by simpa using hlast
      exact .inl ⟨rfl, rfl, hcomponents, hname, hafter⟩
    · rw [List.concat_eq_append] at hgraphs hlater
      have hsplit : graphs ++ [more] = (earlier ++ loaded :: later) ++ [last] := by simpa using hgraphs
      obtain ⟨rfl, hlast⟩ := List.append_inj' hsplit rfl
      obtain rfl : more = last := by simpa using hlast
      rw [exportsOf_concat] at hlater
      refine .inr ⟨fun e he => hlater e (List.mem_append_right _ he), hcomponents, hname, hafter,
        later, rfl, fun e he => hlater e (List.mem_append_left _ he)⟩
  · rintro (⟨rfl, rfl, hcomponents, hname, hafter⟩ |
      ⟨hmore, hcomponents, hname, hafter, later, rfl, hlater⟩)
    · exact ⟨hcomponents, hname, hafter, [], rfl, by simp⟩
    · refine ⟨hcomponents, hname, hafter, later ++ [more], by simp, fun e he => ?_⟩
      rw [exportsOf_concat] at he
      exact (List.mem_append.1 he).elim (hlater e) (hmore e)

/-- The last of the places of exports is that of the last export. -/
theorem location?_eq_some_iff {l : ComponentLocation} :
    valueOf? ((locationsOf graphs).map fun l => (fold l.name, l)).reverse key = some l ↔
      ∃ earlier loaded before entry after,
        LastExport fold graphs key earlier loaded before entry after ∧
          entry.location earlier.length = l := by
  -- By induction from the end: exports of the last graph hide those before.
  induction graphs using List.reverseRecOn with
  | nil =>
    refine iff_of_false (by simp [locationsOf, valueOf?]) ?_
    rintro ⟨earlier, loaded, before, entry, after, ⟨-, -, -, later, hnil, -⟩, -⟩
    simp at hnil
  | append_singleton graphs more ih =>
    have hmap : (more.graph.components.map (·.location graphs.length)).map
        (fun l => (fold l.name, l)) =
        more.graph.components.map fun e => (fold e.name, e.location graphs.length) := by
      simp [ComponentEntry.location]
    rw [locationsOf_concat, List.map_append, List.reverse_append, valueOf?_append, hmap,
      Option.or_eq_some_iff, valueOf?_reverse_eq_some_iff, ih]
    have hnone : valueOf? (more.graph.components.map fun e =>
        (fold e.name, e.location graphs.length)).reverse key = none ↔
        ∀ e ∈ more.graph.components, fold e.name ≠ key := by
      rw [← Option.not_isSome_iff_eq_none, isSome_valueOf?_iff]
      simp
    rw [hnone]
    simp only [lastExport_concat_iff]
    constructor
    · rintro (⟨before, entry, after, hsplit, hname, hafter, hl⟩ |
        ⟨hmore, earlier, loaded, before, entry, after, hlast, hl⟩)
      · exact ⟨graphs, more, before, entry, after, .inl ⟨rfl, rfl, hsplit, hname, hafter⟩, hl⟩
      · exact ⟨earlier, loaded, before, entry, after, .inr ⟨hmore, hlast⟩, hl⟩
    · rintro ⟨earlier, loaded, before, entry, after,
        ⟨rfl, rfl, hsplit, hname, hafter⟩ | ⟨hmore, hlast⟩, hl⟩
      · exact .inl ⟨before, entry, after, hsplit, hname, hafter, hl⟩
      · exact .inr ⟨hmore, earlier, loaded, before, entry, after, hlast, hl⟩

theorem map_name_locationsOf (graphs : List LoadedGraph) :
    (locationsOf graphs).map (·.name) = (exportsOf graphs).map (·.name) := by
  induction graphs using List.reverseRecOn with
  | nil => rfl
  | append_singleton graphs loaded ih =>
    rw [locationsOf_concat, exportsOf_concat, List.map_append, List.map_append, ih, List.map_map]
    rfl

end Last

/-! ## What is found -/

namespace Registry

variable {fold : String → String} {r : Registry}

/-- A registry finds under a name the last export with that folded name, and has one name for each
of the folded names of its exports. -/
structure Resolves (fold : String → String) (r : Registry) : Prop where
  contains_iff : ∀ n, r.contains n fold ↔ ∃ e ∈ exportsOf r.graphs, fold e.name = fold n
  find?_eq_some_iff : ∀ n l, r.find? n fold = some l ↔ ∃ earlier loaded before entry after,
    LastExport fold r.graphs (fold n) earlier loaded before entry after ∧
      l = { name := entry.name, graphIndex := earlier.length, type := entry.type }
  ascending_names : r.names.Pairwise (· < ·)
  nodup_fold_names : (r.names.map fold).Nodup
  mem_fold_names : ∀ k, k ∈ r.names.map fold ↔ ∃ e ∈ exportsOf r.graphs, fold e.name = k

theorem Indexed.find?_eq (h : Indexed fold r) (n : String) :
    r.find? n fold =
      valueOf? ((locationsOf r.graphs).map fun l => (fold l.name, l)).reverse (fold n) := by
  rw [find?, h, valueOf?_sortFields]

/-- The keys of a registry are the folded names of exports. -/
theorem Indexed.mem_keys_iff (h : Indexed fold r) (k : String) :
    k ∈ r.components.map (·.1) ↔ ∃ e ∈ exportsOf r.graphs, fold e.name = k := by
  have hnames : ((locationsOf r.graphs).map fun l => (fold l.name, l)).map (·.1) =
      ((exportsOf r.graphs).map (·.name)).map fold := by
    rw [← map_name_locationsOf, List.map_map, List.map_map]
    rfl
  rw [h, mem_keys_sortFields, hnames]
  simp

/-- Each export is found under its own folded name. -/
theorem Indexed.map_fold_name (h : Indexed fold r) :
    (r.components.map (·.2.name)).map fold = r.components.map (·.1) := by
  rw [List.map_map]
  refine List.map_congr_left fun f hf => ?_
  rw [h] at hf
  obtain ⟨l, -, rfl⟩ := List.mem_map.1 (mem_of_mem_sortFields hf)
  rfl

theorem Indexed.nodup_keys (h : Indexed fold r) : (r.components.map (·.1)).Nodup := by
  have hascending : Ascending r.components := h ▸ ascending_sortFields _
  refine List.pairwise_map.2 (hascending.imp fun {f g} hlt he => ?_)
  exact String.lt_irrefl g.1 (he ▸ hlt)

theorem names_perm (r : Registry) : r.names.Perm (r.components.map (·.2.name)) :=
  List.mergeSort_perm _ _

@[simp] theorem length_names (r : Registry) : r.names.length = r.components.length := by
  rw [r.names_perm.length_eq, List.length_map]

theorem Indexed.fold_names_perm (h : Indexed fold r) :
    (r.names.map fold).Perm (r.components.map (·.1)) :=
  h.map_fold_name ▸ r.names_perm.map fold

/-- The names are in order, and no two of them are the same. -/
theorem Indexed.ascending_names (h : Indexed fold r) : r.names.Pairwise (· < ·) := by
  have hsorted : r.names.Pairwise fun a b => !decide (b < a) := by
    refine List.pairwise_mergeSort (fun a b c hab hbc => ?_) (fun a b => ?_) _
    · simp only [Bool.not_eq_true', decide_eq_false_iff_not, String.not_lt] at hab hbc ⊢
      exact String.le_trans hab hbc
    · simp only [Bool.or_eq_true, Bool.not_eq_true', decide_eq_false_iff_not, String.not_lt]
      exact String.le_total a b
  have hnodup : r.names.Nodup :=
    List.Nodup.of_map fold (h.fold_names_perm.nodup_iff.2 h.nodup_keys)
  refine (hsorted.and hnodup).imp fun {a b} ⟨hle, hne⟩ => ?_
  by_contra hlt
  simp only [Bool.not_eq_true', decide_eq_false_iff_not, String.not_lt] at hle hlt
  exact hne (String.le_antisymm hle hlt)

theorem Indexed.resolves (h : Indexed fold r) : Resolves fold r where
  contains_iff n := by
    rw [contains, find?, isSome_valueOf?_iff, h.mem_keys_iff]
  find?_eq_some_iff n l := by
    rw [h.find?_eq, location?_eq_some_iff]
    simp only [ComponentEntry.location, eq_comm]
  ascending_names := h.ascending_names
  nodup_fold_names := h.fold_names_perm.nodup_iff.2 h.nodup_keys
  mem_fold_names k := by
    rw [h.fold_names_perm.mem_iff, h.mem_keys_iff]

end Registry

end ComponentViews
