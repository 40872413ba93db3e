import ComponentViews.Proofs.Graph.Consistency
import Mathlib.Data.List.Induction
import Mathlib.Logic.Function.Basic

/-!
# Defects of documents

A document is refused for its first defect: a type whose id occurred before, else a reference that
leads nowhere, else an export whose type is unknown. Each kind of defect is looked for in the whole
document before the next one, so a document that is not refused has none of any kind.

The types of a graph are kept in a list. This is as good as a table by ids into which they are entered
one after another, where of types with one id only the last would be left: such types are refused.

## Main definitions

* `TypeNode.RefersTo`: a type refers to an id by one of its parts.
* `GraphDocument.Has`: an id is that of a type of the document.
* `TypeNode.tableOf`: the types that are found by their ids after all have been entered.
* `GraphDocument.FirstDefect`: what is the first defect of a document.

## Main results

* `GraphDocument.consistent_iff`: what consistency says about each kind of reference.
* `GraphDocument.defect?_eq_some_iff`: the defect that is found is the first.
* `Graph.node?_eq_tableOf`: where ids are distinct, the first type with an id is the last one.
* `Graph.ofDocument_decides`: which documents have a graph, what it holds, and why others have none.
-/

namespace ComponentViews

/-! ## References -/

/-- A type refers to an id by a branch, an argument, a signature or a member. -/
inductive TypeNode.RefersTo (n : TypeNode) (u : TypeId) : Prop
  | union (h : u ∈ n.union)
  | intersection (h : u ∈ n.intersection)
  | argument (h : u ∈ n.typeArguments)
  | parameter {s : Signature} (hs : s ∈ n.signatures) (h : u ∈ s.parameters)
  | returnType {s : Signature} (hs : s ∈ n.signatures) (h : u = s.returnType)
  | property {p : PropertySymbol} (hp : p ∈ n.properties) (h : u = p.type)

theorem Signature.mem_references_iff {s : Signature} {u : TypeId} :
    u ∈ s.references ↔ u ∈ s.parameters ∨ u = s.returnType := by
  rw [references, List.mem_append, List.mem_singleton]

/-- The references of a type are the ids that it refers to. -/
theorem TypeNode.mem_references_iff {n : TypeNode} {u : TypeId} :
    u ∈ n.references ↔ n.RefersTo u := by
  unfold references
  simp only [List.mem_append, List.mem_flatMap, List.mem_map, Signature.mem_references_iff]
  constructor
  · rintro ((((h | h) | h) | ⟨s, hs, h | h⟩) | ⟨p, hp, h⟩)
    · exact .union h
    · exact .intersection h
    · exact .argument h
    · exact .parameter hs h
    · exact .returnType hs h
    · exact .property hp h.symm
  · intro h
    cases h with
    | union h => exact .inl (.inl (.inl (.inl h)))
    | intersection h => exact .inl (.inl (.inl (.inr h)))
    | argument h => exact .inl (.inl (.inr h))
    | parameter hs h => exact .inl (.inr ⟨_, hs, .inl h⟩)
    | returnType hs h => exact .inl (.inr ⟨_, hs, .inr h⟩)
    | property hp h => exact .inr ⟨_, hp, h.symm⟩

namespace GraphDocument

variable {d : GraphDocument}

/-- An id is that of a type of the document. -/
def Has (d : GraphDocument) (u : TypeId) : Prop := ∃ n ∈ d.types, n.id = u

theorem mem_ids_iff {u : TypeId} : u ∈ d.types.map (·.id) ↔ d.Has u := List.mem_map

theorem consistent_iff :
    d.Consistent ↔ (d.types.map (·.id)).Nodup ∧ (∀ n ∈ d.types, ∀ u, n.RefersTo u → d.Has u) ∧
      ∀ c ∈ d.components, d.Has c.type := by
  simp only [← mem_ids_iff, ← TypeNode.mem_references_iff]
  exact ⟨fun h => ⟨h.nodup, h.references, h.components⟩, fun ⟨h₁, h₂, h₃⟩ => ⟨h₁, h₂, h₃⟩⟩

end GraphDocument

/-! ## First defects -/

/-- The first repeated element comes after distinct elements that have not been seen. -/
theorem firstRepeated?_eq_some_iff {α : Type} [DecidableEq α] {seen xs : List α} {x : α} :
    firstRepeated? seen xs = some x ↔
      ∃ before after, xs = before ++ x :: after ∧ (before.Nodup ∧ ∀ y ∈ before, y ∉ seen) ∧
        (x ∈ seen ∨ x ∈ before) := by
  induction xs generalizing seen with
  | nil => simp [firstRepeated?]
  | cons y ys ih =>
    rw [firstRepeated?]
    constructor
    · intro h
      split at h
      · rename_i hy
        obtain rfl := Option.some.inj h
        exact ⟨[], ys, rfl, by simp, .inl hy⟩
      · -- From now on the element that was passed is one of those seen.
        rename_i hy
        obtain ⟨before, after, rfl, ⟨hnd, hseen⟩, hx⟩ := ih.1 h
        refine ⟨y :: before, after, rfl, ⟨?_, ?_⟩, ?_⟩
        · exact List.nodup_cons.2 ⟨fun hm => hseen y hm List.mem_cons_self, hnd⟩
        · exact List.forall_mem_cons.2
            ⟨hy, fun z hz hs => hseen z hz (List.mem_cons_of_mem y hs)⟩
        · rw [List.mem_cons]
          rcases hx with hx | hx
          · rcases List.mem_cons.1 hx with rfl | hx
            · exact .inr (.inl rfl)
            · exact .inl hx
          · exact .inr (.inr hx)
    · rintro ⟨_ | ⟨b, before⟩, after, hsplit, ⟨hnd, hseen⟩, hx⟩
      · obtain ⟨rfl, rfl⟩ := List.cons.inj hsplit
        rw [if_pos (hx.resolve_right List.not_mem_nil)]
      · obtain ⟨rfl, rfl⟩ := List.cons.inj hsplit
        rw [if_neg (hseen y List.mem_cons_self)]
        rw [List.nodup_cons] at hnd
        refine ih.2 ⟨before, after, rfl, ⟨hnd.2, fun z hz hs => ?_⟩, ?_⟩
        · rcases List.mem_cons.1 hs with rfl | hs
          · exact hnd.1 hz
          · exact hseen z (List.mem_cons_of_mem y hz) hs
        · rw [List.mem_cons] at hx ⊢
          rcases hx with hx | rfl | hx
          · exact .inl (.inr hx)
          · exact .inl (.inl rfl)
          · exact .inr hx

namespace GraphDocument

variable {d : GraphDocument}

/-- What the first defect of a document is. A defect of a later kind counts only where there is none
of the kinds before. -/
inductive FirstDefect (d : GraphDocument) : GraphError → Prop
  /-- Of the types whose id occurred before, it is the first. -/
  | duplicateId {before after : List TypeNode} {n : TypeNode}
      (hsplit : d.types = before ++ n :: after) (hbefore : (before.map (·.id)).Nodup)
      (hid : ∃ m ∈ before, m.id = n.id) : FirstDefect d (.duplicateId n.id)
  /-- Of the types that refer to an unknown id, it is the first, with the first of these ids. -/
  | danglingReference {before after : List TypeNode} {n : TypeNode} {resolved rest : List TypeId}
      {u : TypeId} (hids : (d.types.map (·.id)).Nodup) (hsplit : d.types = before ++ n :: after)
      (hbefore : ∀ m ∈ before, ∀ v, m.RefersTo v → d.Has v)
      (hreferences : n.references = resolved ++ u :: rest) (hresolved : ∀ v ∈ resolved, d.Has v)
      (hunknown : ¬ d.Has u) : FirstDefect d (.danglingReference n.id u)
  /-- Of the exports with an unknown type, it is the first. -/
  | unknownComponentType {before after : List ComponentEntry} {c : ComponentEntry}
      (hids : (d.types.map (·.id)).Nodup) (hreferences : ∀ n ∈ d.types, ∀ u, n.RefersTo u → d.Has u)
      (hsplit : d.components = before ++ c :: after) (hbefore : ∀ b ∈ before, d.Has b.type)
      (hunknown : ¬ d.Has c.type) : FirstDefect d (.unknownComponentType c.name c.type)

/-- The first type whose id occurred before. -/
theorem firstRepeated?_ids_eq_some_iff {u : TypeId} :
    firstRepeated? [] (d.types.map (·.id)) = some u ↔
      ∃ before n after, d.types = before ++ n :: after ∧ (before.map (·.id)).Nodup ∧
        (∃ m ∈ before, m.id = n.id) ∧ n.id = u := by
  rw [firstRepeated?_eq_some_iff]
  constructor
  · rintro ⟨ids, rest, hsplit, ⟨hnd, -⟩, hu⟩
    obtain ⟨before, ns, htypes, rfl, hns⟩ := List.map_eq_append_iff.1 hsplit
    obtain ⟨n, after, rfl, hn, -⟩ := List.map_eq_cons_iff.1 hns
    subst hn
    exact ⟨before, n, after, htypes, hnd, List.mem_map.1 (hu.resolve_left List.not_mem_nil), rfl⟩
  · rintro ⟨before, n, after, htypes, hnd, hid, rfl⟩
    refine ⟨before.map (·.id), after.map (·.id), ?_, ⟨hnd, fun _ _ => List.not_mem_nil⟩,
      .inr (List.mem_map.2 hid)⟩
    rw [htypes, List.map_append, List.map_cons]

/-- The first element of a list that has an unknown id. -/
theorem find?_unknown_eq_some_iff {α : Type} {key : α → TypeId} {xs : List α} {x : α} :
    (xs.find? fun y => key y ∉ d.types.map (·.id)) = some x ↔
      ∃ before after, xs = before ++ x :: after ∧ (∀ y ∈ before, d.Has (key y)) ∧
        ¬ d.Has (key x) := by
  rw [List.find?_eq_some_iff_append]
  simp only [decide_not, Bool.not_eq_true', decide_eq_false_iff_not, Bool.not_not,
    decide_eq_true_eq, mem_ids_iff]
  constructor
  · rintro ⟨hx, before, after, hsplit, hbefore⟩
    exact ⟨before, after, hsplit, hbefore, hx⟩
  · rintro ⟨before, after, hsplit, hbefore, hx⟩
    exact ⟨hx, before, after, hsplit, hbefore⟩

theorem missing?_eq_some_iff {n : TypeNode} {u : TypeId} :
    n.missing? (d.types.map (·.id)) = some u ↔
      ∃ resolved rest, n.references = resolved ++ u :: rest ∧ (∀ v ∈ resolved, d.Has v) ∧
        ¬ d.Has u :=
  find?_unknown_eq_some_iff

theorem missing?_eq_none_iff {n : TypeNode} :
    n.missing? (d.types.map (·.id)) = none ↔ ∀ u, n.RefersTo u → d.Has u := by
  rw [TypeNode.missing?_eq_none_iff]
  simp only [mem_ids_iff, TypeNode.mem_references_iff]

/-- The first type that refers to an unknown id, with the first of these ids. -/
theorem findSome?_missing?_eq_some_iff {source target : TypeId} :
    (d.types.findSome? fun n => (n.missing? (d.types.map (·.id))).map fun t => (n.id, t)) =
        some (source, target) ↔
      ∃ before n after, d.types = before ++ n :: after ∧
        (∀ m ∈ before, ∀ v, m.RefersTo v → d.Has v) ∧
        n.missing? (d.types.map (·.id)) = some target ∧ n.id = source := by
  rw [List.findSome?_eq_some_iff]
  simp only [Option.map_eq_none_iff, Option.map_eq_some_iff, Prod.mk.injEq, missing?_eq_none_iff]
  constructor
  · rintro ⟨before, n, after, hsplit, ⟨_, hmissing, hid, rfl⟩, hbefore⟩
    exact ⟨before, n, after, hsplit, hbefore, hmissing, hid⟩
  · rintro ⟨before, n, after, hsplit, hbefore, hmissing, hid⟩
    exact ⟨before, n, after, hsplit, ⟨target, hmissing, hid, rfl⟩, hbefore⟩

theorem findSome?_missing?_eq_none_iff :
    (d.types.findSome? fun n => (n.missing? (d.types.map (·.id))).map fun t => (n.id, t)) = none ↔
      ∀ n ∈ d.types, ∀ u, n.RefersTo u → d.Has u := by
  simp only [List.findSome?_eq_none_iff, Option.map_eq_none_iff, missing?_eq_none_iff]

/-- The defect that is found is the first. -/
theorem defect?_eq_some_iff {e : GraphError} : d.defect? = some e ↔ d.FirstDefect e := by
  have hdistinct : firstRepeated? [] (d.types.map (·.id)) = none ↔ (d.types.map (·.id)).Nodup := by
    simp [firstRepeated?_eq_none_iff]
  unfold defect?
  dsimp only
  constructor
  · -- Where a kind of defect is looked for, none of the kinds before has been found.
    intro h
    split at h
    · rename_i hrepeated
      obtain rfl := Option.some.inj h
      obtain ⟨before, n, after, hsplit, hnd, hid, rfl⟩ := firstRepeated?_ids_eq_some_iff.1 hrepeated
      exact .duplicateId hsplit hnd hid
    rename_i hrepeated
    split at h
    · rename_i hdangling
      obtain rfl := Option.some.inj h
      obtain ⟨before, n, after, hsplit, hbefore, hmissing, rfl⟩ :=
        findSome?_missing?_eq_some_iff.1 hdangling
      obtain ⟨resolved, rest, hreferences, hresolved, hu⟩ := missing?_eq_some_iff.1 hmissing
      exact .danglingReference (hdistinct.1 hrepeated) hsplit hbefore hreferences hresolved hu
    rename_i hdangling
    split at h
    · rename_i hunknown
      obtain rfl := Option.some.inj h
      obtain ⟨before, after, hsplit, hbefore, hc⟩ := find?_unknown_eq_some_iff.1 hunknown
      exact .unknownComponentType (hdistinct.1 hrepeated)
        (findSome?_missing?_eq_none_iff.1 hdangling) hsplit hbefore hc
    · cases h
  · intro hfirst
    -- Each kind says that the searches before it find nothing.
    cases hfirst with
    | duplicateId hsplit hbefore hid =>
      rw [firstRepeated?_ids_eq_some_iff.2 ⟨_, _, _, hsplit, hbefore, hid, rfl⟩]
    | danglingReference hids hsplit hbefore hreferences hresolved hunknown =>
      have hmissing := missing?_eq_some_iff.2 ⟨_, _, hreferences, hresolved, hunknown⟩
      rw [hdistinct.2 hids,
        findSome?_missing?_eq_some_iff.2 ⟨_, _, _, hsplit, hbefore, hmissing, rfl⟩]
    | unknownComponentType hids hreferences hsplit hbefore hunknown =>
      rw [hdistinct.2 hids, findSome?_missing?_eq_none_iff.2 hreferences,
        find?_unknown_eq_some_iff.2 ⟨_, _, hsplit, hbefore, hunknown⟩]

end GraphDocument

/-! ## Tables of types -/

/-- The types that are found by their ids after those of a list have been entered one after another.
A type that is entered takes the place of one with the same id. -/
def TypeNode.tableOf (types : List TypeNode) : TypeId → Option TypeNode :=
  types.foldl (fun table n => Function.update table n.id (some n)) fun _ => none

/-- In a table the last type with an id is found. -/
theorem TypeNode.tableOf_eq_find?_reverse (types : List TypeNode) (t : TypeId) :
    tableOf types t = types.reverse.find? fun n => n.id = t := by
  unfold tableOf
  -- By induction from the end: the type that is entered last hides those with its id.
  induction types using List.reverseRecOn with
  | nil => rfl
  | append_singleton types n ih =>
    rw [List.foldl_append, List.foldl_cons, List.foldl_nil, List.reverse_append,
      List.reverse_singleton, List.singleton_append, List.find?_cons, Function.update_apply]
    by_cases hn : t = n.id
    · simp [hn]
    · rw [if_neg hn, ih, decide_eq_false (Ne.symm hn)]

namespace Graph

/-- Where ids are distinct, a type with an id is the one that is found. -/
theorem node?_eq_some_iff {g : Graph} (hnd : g.ids.Nodup) {t : TypeId} {n : TypeNode} :
    g.node? t = some n ↔ n ∈ g.types ∧ n.id = t := by
  constructor
  · intro h
    exact ⟨mem_types_of_node? h, id_of_node? h⟩
  · rintro ⟨hn, rfl⟩
    exact node?_of_mem hnd hn

/-- Where ids are distinct, the first type with an id is the last one, which a table would hold. -/
theorem node?_eq_tableOf {g : Graph} (hnd : g.ids.Nodup) (t : TypeId) :
    g.node? t = TypeNode.tableOf g.types t := by
  have hreverse : (Graph.mk g.types.reverse g.components).ids.Nodup := by
    rw [ids, List.map_reverse]
    exact List.nodup_reverse.2 hnd
  -- In either order the type that is found is the only one with the id.
  ext n
  rw [TypeNode.tableOf_eq_find?_reverse]
  change g.node? t = some n ↔ (Graph.mk g.types.reverse g.components).node? t = some n
  rw [node?_eq_some_iff hnd, node?_eq_some_iff hreverse, List.mem_reverse]

/-- **Which documents have a graph.** A document has one exactly if its ids are distinct, each id that
a type refers to is that of a type, and so is the type of each export. The graph then has as many types
as the document, finds each under its id as it would be found in a table, and has the exports in their
order. Any other document is refused for its first defect. -/
theorem ofDocument_decides (d : GraphDocument) :
    ((∃ g, ofDocument d = .ok g) ↔
      (d.types.map (·.id)).Nodup ∧ (∀ n ∈ d.types, ∀ u, n.RefersTo u → d.Has u) ∧
        ∀ c ∈ d.components, d.Has c.type) ∧
    (∀ g, ofDocument d = .ok g →
      (g.size = d.types.length ∧ g.ids.length = d.types.length ∧ g.ids.Nodup ∧
        ∀ t, (g.node? t).isSome ↔ t ∈ g.ids) ∧
      (∀ t n, g.node? t = some n ↔ n ∈ d.types ∧ n.id = t) ∧
      (∀ t, g.node? t = TypeNode.tableOf d.types t) ∧ g.components = d.components) ∧
    ∀ e, ofDocument d = .error e ↔ d.FirstDefect e := by
  refine ⟨?_, ?_, fun e => ?_⟩
  · rw [← GraphDocument.consistent_iff]
    simp only [ofDocument_eq_ok_iff, exists_and_left, exists_eq, and_true]
  · intro g hg
    obtain ⟨hconsistent, rfl⟩ := (ofDocument_eq_ok_iff d g).1 hg
    have hnd : (Graph.mk d.types d.components).ids.Nodup := hconsistent.nodup
    exact ⟨⟨rfl, List.length_map _, hnd, isSome_node? _⟩, fun t n => node?_eq_some_iff hnd,
      node?_eq_tableOf hnd, rfl⟩
  · rw [← GraphDocument.defect?_eq_some_iff]
    unfold ofDocument
    cases d.defect? <;> simp

/-- A type that refers to itself and to a later one, which refers back. -/
def entangled : GraphDocument where
  types := [
    { id := ⟨4⟩, union := [⟨4⟩], signatures := [⟨[⟨2⟩], ⟨4⟩⟩] },
    { id := ⟨2⟩, properties := [⟨"next", ⟨4⟩, ""⟩] }]
  components := [⟨"Next", ⟨2⟩⟩]

/-- Two types, the second of which refers to unknown ids, with an export of unknown type. -/
def unresolved (first second : TypeId) : GraphDocument where
  types := [
    { id := first },
    { id := second, intersection := [⟨0⟩, ⟨9⟩], typeArguments := [⟨8⟩] }]
  components := [⟨"Next", ⟨0⟩⟩, ⟨"Lost", ⟨7⟩⟩]

/-- Types may refer to each other. Of several defects the first is reported. -/
theorem ofDocument_decides_unresolved :
    ofDocument entangled = .ok ⟨entangled.types, entangled.components⟩ ∧
      (∀ t, (Graph.mk entangled.types entangled.components).node? t =
        TypeNode.tableOf entangled.types t) ∧
      (unresolved ⟨0⟩ ⟨0⟩).FirstDefect (.duplicateId ⟨0⟩) ∧
      (unresolved ⟨0⟩ ⟨1⟩).FirstDefect (.danglingReference ⟨1⟩ ⟨9⟩) ∧
      GraphDocument.FirstDefect ⟨[{ id := ⟨0⟩ }], (unresolved ⟨0⟩ ⟨1⟩).components⟩
        (.unknownComponentType "Lost" ⟨7⟩) := by
  have hentangled : ofDocument entangled = .ok ⟨entangled.types, entangled.components⟩ := rfl
  have htable := ((ofDocument_decides entangled).2.1 _ hentangled).2.2.1
  exact ⟨hentangled, htable, ((ofDocument_decides _).2.2 _).1 rfl,
    ((ofDocument_decides _).2.2 _).1 rfl, ((ofDocument_decides _).2.2 _).1 rfl⟩

end Graph

end ComponentViews
