import ComponentViews.Graph.Basic
import Mathlib.Data.List.Nodup

/-!
# Consistent documents

A document is consistent if its ids are distinct and if every id that a type or an export refers to
is one of them. The documents that have a graph are the consistent ones, and in such a graph a type
is found under its id. The ids that can be reached from the exports of such a document are all ids
of types.

## Main definitions

* `GraphDocument.Consistent`: the ids are distinct and lead somewhere.
* `GraphDocument.Reachable`: the ids that references lead to from the exports.

## Main results

* `GraphDocument.defect?_eq_none_iff`: a document without defects is consistent.
* `Graph.ofDocument_eq_ok_iff`: the consistent documents have graphs.
* `GraphDocument.Consistent.mem_of_reachable`: the ids that can be reached are those of types.
* `Graph.node?_of_mem`: where ids are distinct, a type is found under its id.
-/

namespace ComponentViews

/-- The ids of a document are distinct, and all references and exports lead to them. -/
structure GraphDocument.Consistent (d : GraphDocument) : Prop where
  nodup : (d.types.map (·.id)).Nodup
  references : ∀ n ∈ d.types, ∀ u ∈ n.references, u ∈ d.types.map (·.id)
  components : ∀ c ∈ d.components, c.type ∈ d.types.map (·.id)

theorem TypeNode.missing?_eq_none_iff (ids : List TypeId) (n : TypeNode) :
    n.missing? ids = none ↔ ∀ u ∈ n.references, u ∈ ids := by
  simp [missing?, List.find?_eq_none]

/-- A document without defects is consistent. -/
theorem GraphDocument.defect?_eq_none_iff (d : GraphDocument) :
    d.defect? = none ↔ d.Consistent := by
  have hids := firstRepeated?_eq_none_iff [] (d.types.map (·.id))
  unfold defect?
  dsimp only
  constructor
  · intro h
    split at h
    · cases h
    split at h
    · cases h
    split at h
    · cases h
    -- None of the three searches has found anything.
    rename_i hrepeated _ hdangling _ hunknown
    refine ⟨(hids.1 hrepeated).1, ?_, ?_⟩
    · intro n hn
      have hnone := List.findSome?_eq_none_iff.1 hdangling n hn
      exact (n.missing?_eq_none_iff _).1 (Option.map_eq_none_iff.1 hnone)
    · intro c hc
      simpa using List.find?_eq_none.1 hunknown c hc
  · intro h
    have hrepeated := hids.2 ⟨h.nodup, by simp⟩
    have hdangling : (d.types.findSome? fun n =>
        (n.missing? (d.types.map (·.id))).map fun t => (n.id, t)) = none := by
      refine List.findSome?_eq_none_iff.2 fun n hn => ?_
      rw [(n.missing?_eq_none_iff _).2 (h.references n hn), Option.map_none]
    have hunknown : (d.components.find? fun c => c.type ∉ d.types.map (·.id)) = none := by
      refine List.find?_eq_none.2 fun c hc => ?_
      simpa using h.components c hc
    rw [hrepeated, hdangling, hunknown]

/-- The ids that can be reached from the exports along references of all kinds. -/
inductive GraphDocument.Reachable (d : GraphDocument) : TypeId → Prop
  | component {c : ComponentEntry} (hc : c ∈ d.components) : Reachable d c.type
  | reference {n : TypeNode} {u : TypeId} (hn : n ∈ d.types) (hr : Reachable d n.id)
      (hu : u ∈ n.references) : Reachable d u

/-- The ids that can be reached are those of types. -/
theorem GraphDocument.Consistent.mem_of_reachable {d : GraphDocument} (h : d.Consistent)
    {t : TypeId} (ht : d.Reachable t) : t ∈ d.types.map (·.id) := by
  induction ht with
  | component hc => exact h.components _ hc
  | reference hn _ hu => exact h.references _ hn _ hu

namespace Graph

/-- The consistent documents have graphs. -/
theorem ofDocument_eq_ok_iff (d : GraphDocument) (g : Graph) :
    ofDocument d = .ok g ↔ d.Consistent ∧ g = ⟨d.types, d.components⟩ := by
  rw [← d.defect?_eq_none_iff]
  unfold ofDocument
  split
  · rename_i e he
    simp [he]
  · rename_i hnone
    simp [hnone, eq_comm]

/-- Where ids are distinct, a type is found under its id. -/
theorem node?_of_mem {g : Graph} (hnd : g.ids.Nodup) {n : TypeNode} (hn : n ∈ g.types) :
    g.node? n.id = some n := by
  obtain ⟨m, hm⟩ := Option.isSome_iff_exists.1
    ((g.isSome_node? n.id).2 (List.mem_map_of_mem hn))
  have hid : m.id = n.id := id_of_node? hm
  rw [hm, List.inj_on_of_nodup_map hnd (mem_types_of_node? hm) hn hid]

end Graph

end ComponentViews
