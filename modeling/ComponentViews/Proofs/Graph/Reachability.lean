import ComponentViews.Graph.Rendering
import Mathlib.Data.Fintype.Card
import Mathlib.Data.Fintype.EquivFin
import Mathlib.Logic.Relation
import Mathlib.Order.WellFounded

/-!
# Reachability in type graphs

The branches of a union or an intersection and the arguments of a generic type are what the type is
made of. Members and signatures are not: a type of objects may well have a member of its own type.
As there are finitely many ids, a type from which no cycle can be reached is made of others by
well-founded steps.

## Main definitions

* `TypeGraph.Edge`, `TypeGraph.Reaches`: what a type is made of, in one step and in any number.
* `TypeGraph.Acyclic`, `TypeGraph.AcyclicType`: the types from which no cycle can be reached.
* `TypeNode.constituents`: the branches and arguments of a type.

## Main results

* `TypeGraph.acyclic_of_rank`: no cycle can be reached where every edge leads down.
* `TypeGraph.wellFounded_below`: recursion along the edges from acyclic types ends.
* `Graph.exists_node_of_edge`: in a graph an edge leads from a type to one of its constituents.
-/

namespace ComponentViews

open Relation

instance : Finite TypeId :=
  Finite.of_injective (fun t : TypeId => t.value.toFin) fun s t h => by
    cases s
    cases t
    simpa [UInt32.toFin_inj] using h

namespace TypeGraph

variable {G : TypeGraph} {s t u : TypeId}

/-- A type is a branch or an argument of another. -/
def Edge (G : TypeGraph) (t b : TypeId) : Prop :=
  b ∈ (G.unionTypes t).getD [] ∨ b ∈ (G.intersectionTypes t).getD [] ∨ b ∈ G.typeArguments t

/-- A type is another or leads to it along edges. -/
def Reaches (G : TypeGraph) : TypeId → TypeId → Prop := ReflTransGen G.Edge

/-- From a type no cycle of edges can be reached. -/
def Acyclic (G : TypeGraph) (t : TypeId) : Prop := ∀ u, G.Reaches t u → ¬ TransGen G.Edge u u

theorem Acyclic.of_edge (h : G.Acyclic t) (he : G.Edge t s) : G.Acyclic s := fun u hu =>
  h u (ReflTransGen.head he hu)

/-- The start of an edge is not reached from its end. -/
theorem Acyclic.ne_of_reaches (h : G.Acyclic t) (he : G.Edge t s) (hs : G.Reaches s u) :
    u ≠ t := by
  rintro rfl
  exact h u ReflTransGen.refl (TransGen.head' he hs)

/-! ## Ranks -/

section Rank

variable {rank : TypeId → Nat} (h : ∀ t b, G.Edge t b → rank b < rank t)
include h

theorem rank_le_of_reaches (hu : G.Reaches t u) : rank u ≤ rank t := by
  induction hu with
  | refl => exact le_rfl
  | tail _ he ih => exact (h _ _ he).le.trans ih

/-- Where every edge leads to a smaller rank there are no cycles. -/
theorem acyclic_of_rank (t : TypeId) : G.Acyclic t := by
  intro u _ hu
  obtain ⟨v, he, hv⟩ := TransGen.head'_iff.1 hu
  exact absurd (rank_le_of_reaches h hv) (h u v he).not_ge

end Rank

/-! ## Recursion -/

/-- The types from which no cycle can be reached. -/
abbrev AcyclicType (G : TypeGraph) := {t : TypeId // G.Acyclic t}

/-- Steps along edges from acyclic types cannot go on forever. -/
theorem wellFounded_below (G : TypeGraph) :
    WellFounded fun b t : G.AcyclicType => TransGen G.Edge t.1 b.1 := by
  have : IsTrans G.AcyclicType fun b t => TransGen G.Edge t.1 b.1 :=
    ⟨fun a b c hab hbc => hbc.trans hab⟩
  have : Std.Irrefl fun b t : G.AcyclicType => TransGen G.Edge t.1 b.1 :=
    ⟨fun t ht => t.2 t.1 ReflTransGen.refl ht⟩
  exact Finite.wellFounded_of_trans_of_irrefl _

instance : WellFoundedRelation G.AcyclicType := ⟨_, G.wellFounded_below⟩

end TypeGraph

/-! ## Edges of graphs -/

/-- The branches and arguments of a type. -/
def TypeNode.constituents (n : TypeNode) : List TypeId :=
  n.union ++ n.intersection ++ n.typeArguments

namespace Graph

variable {g : Graph} {t b : TypeId}

theorem answer_of_node?_eq_none {α : Type} (h : g.node? t = none) (question : TypeNode → α)
    (otherwise : α) : g.answer t question otherwise = otherwise := by
  simp [answer, h]

theorem exists_node_of_edge (h : g.queries.Edge t b) :
    ∃ n, g.node? t = some n ∧ b ∈ n.constituents := by
  simp only [TypeGraph.Edge, queries, answering, unionTypes, intersectionTypes,
    typeArguments] at h
  cases hn : g.node? t with
  | none => simp [answer_of_node?_eq_none hn, Fallback.usual] at h
  | some n =>
    simp only [answer_of_node? hn, TypeNode.getD_unionTypes, TypeNode.getD_intersectionTypes] at h
    refine ⟨n, rfl, ?_⟩
    simp only [TypeNode.constituents, List.mem_append]
    rcases h with h | h | h
    · exact .inl (.inl h)
    · exact .inl (.inr h)
    · exact .inr h

/-- Ids are ranks if each type is made of types with smaller ids. -/
theorem lt_of_edge (hlt : ∀ n ∈ g.types, ∀ b ∈ n.constituents, b.value.toNat < n.id.value.toNat)
    (t b : TypeId) (h : g.queries.Edge t b) : b.value.toNat < t.value.toNat := by
  obtain ⟨n, hn, hb⟩ := exists_node_of_edge h
  have hlt := hlt n (mem_types_of_node? hn) b hb
  rwa [id_of_node? hn] at hlt

end Graph

end ComponentViews
