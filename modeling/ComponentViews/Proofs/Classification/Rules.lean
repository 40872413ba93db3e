import ComponentViews.Classification
import ComponentViews.Proofs.Graph.Reachability

/-!
# The rules of a classification

What the first rule that applies to a type can be, where its parts come from, and which types the
rules lead to.

## Main definitions

* `Classifier.RuleFor`: what the rule for a type can be.
* `Classifier.Occurs`: the types that are met while a type is classified.

## Main results

* `ruleFor_rule`: the rule for a type is one of these.
* `edge_of_mem_parts`: what a rule asks for is a branch or an argument of the type.
* `mem_ids_of_mem_parts`: only types of a graph have parts.
* `Occurs.reaches`: the types that are met are reached along edges.
* `classifyIn_eq_of_reaches`: of the types in progress only those that are reached matter.
-/

namespace ComponentViews

open Relation

namespace Classifier

/-- What the rule for a type can be. -/
inductive RuleFor (c : Classifier) (t : TypeId) : Rule → Prop
  | descriptor (d : Descriptor) : RuleFor c t (.settled (.ok d))
  | functionType : RuleFor c t (.settled (.error (.functionType (c.graph.render t))))
  | noRule : RuleFor c t (.settled (c.obstructed t .noRule))
  | array (h : (c.graph.symbolName t).any c.conventions.isArrayMarker) :
      RuleFor c t (.array (c.graph.typeArguments t))
  | intersection {branches : List TypeId} (h : c.graph.intersectionTypes t = some branches) :
      RuleFor c t (.intersection branches)
  | union {branches : List TypeId} (h : c.graph.unionTypes t = some branches) :
      RuleFor c t (.union branches)

theorem ruleFor_structuralRule (c : Classifier) (t : TypeId) : c.RuleFor t (c.structuralRule t) := by
  unfold structuralRule
  split
  · exact .intersection ‹_›
  · exact .union ‹_›
  · split
    · split
      · exact .functionType
      · exact .descriptor .any
    · exact .noRule

theorem ruleFor_rule (c : Classifier) (t : TypeId) : c.RuleFor t (c.rule t) := by
  unfold rule
  dsimp only
  split
  · exact .descriptor .bool
  split
  · exact .descriptor .number
  split
  · exact .descriptor .string
  split
  · exact .descriptor .any
  split
  · exact .array ‹_›
  split
  · exact .descriptor .node
  split
  · exact .descriptor .object
  · exact c.ruleFor_structuralRule t

/-- What a rule asks for is a branch or an argument of the type. -/
theorem edge_of_mem_parts (c : Classifier) {t b : TypeId} (h : b ∈ (c.rule t).parts) :
    c.graph.Edge t b := by
  have hr := c.ruleFor_rule t
  generalize c.rule t = rule at h hr
  cases hr with
  | descriptor | functionType | noRule => cases h
  | array => exact .inr (.inr h)
  | intersection hi => exact .inr (.inl (by rwa [hi]))
  | union hu => exact .inl (by rwa [hu])

/-- A type with parts is one of the graph's. -/
theorem mem_ids_of_mem_parts (g : Graph) (conventions : Conventions) {t b : TypeId}
    (h : b ∈ ((mk g conventions).rule t).parts) : t ∈ g.ids := by
  obtain ⟨n, hn, -⟩ := Graph.exists_node_of_edge (edge_of_mem_parts _ h)
  exact (g.isSome_node? t).1 (by simp [hn])

/-- The types that are met while a type is classified, each with the types in progress at that
moment: the type itself, and the parts that the rule of a type met asks for. -/
inductive Occurs (c : Classifier) (stack : List TypeId) (t : TypeId) : List TypeId → TypeId → Prop
  | root : Occurs c stack t stack t
  | part {s : List TypeId} {u b : TypeId} (hu : Occurs c stack t s u)
      (hb : b ∈ (c.rule u).parts) : Occurs c stack t (u :: s) b

theorem Occurs.reaches {c : Classifier} {stack s : List TypeId} {t u : TypeId}
    (h : c.Occurs stack t s u) : c.graph.Reaches t u := by
  induction h with
  | root => exact ReflTransGen.refl
  | part _ hb ih => exact ih.tail (c.edge_of_mem_parts hb)

/-- Of the types in progress only those that are reached matter. -/
theorem classifyIn_eq_of_reaches {c : Classifier} {t : TypeId} {stack stack' : List TypeId}
    (h : ∀ u, c.graph.Reaches t u → (u ∈ stack ↔ u ∈ stack')) :
    c.classifyIn stack t = c.classifyIn stack' t := by
  induction stack, t using classifyIn.induct generalizing stack' with
  | case1 stack t ht =>
    rw [classifyIn_of_mem c ht, classifyIn_of_mem c ((h t ReflTransGen.refl).1 ht)]
  | case2 stack t ht ih =>
    have ht' : t ∉ stack' := fun hm => ht ((h t ReflTransGen.refl).2 hm)
    rw [classifyIn_of_not_mem c ht, classifyIn_of_not_mem c ht']
    congr 1
    funext b hb
    refine ih b fun u hu => ?_
    rw [List.mem_cons, List.mem_cons, h u (ReflTransGen.head (c.edge_of_mem_parts hb) hu)]

end Classifier

end ComponentViews
