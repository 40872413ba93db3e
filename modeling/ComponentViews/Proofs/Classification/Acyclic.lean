import ComponentViews.Proofs.Classification.Rules

/-!
# Types without cycles

While a type is being classified it is kept in mind, so that it is not entered within itself. Where
no cycle can be reached nothing is ever entered within itself, and keeping types in mind makes no
difference: a type may occur as often as it likes, it is classified alike everywhere.

## Main definitions

* `Classifier.classifyPlain`: the rules alone, applied to acyclic types.

## Main results

* `classifyIn_eq_plain`: an acyclic type is classified as by the rules alone.
* `notCircular_classifyPlain`: the rules alone never find a type within itself.
-/

namespace ComponentViews

open Relation

namespace Classifier

variable (c : Classifier)

/-- The outcome for a type by the rules alone. -/
def classifyPlain (t : c.graph.AcyclicType) : Logged Outcome :=
  c.applyRule t.1 (c.rule t.1) fun b hb =>
    classifyPlain ⟨b, t.2.of_edge (c.edge_of_mem_parts hb)⟩
termination_by t
decreasing_by exact TransGen.single (c.edge_of_mem_parts hb)

variable {c} {t : TypeId} {stack : List TypeId}

/-- The types in progress stay out of reach. -/
theorem Occurs.not_mem_of_reaches (ht : c.graph.Acyclic t)
    (hs : ∀ u, c.graph.Reaches t u → u ∉ stack) {s : List TypeId} {u : TypeId}
    (h : c.Occurs stack t s u) : ∀ v, c.graph.Reaches u v → v ∉ s := by
  induction h with
  | root => exact hs
  | @part s u b hu hb ih =>
    intro v hv hm
    have he := c.edge_of_mem_parts hb
    rcases List.mem_cons.1 hm with rfl | hm
    · exact ht v hu.reaches (TransGen.head' he hv)
    · exact ih v (ReflTransGen.head he hv) hm

/-- An acyclic type is classified as by the rules alone, if no type that it reaches is in
progress. -/
theorem classifyIn_eq_plain (t : c.graph.AcyclicType) (stack : List TypeId)
    (hs : ∀ u, c.graph.Reaches t u → u ∉ stack) : c.classifyIn stack t = c.classifyPlain t := by
  induction t using c.graph.wellFounded_below.induction generalizing stack with
  | _ t ih =>
    rw [classifyIn_of_not_mem c (hs t.1 ReflTransGen.refl), classifyPlain]
    congr 1
    funext b hb
    have he := c.edge_of_mem_parts hb
    refine ih ⟨b, t.2.of_edge he⟩ (TransGen.single he) (t.1 :: stack) ?_
    -- What the part reaches is neither the type itself nor in progress already.
    intro u hu hm
    rcases List.mem_cons.1 hm with rfl | hm
    · exact t.2.ne_of_reaches he hu rfl
    · exact hs u (ReflTransGen.head he hu) hm

/-! ## No type within itself -/

/-- An outcome is not that of a type found within itself. -/
def NotCircular (o : Outcome) : Prop := ∀ name, o ≠ .error (.unclassifiable name .circular)

theorem notCircular_ok (d : Descriptor) : NotCircular (.ok d) := by
  intro name h
  cases h

theorem notCircular_obstructed (c : Classifier) (t : TypeId) {obstacle : Obstacle}
    (h : obstacle ≠ .circular) : NotCircular (c.obstructed t obstacle) := by
  intro name he
  simp only [obstructed, Except.error.injEq, ClassifyError.unclassifiable.injEq] at he
  exact h he.2

theorem notCircular_of_rule {o : Outcome} (h : c.rule t = .settled o) : NotCircular o := by
  have hr := c.ruleFor_rule t
  rw [h] at hr
  cases hr with
  | descriptor d => exact notCircular_ok d
  | functionType =>
    intro name he
    cases he
  | noRule => exact notCircular_obstructed c t (by decide)

theorem notCircular_intersectionOf (c : Classifier) (t : TypeId) (outcomes : List Outcome) :
    NotCircular (c.intersectionOf t outcomes) := by
  unfold intersectionOf
  dsimp only
  split
  · exact notCircular_ok _
  · exact notCircular_ok _
  · exact notCircular_obstructed c t (by decide)

theorem notCircular_unionOf (c : Classifier) (t : TypeId) (parts : List UnionPart) :
    NotCircular (c.unionOf t parts).value := by
  unfold unionOf
  split <;> exact notCircular_ok _

/-- A rule finds no type within itself if the classification of the parts finds none. -/
theorem notCircular_applyRule (rule : Rule) (hrule : ∀ o, rule = .settled o → NotCircular o)
    {f : (b : TypeId) → b ∈ rule.parts → Logged Outcome} (hf : ∀ b hb, NotCircular (f b hb).value) :
    NotCircular (c.applyRule t rule f).value := by
  match rule with
  | .settled outcome => exact hrule outcome rfl
  | .array [] => exact notCircular_obstructed c t (by decide)
  | .array (_ :: _ :: _) => exact notCircular_obstructed c t (by simp)
  | .array [element] =>
    have he := hf element List.mem_cons_self
    simp only [applyRule, Logged.value_bind, Logged.value_pure]
    cases ho : (f element List.mem_cons_self).value with
    | ok d => exact notCircular_ok _
    | error e =>
      rw [ho] at he
      intro name h
      cases h
      exact he name rfl
  | .intersection branches => exact notCircular_intersectionOf c t _
  | .union branches => exact notCircular_unionOf c t _

/-- The rules alone never find a type within itself. -/
theorem notCircular_classifyPlain (t : c.graph.AcyclicType) :
    NotCircular (c.classifyPlain t).value := by
  induction t using c.graph.wellFounded_below.induction with
  | _ t ih =>
    rw [classifyPlain]
    refine notCircular_applyRule (c.rule t.1) (fun o ho => notCircular_of_rule ho) fun b hb => ?_
    exact ih ⟨b, _⟩ (TransGen.single (c.edge_of_mem_parts hb))

/-! ## Classification without cycles -/

/-- **Keeping types in mind makes no difference where there is no cycle.** If from a type no cycle
can be reached, and no type that it reaches is in progress, it is classified as by the rules alone,
and so as if nothing were in progress. Each type that is met on the way is classified as it would be
on its own, wherever it occurs, and is never found within itself. -/
theorem classifyIn_of_acyclic (c : Classifier) {t : TypeId} (ht : c.graph.Acyclic t)
    {stack : List TypeId} (hs : ∀ u, c.graph.Reaches t u → u ∉ stack) :
    c.classifyIn stack t = c.classifyPlain ⟨t, ht⟩ ∧ c.classify t = c.classifyPlain ⟨t, ht⟩ ∧
      ∀ s u, c.Occurs stack t s u →
        c.classifyIn s u = c.classify u ∧ NotCircular (c.classify u).value := by
  refine ⟨classifyIn_eq_plain ⟨t, ht⟩ stack hs, classifyIn_eq_plain ⟨t, ht⟩ [] (by simp), ?_⟩
  intro s u hu
  -- What occurs below an acyclic type is acyclic, so it is the same in its place and alone.
  have hacyclic : c.graph.Acyclic u := fun v hv => ht v (hu.reaches.trans hv)
  have halone : c.classify u = c.classifyPlain ⟨u, hacyclic⟩ :=
    classifyIn_eq_plain ⟨u, hacyclic⟩ [] (by simp)
  constructor
  · rw [halone]
    exact classifyIn_eq_plain ⟨u, hacyclic⟩ s (hu.not_mem_of_reaches ht hs)
  · rw [halone]
    exact notCircular_classifyPlain _

/-- Strings, lists of them, both at once, and any of these, where the last are objects with a member
of their own type: the lists are met twice, and only members lead back. -/
def sharedLists : Graph where
  types := [
    { id := ⟨0⟩, flags := TypeFlags.string },
    { id := ⟨1⟩, flags := TypeFlags.object, symbol := some "Array", typeArguments := [⟨0⟩] },
    { id := ⟨2⟩, flags := TypeFlags.intersectionType, intersection := [⟨1⟩, ⟨0⟩] },
    { id := ⟨3⟩, flags := TypeFlags.unionType, union := [⟨1⟩, ⟨2⟩, ⟨0⟩]
      properties := [⟨"self", ⟨3⟩, ""⟩] }]
  components := []

theorem lt_of_edge_sharedLists (t b : TypeId) (h : sharedLists.queries.Edge t b) :
    b.value.toNat < t.value.toNat :=
  Graph.lt_of_edge (by decide) t b h

/-- The union of the shared lists, with an unrelated type in progress. -/
theorem classifyIn_of_acyclic_sharedLists :
    let c : Classifier := ⟨sharedLists, {}⟩
    c.graph.Acyclic ⟨3⟩ ∧ (∀ u, c.graph.Reaches ⟨3⟩ u → u ∉ [(⟨7⟩ : TypeId)]) ∧
      c.classifyIn [⟨7⟩] ⟨3⟩ = c.classify ⟨3⟩ ∧
      c.classifyIn [⟨2⟩, ⟨3⟩, ⟨7⟩] ⟨1⟩ = c.classifyIn [⟨3⟩, ⟨7⟩] ⟨1⟩ := by
  intro c
  have ht : c.graph.Acyclic ⟨3⟩ := TypeGraph.acyclic_of_rank lt_of_edge_sharedLists ⟨3⟩
  have hs : ∀ u, c.graph.Reaches ⟨3⟩ u → u ∉ [(⟨7⟩ : TypeId)] := by
    intro u hu hm
    have hle := TypeGraph.rank_le_of_reaches lt_of_edge_sharedLists hu
    obtain rfl := List.mem_singleton.1 hm
    exact absurd hle (by decide)
  obtain ⟨hplain, halone, hoccurs⟩ := classifyIn_of_acyclic c ht hs
  -- The type occurs in two places, below different types.
  have hunion : c.Occurs [⟨7⟩] ⟨3⟩ [⟨3⟩, ⟨7⟩] ⟨1⟩ := .part .root (by decide +kernel)
  have hboth : c.Occurs [⟨7⟩] ⟨3⟩ [⟨2⟩, ⟨3⟩, ⟨7⟩] ⟨1⟩ :=
    .part (.part .root (b := ⟨2⟩) (by decide +kernel)) (by decide +kernel)
  refine ⟨ht, hs, hplain.trans halone.symm, ?_⟩
  rw [(hoccurs _ _ hboth).1, (hoccurs _ _ hunion).1]

end Classifier

end ComponentViews
