import ComponentViews.Proofs.Classification.Rules
import ComponentViews.Proofs.Graph.Renaming

/-!
# Classification of renamed types

A classification does nothing with ids but ask the graph about them and compare them with those
entered. If ids are renamed, and different ones stay different, it asks about the new ids, gets the
same answers and finds the same types within themselves, so its outcome and its reports are the
same.

## Main definitions

* `Rule.rename`: a rule with the ids of its parts renamed.

## Main results

* `Classifier.rule_rename`: the rule for a type under its new id.
* `Classifier.classifyIn_rename`: the outcome for a type under its new id, with the types in
  progress under theirs.
-/

namespace ComponentViews

/-- A rule with the ids of its parts renamed. -/
def Rule.rename (r : TypeId → TypeId) : Rule → Rule
  | .settled outcome => .settled outcome
  | .array arguments => .array (arguments.map r)
  | .intersection branches => .intersection (branches.map r)
  | .union branches => .union (branches.map r)

theorem Rule.parts_rename (r : TypeId → TypeId) (rule : Rule) :
    (rule.rename r).parts = rule.parts.map r := by
  cases rule <;> rfl

theorem Rule.mem_parts_rename (r : TypeId → TypeId) {rule : Rule} {b : TypeId}
    (hb : b ∈ rule.parts) : r b ∈ (rule.rename r).parts := by
  rw [parts_rename]
  exact List.mem_map_of_mem hb

/-- Visiting images with their membership is visiting the elements. -/
theorem mapM_attach_map {α β γ : Type} {m : Type → Type} [Monad m] [LawfulMonad m] (f : α → β)
    (xs : List α) {visit' : {y // y ∈ xs.map f} → m γ} {visit : {x // x ∈ xs} → m γ}
    (h : ∀ x (hx : x ∈ xs), visit' ⟨f x, List.mem_map_of_mem hx⟩ = visit ⟨x, hx⟩) :
    (xs.map f).attach.mapM visit' = xs.attach.mapM visit := by
  rw [List.attach_map, List.mapM_map]
  congr 1
  funext ⟨x, hx⟩
  exact h x hx

namespace Classifier

variable {G H : TypeGraph} {S : Set TypeId} {r : TypeId → TypeId} (conventions : Conventions)

/-- The parts that a rule asks for are among the references of the type. -/
theorem mem_references_of_mem_parts (c : Classifier) {t b : TypeId}
    (hb : b ∈ (c.rule t).parts) : b ∈ c.graph.references t := by
  have he := c.edge_of_mem_parts hb
  simp only [TypeGraph.references, List.mem_append]
  rcases he with he | he | he
  · exact .inl (.inl (.inl (.inl he)))
  · exact .inl (.inl (.inl (.inr he)))
  · exact .inl (.inl (.inr he))

section Answers

variable (h : G.Renaming H S r) {t : TypeId} (ht : t ∈ S)
include h ht

theorem isNode_rename :
    (mk H conventions).isNode (r t) = (mk G conventions).isNode t := by
  simp only [isNode, h.render t ht]

theorem obstructed_rename (obstacle : Obstacle) :
    (mk H conventions).obstructed (r t) obstacle = (mk G conventions).obstructed t obstacle := by
  simp only [obstructed, h.render t ht]

theorem isBooleanLiteral_rename (value : Bool) :
    (mk H conventions).isBooleanLiteral value (r t) =
      (mk G conventions).isBooleanLiteral value t := by
  simp only [isBooleanLiteral, h.flags t ht, h.render t ht]

theorem structuralRule_rename :
    (mk H conventions).structuralRule (r t) =
      ((mk G conventions).structuralRule t).rename r := by
  have hobstructed := obstructed_rename conventions h ht .noRule
  simp only [structuralRule, h.intersectionTypes t ht, h.unionTypes t ht, h.flags t ht,
    h.callSignatures t ht, h.render t ht, hobstructed, ne_eq, List.map_eq_nil_iff]
  cases G.intersectionTypes t with
  | some branches => rfl
  | none =>
    cases G.unionTypes t with
    | some branches => rfl
    | none =>
      simp only [Option.map_none]
      split
      · split <;> rfl
      · rfl

/-- The rule for a type under its new id. -/
theorem rule_rename :
    (mk H conventions).rule (r t) = ((mk G conventions).rule t).rename r := by
  have hstructural := structuralRule_rename conventions h ht
  simp only [rule, h.flags t ht, h.render t ht, h.symbolName t ht, h.typeArguments t ht,
    hstructural, apply_ite (Rule.rename r)]
  rfl

theorem intersectionOf_rename (outcomes : List Outcome) :
    (mk H conventions).intersectionOf (r t) outcomes =
      (mk G conventions).intersectionOf t outcomes := by
  simp only [intersectionOf, obstructed_rename conventions h ht]

theorem unionOf_rename (parts : List UnionPart) :
    (mk H conventions).unionOf (r t) parts = (mk G conventions).unionOf t parts := by
  simp only [unionOf, h.render t ht]

theorem intersectionBranch_rename {f f' : Unit → Logged Outcome} (hf : f' () = f ()) :
    (mk H conventions).intersectionBranch (r t) f' =
      (mk G conventions).intersectionBranch t f := by
  simp only [intersectionBranch, h.flags t ht, h.render t ht, hf]

theorem unionBranch_rename (booleanPair : Bool) {f f' : Unit → Logged Outcome}
    (hf : f' () = f ()) :
    (mk H conventions).unionBranch booleanPair (r t) f' =
      (mk G conventions).unionBranch booleanPair t f := by
  simp only [unionBranch, h.flags t ht, h.render t ht, hf]

end Answers

variable (h : G.Renaming H S r)
include h

theorem hasBooleanPair_rename {branches : List TypeId} (hb : ∀ b ∈ branches, b ∈ S) :
    (mk H conventions).hasBooleanPair (branches.map r) =
      (mk G conventions).hasBooleanPair branches := by
  have hany (value : Bool) : (branches.map r).any ((mk H conventions).isBooleanLiteral value) =
      branches.any ((mk G conventions).isBooleanLiteral value) := by
    have hmap := map_rename fun b hm =>
      isBooleanLiteral_rename conventions h (hb b hm) value
    simpa only [List.any_map, Function.id_comp] using congrArg (List.any · id) hmap
  simp only [hasBooleanPair, hany]

/-! ### Rules -/

/-- The branches of a renamed intersection come to the same. -/
theorem intersectionBranches_rename (branches : List TypeId) (hS : ∀ b ∈ branches, b ∈ S)
    {f' : (b : TypeId) → b ∈ branches.map r → Logged Outcome}
    {f : (b : TypeId) → b ∈ branches → Logged Outcome}
    (hf : ∀ b (hb : b ∈ branches), f' (r b) (List.mem_map_of_mem hb) = f b hb) :
    ((branches.map r).attach.mapM fun ⟨b, hb⟩ =>
        (mk H conventions).intersectionBranch b fun _ => f' b hb) =
      branches.attach.mapM fun ⟨b, hb⟩ =>
        (mk G conventions).intersectionBranch b fun _ => f b hb :=
  mapM_attach_map r branches fun b hb =>
    intersectionBranch_rename conventions h (hS b hb) (hf b hb)

/-- The branches of a renamed union come to the same. -/
theorem unionBranches_rename (branches : List TypeId) (hS : ∀ b ∈ branches, b ∈ S)
    {f' : (b : TypeId) → b ∈ branches.map r → Logged Outcome}
    {f : (b : TypeId) → b ∈ branches → Logged Outcome}
    (hf : ∀ b (hb : b ∈ branches), f' (r b) (List.mem_map_of_mem hb) = f b hb) :
    ((branches.map r).attach.mapM fun ⟨b, hb⟩ =>
        (mk H conventions).unionBranch ((mk H conventions).hasBooleanPair (branches.map r)) b
          fun _ => f' b hb) =
      branches.attach.mapM fun ⟨b, hb⟩ =>
        (mk G conventions).unionBranch ((mk G conventions).hasBooleanPair branches) b
          fun _ => f b hb := by
  rw [hasBooleanPair_rename conventions h hS]
  exact mapM_attach_map r branches fun b hb =>
    unionBranch_rename conventions h (hS b hb) _ (hf b hb)

section Rules

variable {t : TypeId} (ht : t ∈ S)
include ht

theorem applyRule_array_rename (arguments : List TypeId)
    {f' : (b : TypeId) → b ∈ arguments.map r → Logged Outcome}
    {f : (b : TypeId) → b ∈ arguments → Logged Outcome}
    (hf : ∀ b (hb : b ∈ arguments), f' (r b) (List.mem_map_of_mem hb) = f b hb) :
    (mk H conventions).applyRule (r t) (.array (arguments.map r)) f' =
      (mk G conventions).applyRule t (.array arguments) f := by
  match arguments with
  | [] => exact congrArg pure (obstructed_rename conventions h ht (.argumentCount 0))
  | [element] =>
    have he := hf element List.mem_cons_self
    exact congrArg (· >>= fun outcome => pure (outcome.map Descriptor.arrayOf)) he
  | a :: b :: rest =>
    have ho : (mk H conventions).obstructed (r t)
        (.argumentCount ((a :: b :: rest).map r).length) =
        (mk G conventions).obstructed t (.argumentCount (a :: b :: rest).length) := by
      rw [List.length_map]
      exact obstructed_rename conventions h ht _
    exact congrArg pure ho

theorem applyRule_intersection_rename (branches : List TypeId) (hS : ∀ b ∈ branches, b ∈ S)
    {f' : (b : TypeId) → b ∈ branches.map r → Logged Outcome}
    {f : (b : TypeId) → b ∈ branches → Logged Outcome}
    (hf : ∀ b (hb : b ∈ branches), f' (r b) (List.mem_map_of_mem hb) = f b hb) :
    (mk H conventions).applyRule (r t) (.intersection (branches.map r)) f' =
      (mk G conventions).applyRule t (.intersection branches) f := by
  have houtcomes := intersectionBranches_rename conventions h branches hS hf
  simp only [applyRule, houtcomes, intersectionOf_rename conventions h ht]

theorem applyRule_union_rename (branches : List TypeId) (hS : ∀ b ∈ branches, b ∈ S)
    {f' : (b : TypeId) → b ∈ branches.map r → Logged Outcome}
    {f : (b : TypeId) → b ∈ branches → Logged Outcome}
    (hf : ∀ b (hb : b ∈ branches), f' (r b) (List.mem_map_of_mem hb) = f b hb) :
    (mk H conventions).applyRule (r t) (.union (branches.map r)) f' =
      (mk G conventions).applyRule t (.union branches) f := by
  have hparts := unionBranches_rename conventions h branches hS hf
  simp only [applyRule, hparts, unionOf_rename conventions h ht]

/-- A renamed rule has the same outcome if the classifications of the parts have. -/
theorem applyRule_rename (rule : Rule) (hS : ∀ b ∈ rule.parts, b ∈ S)
    {f' : (b : TypeId) → b ∈ (rule.rename r).parts → Logged Outcome}
    {f : (b : TypeId) → b ∈ rule.parts → Logged Outcome}
    (hf : ∀ b (hb : b ∈ rule.parts), f' (r b) (Rule.mem_parts_rename r hb) = f b hb) :
    (mk H conventions).applyRule (r t) (rule.rename r) f' =
      (mk G conventions).applyRule t rule f := by
  cases rule with
  | settled outcome => rfl
  | array arguments => exact applyRule_array_rename conventions h ht arguments hf
  | intersection branches => exact applyRule_intersection_rename conventions h ht branches hS hf
  | union branches => exact applyRule_union_rename conventions h ht branches hS hf

end Rules

/-! ### Types in progress -/

/-- **Classification commutes with renaming.** The outcome for a type under its new id, with the
types in progress under theirs, is the outcome for the type, and so are the reports. -/
theorem classifyIn_rename (stack : List TypeId) (hstack : ∀ s ∈ stack, s ∈ S) {t : TypeId}
    (ht : t ∈ S) :
    (mk H conventions).classifyIn (stack.map r) (r t) =
      (mk G conventions).classifyIn stack t := by
  by_cases hm : t ∈ stack
  · have hm' : r t ∈ stack.map r := List.mem_map_of_mem hm
    rw [classifyIn_of_mem _ hm, classifyIn_of_mem _ hm', obstructed_rename conventions h ht]
  · have hm' : r t ∉ stack.map r := by
      intro hr
      obtain ⟨s, hs, he⟩ := List.mem_map.1 hr
      rw [h.injOn (hstack s hs) ht he] at hs
      exact hm hs
    have hS : ∀ b ∈ ((mk G conventions).rule t).parts, b ∈ S := fun b hb =>
      h.closed t ht b (mem_references_of_mem_parts _ hb)
    have hstack' : ∀ s ∈ t :: stack, s ∈ S := by
      intro s hs
      rcases List.mem_cons.1 hs with rfl | hs
      · exact ht
      · exact hstack s hs
    rw [classifyIn_of_not_mem _ hm, classifyIn_of_not_mem _ hm']
    have hrule := rule_rename conventions h ht
    rw [hrule]
    refine applyRule_rename conventions h ht _ hS fun b hb => ?_
    exact classifyIn_rename (t :: stack) hstack' (hS b hb)
termination_by (unentered allIds stack).length
decreasing_by exact length_unentered_lt (mem_allIds t) hm

theorem classify_rename {t : TypeId} (ht : t ∈ S) :
    (mk H conventions).classify (r t) = (mk G conventions).classify t := by
  unfold classify
  exact classifyIn_rename conventions h [] (by simp) ht

end Classifier

end ComponentViews
