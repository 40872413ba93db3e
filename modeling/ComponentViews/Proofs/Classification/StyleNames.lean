import ComponentViews.Proofs.Classification.Unions
import ComponentViews.Proofs.TypeName

/-!
# Unions and intersections that look like types of styles

A union or an intersection without a value of its own is rendered by its branches with signs between
them, and what comes out may be the rendering of one generic type: where the first branch opens
arguments and the last one closes them. With the name of a type of styles it is then an object, and its
branches are not looked at.

## Main definitions

* `TypeNode.renderedBranches`, `TypeNode.branchSign`: what a union or an intersection is rendered by.
* `Graph.renderPart`: the rendering of a branch.
* `Classifier.withoutStyles`: the same classifier, but it recognizes no types of styles.
* `Classifier.earlyRule?`: the rules that come before types of styles.
* `Classifier.LooksLikeStyle`: the branches of a type make the name of a type of styles.

## Main results

* `Graph.render_of_branches`: how a union or an intersection is rendered.
* `Classifier.rule_eq_getD`: what types of styles change about the rules.
* `Classifier.isStyleMarker_render_iff`: which unions and intersections look like types of styles.
* `Classifier.styles_of_branches`: what becomes of them, and of the branches of a union.
-/

namespace ComponentViews

/-! ## Renderings by branches -/

/-- The branches by which a union or an intersection is rendered. -/
def TypeNode.renderedBranches (n : TypeNode) : List TypeId :=
  if n.union ≠ [] then n.union else n.intersection

/-- The sign between the renderings of the branches. -/
def TypeNode.branchSign (n : TypeNode) : Char :=
  if n.union ≠ [] then '|' else '&'

/-- The sign between spaces. -/
def TypeNode.branchSeparator (n : TypeNode) : String :=
  String.ofList [' ', n.branchSign, ' ']

theorem TypeNode.isSeparator_branchSeparator (n : TypeNode) :
    IsSeparator n.branchSeparator n.branchSign := by
  have hsign : n.branchSign = '|' ∨ n.branchSign = '&' := by
    unfold branchSign
    split
    · exact .inl rfl
    · exact .inr rfl
  unfold branchSeparator
  rcases hsign with h | h <;> rw [h] <;>
    exact ⟨String.toList_ofList, rfl, by decide +kernel, by decide, by decide⟩

variable {g : Graph} {t : TypeId} {n : TypeNode}

theorem TypeNode.layout_of_branches (hvalue : n.value = none) (hbranches : n.renderedBranches ≠ [])
    (needsParens : TypeId → Bool) (child : TypeId → String) :
    n.layout needsParens child =
      String.intercalate n.branchSeparator (n.renderedBranches.map child) := by
  unfold renderedBranches at hbranches ⊢
  unfold layout branchSeparator branchSign
  rw [hvalue]
  by_cases hunion : n.union ≠ []
  · simp only [if_pos hunion]
  · rw [if_neg hunion] at hbranches
    simp only [if_neg hunion, if_pos hbranches]

/-- The rendering of a type as a part of another one that is not part of any. -/
def Graph.renderPart (g : Graph) : TypeId → String :=
  g.renderWithin .usual (maxRenderDepth - 1)

/-- **A union or an intersection** is rendered by its branches with signs between them. -/
theorem Graph.render_of_branches (hnode : g.node? t = some n) (hdisplay : n.display = none)
    (hvalue : n.value = none) (hbranches : n.renderedBranches ≠ []) :
    g.render t = String.intercalate n.branchSeparator (n.renderedBranches.map g.renderPart) := by
  unfold render maxRenderDepth
  rw [renderWithin_succ hnode hdisplay, TypeNode.layout_of_branches hvalue hbranches]
  rfl

namespace Classifier

/-! ## Types of styles -/

/-- The same classifier, but no type is recognized as one of styles. -/
def withoutStyles (c : Classifier) : Classifier :=
  ⟨c.graph, { c.conventions with styleMarkers := [] }⟩

theorem isStyleMarker_iff {conventions : Conventions} {rendered : String} :
    conventions.isStyleMarker rendered ↔
      ∃ name ∈ conventions.styleMarkers, baseTypeName? rendered = some name := by
  unfold Conventions.isStyleMarker
  cases baseTypeName? rendered <;> simp

/-- The first rule that applies to a type, of those that come before types of styles. -/
def earlyRule? (c : Classifier) (t : TypeId) : Option Rule :=
  let flags := c.graph.flags t
  let rendered := c.graph.render t
  if flags.contains TypeFlags.boolean ∨ rendered = "false" then some (.settled (.ok .bool))
  else if flags.intersects TypeFlags.numberLike then some (.settled (.ok .number))
  else if flags.intersects TypeFlags.stringLike then some (.settled (.ok .string))
  else if flags.intersects (TypeFlags.any ∪ TypeFlags.unknown) then some (.settled (.ok .any))
  else if (c.graph.symbolName t).any c.conventions.isArrayMarker then
    some (.array (c.graph.typeArguments t))
  else if c.conventions.isNodeMarker rendered then some (.settled (.ok .node))
  else none

/-- Where no rule before applies, a type of styles is an object, and any other type is classified by
its structure. -/
theorem rule_eq_getD (c : Classifier) (t : TypeId) :
    c.rule t = (c.earlyRule? t).getD
      (if c.conventions.isStyleMarker (c.graph.render t) then .settled (.ok .object)
        else c.structuralRule t) := by
  unfold rule earlyRule?
  dsimp only
  iterate 6
    split
    · rfl
  rfl

theorem rule_of_isStyleMarker {c : Classifier} {t : TypeId}
    (h : c.conventions.isStyleMarker (c.graph.render t)) :
    c.rule t = (c.earlyRule? t).getD (.settled (.ok .object)) := by
  rw [rule_eq_getD, if_pos h]

theorem rule_of_not_isStyleMarker {c : Classifier} {t : TypeId}
    (h : ¬ c.conventions.isStyleMarker (c.graph.render t)) :
    c.rule t = (c.earlyRule? t).getD (c.structuralRule t) := by
  rw [rule_eq_getD, if_neg h]

theorem rule_withoutStyles (c : Classifier) (t : TypeId) :
    c.withoutStyles.rule t = (c.earlyRule? t).getD (c.structuralRule t) := by
  refine rule_of_not_isStyleMarker ?_
  rw [isStyleMarker_iff]
  rintro ⟨_, hname, -⟩
  cases hname

/-- No rule before that of types of styles is about the branches of a union. -/
theorem earlyRule?_of_union {c : Classifier} {t : TypeId} {branches : List TypeId}
    (h : c.withoutStyles.rule t = .union branches) : c.earlyRule? t = none := by
  rw [rule_withoutStyles] at h
  cases hearly : c.earlyRule? t with
  | none => rfl
  | some rule =>
    rw [hearly] at h
    obtain rfl : rule = .union branches := h
    unfold earlyRule? at hearly
    dsimp only at hearly
    iterate 6
      split at hearly
      · cases hearly
    exact hearly.symm

/-! ## Unions and intersections -/

variable {conventions : Conventions} {first last : TypeId} {middle : List TypeId}

/-- The branches of a type make the name of a type of styles. -/
def LooksLikeStyle (g : Graph) (conventions : Conventions) (first : TypeId) (middle : List TypeId)
    (last : TypeId) : Prop :=
  ∃ name ∈ conventions.styleMarkers,
    JoinReference name (g.renderPart first) (middle.map g.renderPart) (g.renderPart last)

section Branches

variable (hnode : g.node? t = some n) (hdisplay : n.display = none) (hvalue : n.value = none)
  (hbranches : n.renderedBranches = first :: (middle ++ [last]))
include hnode hdisplay hvalue hbranches

theorem baseTypeName?_render_iff {name : String} :
    baseTypeName? (g.render t) = some name ↔
      JoinReference name (g.renderPart first) (middle.map g.renderPart) (g.renderPart last) := by
  rw [Graph.render_of_branches hnode hdisplay hvalue (by simp [hbranches]), hbranches,
    List.map_cons, List.map_append, List.map_singleton]
  exact baseTypeName?_intercalate_iff n.isSeparator_branchSeparator

theorem isStyleMarker_render_iff :
    conventions.isStyleMarker (g.render t) ↔ LooksLikeStyle g conventions first middle last := by
  simp only [isStyleMarker_iff, LooksLikeStyle,
    baseTypeName?_render_iff hnode hdisplay hvalue hbranches]

variable (conventions)

/-- What becomes of a union or an intersection, by the rule that applies to it. -/
theorem rule_of_branches :
    (LooksLikeStyle g conventions first middle last →
      (mk g conventions).rule t = ((mk g conventions).earlyRule? t).getD (.settled (.ok .object))) ∧
      (¬ LooksLikeStyle g conventions first middle last →
        (mk g conventions).rule t = (mk g conventions).withoutStyles.rule t) := by
  rw [← isStyleMarker_render_iff hnode hdisplay hvalue hbranches]
  exact ⟨rule_of_isStyleMarker (c := mk g conventions), fun h =>
    (rule_of_not_isStyleMarker (c := mk g conventions) h).trans (rule_withoutStyles _ t).symm⟩

/-- **Unions and intersections that look like types of styles.** The rendering of a type with at least
two branches has a base name exactly if the first branch opens the arguments of that name and the last
one closes them. Where this is the name of a type of styles, the type is an object unless an earlier
rule applies, and a union loses all its branches. Where it is not, types of styles make no difference
to the rule, and no branch of a union is lost that has a descriptor. -/
theorem styles_of_branches :
    let c : Classifier := ⟨g, conventions⟩
    let looks := LooksLikeStyle g conventions first middle last
    (∀ name, baseTypeName? (g.render t) = some name ↔
      JoinReference name (g.renderPart first) (middle.map g.renderPart) (g.renderPart last)) ∧
    ((looks → c.rule t = (c.earlyRule? t).getD (.settled (.ok .object))) ∧
      (¬ looks → c.rule t = c.withoutStyles.rule t)) ∧
    ∀ stack branches, t ∉ stack → c.withoutStyles.rule t = .union branches →
      (looks → (c.classifyIn stack t).value = .ok .object) ∧
      (¬ looks → ∃ found, (c.classifyIn stack t).value = .ok (.ofContributions found) ∧
        ∀ b ∈ branches, ¬ (c.graph.flags b).isLiteral →
          ∀ d, (c.classifyIn (t :: stack) b).value = .ok d → d ∈ found) := by
  intro c looks
  have hrule := rule_of_branches conventions hnode hdisplay hvalue hbranches
  refine ⟨fun name => baseTypeName?_render_iff hnode hdisplay hvalue hbranches, hrule,
    fun stack branches ht hunion => ⟨fun hlooks => ?_, fun hlooks => ?_⟩⟩
  · have hearly : c.earlyRule? t = none := earlyRule?_of_union hunion
    rw [value_classifyIn c t ht, hrule.1 hlooks, hearly]
    rfl
  · refine ⟨c.contributions branches fun b => (c.classifyIn (t :: stack) b).value, ?_, ?_⟩
    · rw [value_classifyIn c t ht, hrule.2 hlooks, hunion]
      exact value_unionOf_branchParts t
    · intro b hb hliteral d hd
      exact mem_contributions_iff.2 (.inr (.inr ⟨b, hb, hliteral, hd⟩))

end Branches

/-- Styles or a text or a list of texts, and only the first two of these. -/
def styledTexts : Graph where
  types := [
    { id := ⟨0⟩, flags := TypeFlags.object, symbol := some "Theme" },
    { id := ⟨1⟩, flags := TypeFlags.object, symbol := some "SxProps", typeArguments := [⟨0⟩] },
    { id := ⟨2⟩, flags := TypeFlags.string },
    { id := ⟨3⟩, flags := TypeFlags.object, symbol := some "ReadonlyArray",
      typeArguments := [⟨2⟩] },
    { id := ⟨4⟩, flags := TypeFlags.unionType, union := [⟨1⟩, ⟨2⟩, ⟨3⟩] },
    { id := ⟨5⟩, flags := TypeFlags.unionType, union := [⟨1⟩, ⟨2⟩] }]
  components := []

theorem displayFree_styledTexts : ∀ n ∈ styledTexts.types, n.display = none := by decide

set_option maxRecDepth 4000 in
theorem rule_withoutStyles_styledTexts :
    (mk styledTexts {}).withoutStyles.rule ⟨5⟩ = .union [⟨1⟩, ⟨2⟩] := by
  rfl

set_option maxRecDepth 4000 in
theorem value_classifyIn_styledTexts :
    let c : Classifier := ⟨styledTexts, {}⟩
    (c.classifyIn [⟨5⟩] ⟨1⟩).value = .ok .object ∧ (c.classifyIn [⟨5⟩] ⟨2⟩).value = .ok .string := by
  intro c
  have hstyle : (mk styledTexts {}).rule ⟨1⟩ = .settled (.ok .object) := by rfl
  have htext : (mk styledTexts {}).rule ⟨2⟩ = .settled (.ok .string) := by rfl
  rw [value_classifyIn c _ (by decide), value_classifyIn c _ (by decide), hstyle, htext]
  exact ⟨rfl, rfl⟩

/-- Styles or a text: nothing closes the arguments of the styles, so both branches are kept. -/
theorem styles_of_branches_styledTexts :
    let c : Classifier := ⟨styledTexts, {}⟩
    ¬ LooksLikeStyle styledTexts {} ⟨1⟩ [] ⟨2⟩ ∧ c.rule ⟨5⟩ = .union [⟨1⟩, ⟨2⟩] ∧
      ∃ found, (c.classifyIn [] ⟨5⟩).value = .ok (.ofContributions found) ∧
        .object ∈ found ∧ .string ∈ found := by
  intro c
  have hlooks : ¬ LooksLikeStyle styledTexts {} ⟨1⟩ [] ⟨2⟩ := by
    rintro ⟨-, -, -, v, -, ⟨blanks, -, htext⟩, -⟩
    have hclosing : '>' ∈ (styledTexts.renderPart ⟨2⟩).toList := by simp [htext]
    exact absurd hclosing (by decide +kernel)
  have hunion := rule_withoutStyles_styledTexts
  let node : TypeNode := { id := ⟨5⟩, flags := TypeFlags.unionType, union := [⟨1⟩, ⟨2⟩] }
  have hnode : styledTexts.node? ⟨5⟩ = some node := rfl
  have hbranches : node.renderedBranches = ⟨1⟩ :: ([] ++ [⟨2⟩]) := rfl
  obtain ⟨-, ⟨-, hrule⟩, hvalue⟩ := styles_of_branches {} hnode rfl rfl hbranches
  obtain ⟨found, hfound, hkept⟩ := (hvalue [] _ List.not_mem_nil hunion).2 hlooks
  obtain ⟨hstyle, htext⟩ := value_classifyIn_styledTexts
  exact ⟨hlooks, (hrule hlooks).trans hunion, found, hfound,
    hkept ⟨1⟩ (by decide) (by decide) _ hstyle, hkept ⟨2⟩ (by decide) (by decide) _ htext⟩

set_option maxRecDepth 4000 in
/-- Where a list of texts comes last, its bracket closes the arguments of the styles, so the union is
taken for styles, and texts and lists of them are lost. -/
theorem classify_styledTexts :
    let c : Classifier := ⟨styledTexts, {}⟩
    (∀ n ∈ styledTexts.types, n.display = none) ∧
      baseTypeName? (c.graph.render ⟨4⟩) = some "SxProps" ∧
      (c.classify ⟨4⟩).value = .ok .object ∧ (c.classify ⟨2⟩).value = .ok .string := by
  intro c
  have hrender : c.graph.render ⟨4⟩ = "SxProps<Theme> | string | ReadonlyArray<string>" := by rfl
  refine ⟨displayFree_styledTexts, ?_, value_classify_of_walk rfl, value_classify_of_walk rfl⟩
  rw [hrender]
  decide +kernel

end Classifier

end ComponentViews
