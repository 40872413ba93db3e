import ComponentViews.Proofs.Assembly.Placement
import ComponentViews.Proofs.Classification.Nesting
import ComponentViews.Proofs.Classification.Outcome

/-!
# Properties that hold what can be rendered

Only one property is meant to hold all that can be rendered. Whether a property would hold it is
seen from the rendering of its type, but a type that is not recognized so can still come to nothing
else: a union none of whose other branches has a descriptor, or an intersection none of whose
branches before says anything. Such properties are forwarded as what they come to, and no others.

## Main definitions

* `Classifier.ReducesToNode`: a type comes to nothing but what can be rendered.

## Main results

* `value_classifyIn_eq_node_iff`: these are the types with the descriptor of what can be rendered.
* `children_only_iff`: when no other property is forwarded with it.
* `assemble_optionalIcon`: a property that may also be undefined is forwarded with it.
-/

namespace ComponentViews

/-- No other descriptor has the text of what can be rendered. -/
theorem Descriptor.eq_node_of_text {d : Descriptor} (h : d.text = "PropTypes.node") :
    d = .node :=
  eq_of_text_eq .node h

theorem Descriptor.ofMembers_eq_node_iff {members : List Descriptor} :
    ofMembers members = .node ↔ members = [.node] := by
  match members with
  | [] => simp [ofMembers]
  | [d] => simp [ofMembers]
  | _ :: _ :: _ => simp [ofMembers]

namespace Classifier

variable {c : Classifier}

/-- A type that is met while others are in progress comes to nothing but what can be rendered: it is
recognized as such, or a branch comes to it and no other branch counts. -/
inductive ReducesToNode (c : Classifier) : List TypeId → TypeId → Prop
  | marker {stack : List TypeId} {t : TypeId} (ht : t ∉ stack)
      (hr : c.rule t = .settled (.ok .node)) : ReducesToNode c stack t
  | intersection {stack before after : List TypeId} {t b : TypeId} (ht : t ∉ stack)
      (hr : c.rule t = .intersection (before ++ b :: after))
      (hbefore : ∀ a ∈ before, ∀ d,
        c.branchOutcome a (c.classifyIn (t :: stack) a).value = .ok d → d = .any)
      (hl : ¬ (c.graph.flags b).isLiteral) (hb : ReducesToNode c (t :: stack) b) :
      ReducesToNode c stack t
  | union {stack branches : List TypeId} {t b : TypeId} (ht : t ∉ stack)
      (hr : c.rule t = .union branches) (hmem : b ∈ branches) (hb : ReducesToNode c (t :: stack) b)
      (hl : ∀ a ∈ branches, ¬ (c.graph.flags a).isLiteral)
      (honly : ∀ a ∈ branches, ∀ d, (c.classifyIn (t :: stack) a).value = .ok d → d = .node) :
      ReducesToNode c stack t

/-! ## Branches -/

theorem branchOutcome_eq_node_iff {b : TypeId} {outcome : Outcome} :
    c.branchOutcome b outcome = .ok .node ↔
      ¬ (c.graph.flags b).isLiteral ∧ outcome = .ok .node := by
  unfold branchOutcome
  by_cases hl : (c.graph.flags b).isLiteral
  · simp [hl]
  · simp [hl]

/-- A branch that is a single value contributes something else. -/
theorem exists_branchPart?_of_literal (booleanPair : Bool) {b : TypeId} (outcome : Outcome)
    (hl : (c.graph.flags b).isLiteral) :
    ∃ part, c.branchPart? booleanPair b outcome = some part ∧ part ≠ .typed .node := by
  unfold branchPart?
  by_cases hp : booleanPair ∧ (c.graph.flags b).contains TypeFlags.booleanLiteral
  · exact ⟨_, if_pos hp, by simp⟩
  · rw [if_neg hp, if_pos hl]
    exact ⟨_, rfl, by simp⟩

theorem branchPart?_eq_typed_iff (booleanPair : Bool) {b : TypeId} {outcome : Outcome}
    {d : Descriptor} (hl : ¬ (c.graph.flags b).isLiteral) :
    c.branchPart? booleanPair b outcome = some (.typed d) ↔ outcome = .ok d := by
  rw [branchPart?_of_not_literal c booleanPair outcome hl]
  cases outcome <;> simp [Except.toOption]

/-- All that a branch contributes is what can be rendered. -/
theorem forall_branchPart?_eq_node_iff (booleanPair : Bool) {b : TypeId} {outcome : Outcome} :
    (∀ part, c.branchPart? booleanPair b outcome = some part → part = .typed .node) ↔
      ¬ (c.graph.flags b).isLiteral ∧ ∀ d, outcome = .ok d → d = .node := by
  by_cases hl : (c.graph.flags b).isLiteral
  · obtain ⟨part, hpart, hother⟩ := exists_branchPart?_of_literal booleanPair outcome hl
    exact iff_of_false (fun h => hother (h part hpart)) fun h => h.1 hl
  · rw [branchPart?_of_not_literal c booleanPair outcome hl]
    cases outcome with
    | ok d => simp [Except.toOption, hl]
    | error e => simp [Except.toOption, hl]

/-- A list is not what can be rendered. -/
theorem outcomeOf_array_ne_node {t : TypeId} {arguments : List TypeId}
    {outcome : TypeId → Outcome} : c.outcomeOf t outcome (.array arguments) ≠ .ok .node := by
  intro h
  match arguments with
  | [] | _ :: _ :: _ => cases h
  | [element] =>
    rw [outcomeOf] at h
    cases ho : outcome element with
    | ok d =>
      rw [ho] at h
      cases h
    | error e =>
      rw [ho] at h
      cases h

/-- An intersection comes to what can be rendered if a branch does and no branch before says
anything. -/
theorem outcomeOf_intersection_eq_node_iff {t : TypeId} {branches : List TypeId}
    {outcome : TypeId → Outcome} :
    c.outcomeOf t outcome (.intersection branches) = .ok .node ↔
      ∃ before b after, branches = before ++ b :: after ∧
        (∀ a ∈ before, ∀ d, c.branchOutcome a (outcome a) = .ok d → d = .any) ∧
        ¬ (c.graph.flags b).isLiteral ∧ outcome b = .ok .node := by
  rw [outcomeOf, intersectionOf_eq_ok_iff (by simp)]
  constructor
  · rintro ⟨before, after, hsplit, hbefore⟩
    obtain ⟨as, rest, rfl, rfl, hrest⟩ := List.map_eq_append_iff.1 hsplit
    obtain ⟨b, bs, rfl, hb, -⟩ := List.map_eq_cons_iff.1 hrest
    refine ⟨as, b, bs, rfl, fun a ha d hd => ?_, branchOutcome_eq_node_iff.1 hb⟩
    exact hbefore d (hd ▸ List.mem_map_of_mem ha)
  · rintro ⟨before, b, after, rfl, hbefore, hb⟩
    refine ⟨before.map fun a => c.branchOutcome a (outcome a),
      after.map fun a => c.branchOutcome a (outcome a), ?_, fun d hd => ?_⟩
    · rw [List.map_append, List.map_cons, branchOutcome_eq_node_iff.2 hb]
    · obtain ⟨a, ha, hda⟩ := List.mem_map.1 hd
      exact hbefore a ha d hda

/-- A union comes to what can be rendered if a branch does and no branch is a single value or has
another descriptor. -/
theorem outcomeOf_union_eq_node_iff {t : TypeId} {branches : List TypeId}
    {outcome : TypeId → Outcome} :
    c.outcomeOf t outcome (.union branches) = .ok .node ↔
      (∃ b ∈ branches, outcome b = .ok .node) ∧
        ∀ a ∈ branches, ¬ (c.graph.flags a).isLiteral ∧ ∀ d, outcome a = .ok d → d = .node := by
  rw [outcomeOf, value_unionOf, Except.ok.injEq, Descriptor.ofMembers_eq_node_iff,
    unionMembers_eq_singleton_iff (fun e he => Descriptor.eq_node_of_text he) (by simp)]
  -- Whether there is a pair of truth values does not matter, as no branch may be a literal.
  generalize c.hasBooleanPair branches = booleanPair
  have hall : (∀ part ∈ branches.filterMap fun b => c.branchPart? booleanPair b (outcome b),
      part = .typed .node) ↔
      ∀ a ∈ branches, ¬ (c.graph.flags a).isLiteral ∧ ∀ d, outcome a = .ok d → d = .node := by
    simp only [← forall_branchPart?_eq_node_iff booleanPair, List.mem_filterMap]
    constructor
    · exact fun h a ha part hpart => h part ⟨a, ha, hpart⟩
    · rintro h part ⟨a, ha, hpart⟩
      exact h a ha part hpart
  rw [hall]
  constructor
  · rintro ⟨hne, h⟩
    obtain ⟨part, hpart⟩ := List.exists_mem_of_ne_nil _ hne
    obtain ⟨b, hb, hbp⟩ := List.mem_filterMap.1 hpart
    obtain rfl := hall.2 h part hpart
    exact ⟨⟨b, hb, (branchPart?_eq_typed_iff booleanPair (h b hb).1).1 hbp⟩, h⟩
  · rintro ⟨⟨b, hb, hbo⟩, h⟩
    have hpart := (branchPart?_eq_typed_iff booleanPair (h b hb).1).2 hbo
    exact ⟨List.ne_nil_of_mem (List.mem_filterMap.2 ⟨b, hb, hpart⟩), h⟩

/-! ## Classifications -/

/-- The types that come to nothing else have the descriptor of what can be rendered, and only
they. -/
theorem value_classifyIn_eq_node_iff {stack : List TypeId} {t : TypeId} :
    (c.classifyIn stack t).value = .ok .node ↔ c.ReducesToNode stack t := by
  constructor
  · intro h
    -- The induction is that of the walk; of its rules, only lists never end in a node.
    induction stack, t using classifyIn.induct with
    | case1 stack t ht =>
      rw [classifyIn_of_mem c ht] at h
      cases h
    | case2 stack t ht ih =>
      rw [value_classifyIn c t ht] at h
      cases hr : c.rule t with
      | settled o =>
        rw [hr] at h
        exact .marker ht (hr.trans (congrArg Rule.settled h))
      | array arguments =>
        rw [hr] at h
        exact absurd h outcomeOf_array_ne_node
      | intersection branches =>
        rw [hr, outcomeOf_intersection_eq_node_iff] at h
        obtain ⟨before, b, after, rfl, hbefore, hl, hb⟩ := h
        exact .intersection ht hr hbefore hl (ih b hb)
      | union branches =>
        rw [hr, outcomeOf_union_eq_node_iff] at h
        obtain ⟨⟨b, hmem, hb⟩, honly⟩ := h
        exact .union ht hr hmem (ih b hb) (fun a ha => (honly a ha).1) fun a ha => (honly a ha).2
  · intro h
    induction h with
    | marker ht hr =>
      rw [value_classifyIn c _ ht, hr]
      rfl
    | intersection ht hr hbefore hl hb ih =>
      rw [value_classifyIn c _ ht, hr, outcomeOf_intersection_eq_node_iff]
      exact ⟨_, _, _, rfl, hbefore, hl, ih⟩
    | union ht hr hmem hb hl honly ih =>
      rw [value_classifyIn c _ ht, hr, outcomeOf_union_eq_node_iff]
      exact ⟨⟨_, hmem, ih⟩, fun a ha => ⟨hl a ha, honly a ha⟩⟩

/-! ## Properties -/

theorem value_classify_eq_node_iff {t : TypeId} :
    (c.classify t).value = .ok .node ↔ c.ReducesToNode [] t := by
  rw [classify]
  exact value_classifyIn_eq_node_iff

/-- **What can be rendered outside of children.** No property but the one meant for it is forwarded
with what can be rendered exactly if no other property, unless it is reserved or its type is
recognized as a whole, has a type that comes to that alone. -/
theorem children_only_iff (c : Classifier) (ps : List ComponentProperty) :
    (∀ f ∈ (c.assemble ps).value.forwarded,
        f.name ≠ c.conventions.childrenProp → f.propType ≠ "PropTypes.node") ↔
      ∀ p ∈ ps, p.name ≠ c.conventions.childrenProp → ¬ c.conventions.isReserved p.name →
        ¬ c.isNode p.type → ¬ c.ReducesToNode [] p.type := by
  constructor
  · intro h p hp hname hr hn hreduces
    have hplace := value_place_of_classify hr (fun hc => hn hc.1)
      (value_classify_eq_node_iff.2 hreduces)
    have hmem : p.toForwarded .node ∈ (c.place p).value.forwarded := by
      rw [hplace]
      exact List.mem_singleton_self _
    exact h _ (mem_forwarded_assemble.2 ⟨p, hp, hmem⟩) hname rfl
  · intro h f hf hname htext
    -- What is forwarded stands for one of the properties, placed in one of four ways.
    obtain ⟨p, hp, a, hplaced, hf⟩ := exists_placed_of_mem_forwarded hf
    cases hplaced with
    | reserved | unclassified => cases hf
    | anyInstead =>
      obtain rfl := List.mem_singleton.1 hf
      exact absurd htext (by decide : Descriptor.any.text ≠ "PropTypes.node")
    | @classified d hr hn hd =>
      obtain rfl := List.mem_singleton.1 hf
      obtain rfl : d = .node := Descriptor.eq_node_of_text htext
      exact h p hp hname hr (fun hm => hn ⟨hm, hname⟩) (value_classify_eq_node_iff.1 hd)

/-- What can be rendered, or nothing. -/
def optionalIcon : Graph where
  types := [
    { id := ⟨0⟩, flags := TypeFlags.object, symbol := some "ReactNode" },
    { id := ⟨1⟩, flags := TypeFlags.undefined },
    { id := ⟨2⟩, flags := TypeFlags.unionType, union := [⟨0⟩, ⟨1⟩] }]
  components := []

set_option maxRecDepth 4000 in
/-- A property that is not the one meant for it is forwarded with what can be rendered, and without
a warning, if it may also be undefined. -/
theorem assemble_optionalIcon :
    let c : Classifier := ⟨optionalIcon, {}⟩
    "icon" ≠ c.conventions.childrenProp ∧
      (c.assemble [{ name := "icon", type := ⟨2⟩ }]).value =
        { forwarded := [{ name := "icon", propType := "PropTypes.node" }] } := by
  intro c
  have hplace : (c.place { name := "icon", type := ⟨2⟩ }).value =
      { forwarded := [{ name := "icon", propType := "PropTypes.node" }] } :=
    value_place_of_classify (by decide) (by decide) (value_classify_of_walk (o := .ok .node) rfl)
  refine ⟨by decide, ?_⟩
  rw [value_assemble_cons, hplace]
  rfl

end Classifier

end ComponentViews
