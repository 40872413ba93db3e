import ComponentViews.Proofs.Assembly.Placement
import ComponentViews.Proofs.Classification.Nesting
import ComponentViews.Proofs.Classification.Outcome

/-!
# Well-formed descriptors

Descriptors that come out of a classification say nothing twice and nothing that could be said more
simply: at any depth, values are distinct and there are some, and alternatives are at least two and
have different texts.

## Main definitions

* `Descriptor.WellFormed`: the descriptors that are so at any depth.

## Main results

* `wellFormed_outcomeOf`: a rule keeps descriptors well-formed.
* `wellFormed_of_classifyIn`: whatever is in progress, a classification yields such a descriptor.
* `wellFormed_of_classify`: so what is classified and what is forwarded is well-formed.
-/

namespace ComponentViews

namespace Descriptor

/-- Values are distinct and there are some, alternatives are at least two and have different texts,
and so it is within lists and alternatives. -/
inductive WellFormed : Descriptor → Prop
  | bool : WellFormed .bool
  | number : WellFormed .number
  | string : WellFormed .string
  | any : WellFormed .any
  | node : WellFormed .node
  | object : WellFormed .object
  | arrayOf {element : Descriptor} (h : WellFormed element) : WellFormed (.arrayOf element)
  | oneOf {values : List String} (hne : values ≠ []) (hnd : values.Nodup) :
      WellFormed (.oneOf values)
  | oneOfType {members : List Descriptor} (hlength : 2 ≤ members.length)
      (hnd : (members.map text).Nodup) (h : ∀ m ∈ members, WellFormed m) :
      WellFormed (.oneOfType members)

/-- Different well-formed members make a well-formed descriptor. -/
theorem wellFormed_ofMembers {members : List Descriptor} (hnd : (members.map text).Nodup)
    (h : ∀ m ∈ members, WellFormed m) : (ofMembers members).WellFormed := by
  match members with
  | [] => exact .any
  | [d] => exact h d List.mem_cons_self
  | _ :: _ :: _ => exact .oneOfType (by simp) hnd h

end Descriptor

namespace Classifier

variable {c : Classifier} {t : TypeId}

theorem Settles.wellFormed {d : Descriptor} (h : c.Settles t d) : d.WellFormed := by
  cases h with
  | bool => exact .bool
  | number => exact .number
  | string => exact .string
  | any => exact .any
  | node => exact .node
  | object => exact .object

/-! ## What rules preserve -/

section Rules

variable {outcome : TypeId → Outcome} (h : ∀ b d, outcome b = .ok d → d.WellFormed)
include h

theorem wellFormed_branchOutcome {b : TypeId} {d : Descriptor}
    (hd : c.branchOutcome b (outcome b) = .ok d) : d.WellFormed := by
  unfold branchOutcome at hd
  split at hd
  · cases hd
    exact .oneOf (List.cons_ne_nil _ _) (List.nodup_singleton _)
  · exact h b d hd

theorem wellFormed_branchPart? {booleanPair : Bool} {b : TypeId} {d : Descriptor}
    (hd : c.branchPart? booleanPair b (outcome b) = some (.typed d)) : d.WellFormed := by
  unfold branchPart? at hd
  split at hd
  · cases hd
    exact .bool
  split at hd
  · cases hd
  · cases ho : outcome b with
    | ok e =>
      rw [ho] at hd
      cases hd
      exact h b d ho
    | error e =>
      rw [ho] at hd
      cases hd

/-- A rule keeps descriptors well-formed: if those of the parts are, that of the type is. -/
theorem wellFormed_outcomeOf {rule : Rule}
    (hsettled : ∀ d, rule = .settled (.ok d) → d.WellFormed) {d : Descriptor}
    (hd : c.outcomeOf t outcome rule = .ok d) : d.WellFormed := by
  match rule with
  | .settled o => exact hsettled d (congrArg Rule.settled hd)
  | .array [] => cases hd
  | .array (_ :: _ :: _) => cases hd
  | .array [element] =>
    simp only [outcomeOf] at hd
    cases ho : outcome element with
    | ok e =>
      rw [ho] at hd
      cases hd
      exact .arrayOf (h element e ho)
    | error e =>
      rw [ho] at hd
      cases hd
  | .intersection branches =>
    obtain ⟨b, -, hb⟩ := List.mem_map.1 (mem_of_intersectionOf hd)
    exact wellFormed_branchOutcome h hb
  | .union branches =>
    simp only [outcomeOf, value_unionOf, Except.ok.injEq] at hd
    subst hd
    refine Descriptor.wellFormed_ofMembers (nodup_unionMembers _) fun m hm => ?_
    rcases mem_unionMembers hm with hm | ⟨values, rfl, hne, hnd⟩
    · obtain ⟨b, -, hb⟩ := List.mem_filterMap.1 hm
      exact wellFormed_branchPart? h hb
    · exact .oneOf hne hnd

end Rules

/-! ## What classifications yield -/

/-- Whatever is in progress, a classification yields a well-formed descriptor if it yields one. -/
theorem wellFormed_of_classifyIn {stack : List TypeId} {d : Descriptor}
    (h : (c.classifyIn stack t).value = .ok d) : d.WellFormed := by
  induction stack, t using classifyIn.induct generalizing d with
  | case1 stack t ht =>
    rw [classifyIn_of_mem c ht] at h
    cases h
  | case2 stack t ht ih =>
    rw [value_classifyIn c t ht] at h
    exact wellFormed_outcomeOf (fun b e he => ih b he)
      (fun e he => (settles_of_rule he).wellFormed) h

/-- **Descriptors are well-formed.** In any graph, with any conventions, a type that is classified
has a well-formed descriptor, and each property that is forwarded has the text of one. -/
theorem wellFormed_of_classify (c : Classifier) :
    (∀ t d, (c.classify t).value = .ok d → d.WellFormed) ∧
      ∀ ps, ∀ f ∈ (c.assemble ps).value.forwarded,
        ∃ d : Descriptor, d.WellFormed ∧ f.propType = d.text := by
  have hclassify : ∀ t d, (c.classify t).value = .ok d → d.WellFormed := by
    intro t d h
    rw [classify] at h
    exact wellFormed_of_classifyIn h
  refine ⟨hclassify, fun ps f hf => ?_⟩
  obtain ⟨p, -, a, hplaced, hf⟩ := exists_placed_of_mem_forwarded hf
  cases hplaced with
  | reserved | unclassified => cases hf
  | anyInstead =>
    obtain rfl := List.mem_singleton.1 hf
    exact ⟨.any, .any, rfl⟩
  | @classified d _ _ hd =>
    obtain rfl := List.mem_singleton.1 hf
    exact ⟨d, hclassify p.type d hd, rfl⟩

/-- A union with both truth values, one string twice, and a union of that string and lists. -/
def nestedUnions : Graph where
  types := [
    { id := ⟨0⟩, flags := TypeFlags.stringLiteral, value := some (.string "a") },
    { id := ⟨1⟩, flags := TypeFlags.booleanLiteral, value := some (.bool true) },
    { id := ⟨2⟩, flags := TypeFlags.booleanLiteral, value := some (.bool false) },
    { id := ⟨3⟩, flags := TypeFlags.number },
    { id := ⟨4⟩, flags := TypeFlags.object, symbol := some "Array", typeArguments := [⟨3⟩] },
    { id := ⟨5⟩, flags := TypeFlags.unionType, union := [⟨0⟩, ⟨4⟩] },
    { id := ⟨6⟩, flags := TypeFlags.unionType, union := [⟨1⟩, ⟨0⟩, ⟨5⟩, ⟨2⟩, ⟨0⟩, ⟨3⟩] }]
  components := []

set_option maxRecDepth 4000 in
/-- The union is classified with each of its members once. -/
theorem wellFormed_of_classify_nestedUnions :
    let c : Classifier := ⟨nestedUnions, {}⟩
    let d : Descriptor := .oneOfType [.bool, .oneOf ["\"a\""],
      .oneOfType [.oneOf ["\"a\""], .arrayOf .number], .number]
    (c.classify ⟨6⟩).value = .ok d ∧ d.WellFormed := by
  intro c d
  have hd : (c.classify ⟨6⟩).value = .ok d := value_classify_of_walk rfl
  exact ⟨hd, (wellFormed_of_classify c).1 ⟨6⟩ d hd⟩

end Classifier

end ComponentViews
