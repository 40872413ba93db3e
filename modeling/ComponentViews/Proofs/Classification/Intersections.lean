import ComponentViews.Proofs.Classification.Outcome

/-!
# Intersections

An intersection is described by one of its branches: by the first that says more than that all values
are accepted, or else by any that says so. Only an intersection without a branch that has a descriptor
has none. Branches that have no descriptor, or one that says nothing, can be added anywhere without a
difference as long as there is a branch that says something.

## Main definitions

* `Descriptor.Prevails`: what prevails of several descriptors.
* `Descriptor.saying`: those that say something.
* `Classifier.branchDescriptors`: the descriptors of the branches of an intersection.

## Main results

* `Classifier.intersectionOf_eq_ok_iff_prevails`, `Classifier.intersectionOf_eq_error_iff`: the
  outcome for an intersection.
* `Classifier.intersectionOf_of_saying`: it depends on the branches that say something, if there are
  any.
* `Classifier.value_classifyIn_of_intersection`: how intersections are classified.
-/

namespace ComponentViews

namespace Descriptor

/-- Of several descriptors the first prevails that does not accept all values; if all of them do, and
there are some, then the one that accepts all values does. -/
inductive Prevails : Descriptor → List Descriptor → Prop
  | first {d : Descriptor} {before after : List Descriptor} (hd : d ≠ .any)
      (hbefore : ∀ e ∈ before, e = .any) : Prevails d (before ++ d :: after)
  | any {found : List Descriptor} (hne : found ≠ []) (hall : ∀ e ∈ found, e = .any) :
      Prevails .any found

/-- The descriptors that do not accept all values. -/
def saying (found : List Descriptor) : List Descriptor := found.filter fun d => !d.isAny

theorem mem_saying_iff {found : List Descriptor} {d : Descriptor} :
    d ∈ saying found ↔ d ∈ found ∧ d ≠ .any := by
  simp [saying, ← Bool.not_eq_true]

/-- The first descriptor that says something prevails. -/
theorem prevails_iff_find? {found : List Descriptor} {d : Descriptor} (hd : d ≠ .any) :
    d.Prevails found ↔ found.find? (fun e => !e.isAny) = some d := by
  rw [List.find?_eq_some_iff_append]
  constructor
  · intro h
    cases h with
    | first _ hbefore =>
      refine ⟨by simpa [← Bool.not_eq_true] using hd, _, _, rfl, fun e he => ?_⟩
      simp [hbefore e he, isAny]
    | any => exact absurd rfl hd
  · rintro ⟨-, before, after, rfl, hbefore⟩
    exact .first hd fun e he => by simpa using hbefore e he

/-- A descriptor of all values prevails where nothing else is found. -/
theorem prevails_any_iff {found : List Descriptor} :
    Descriptor.any.Prevails found ↔ found ≠ [] ∧ saying found = [] := by
  have hsaying : saying found = [] ↔ ∀ e ∈ found, e = .any := by
    simp [saying, List.filter_eq_nil_iff]
  rw [hsaying]
  constructor
  · intro h
    cases h with
    | first hd _ => exact absurd rfl hd
    | any hne hall => exact ⟨hne, hall⟩
  · rintro ⟨hne, hall⟩
    exact .any hne hall

end Descriptor

namespace Classifier

open Descriptor (saying)

variable {c : Classifier} {t : TypeId} {outcomes : List Outcome}

/-! ## Outcomes of intersections -/

/-- Where a branch says something, the first of these is what describes the intersection. -/
theorem intersectionOf_of_saying {d : Descriptor} {ds : List Descriptor}
    (h : saying (descriptors outcomes) = d :: ds) : c.intersectionOf t outcomes = .ok d := by
  rw [intersectionOf_eq, ← List.head?_filter]
  change (((saying (descriptors outcomes)).head?).or _).elim _ _ = _
  rw [h]
  rfl

/-- Where no branch says anything, some branch that accepts all values does, if there is one. -/
theorem intersectionOf_of_not_saying (h : saying (descriptors outcomes) = []) :
    c.intersectionOf t outcomes =
      if descriptors outcomes = [] then c.obstructed t .noBranch else .ok .any := by
  rw [intersectionOf_eq, ← List.head?_filter]
  change (((saying (descriptors outcomes)).head?).or _).elim _ _ = _
  rw [h, List.head?_nil, Option.none_or]
  cases hfound : descriptors outcomes with
  | nil => rfl
  | cons d ds =>
    -- What is first says nothing, as all do.
    have hd : d = .any := by
      by_contra hd
      have hmem := Descriptor.mem_saying_iff.2 ⟨hfound ▸ List.mem_cons_self, hd⟩
      rw [h] at hmem
      exact List.not_mem_nil hmem
    subst hd
    rfl

/-- An intersection has the descriptor that prevails among those of its branches. -/
theorem intersectionOf_eq_ok_iff_prevails {d : Descriptor} :
    c.intersectionOf t outcomes = .ok d ↔ d.Prevails (descriptors outcomes) := by
  by_cases hd : d = .any
  · subst hd
    rw [Descriptor.prevails_any_iff]
    cases hsaying : saying (descriptors outcomes) with
    | nil =>
      rw [intersectionOf_of_not_saying hsaying]
      split <;> simp_all [obstructed]
    | cons e es =>
      have he : e ≠ .any :=
        (Descriptor.mem_saying_iff.1 (hsaying ▸ List.mem_cons_self : e ∈ saying _)).2
      rw [intersectionOf_of_saying hsaying]
      simp [he]
  · rw [intersectionOf_eq_ok_iff_find? hd, Descriptor.prevails_iff_find? hd]

/-- An intersection has no descriptor if none of its branches has one. -/
theorem intersectionOf_eq_error_iff {e : ClassifyError} :
    c.intersectionOf t outcomes = .error e ↔
      descriptors outcomes = [] ∧ e = .unclassifiable (c.graph.render t) .noBranch := by
  cases hsaying : saying (descriptors outcomes) with
  | nil =>
    rw [intersectionOf_of_not_saying hsaying]
    by_cases hnil : descriptors outcomes = []
    · rw [if_pos hnil, obstructed, Except.error.injEq]
      exact ⟨fun h => ⟨hnil, h.symm⟩, fun h => h.2.symm⟩
    · rw [if_neg hnil]
      simp [hnil]
  | cons d ds =>
    have hne : descriptors outcomes ≠ [] := by
      intro hnil
      rw [hnil] at hsaying
      cases hsaying
    rw [intersectionOf_of_saying hsaying]
    simp [hne]

/-! ## Branches of intersections -/

/-- The descriptors of the branches of an intersection, in their order: of a single value the one that
accepts it, and of any other branch its own. A branch without a descriptor is left out. -/
def branchDescriptors (c : Classifier) (outcome : TypeId → Outcome) (branches : List TypeId) :
    List Descriptor :=
  branches.filterMap fun b =>
    if (c.graph.flags b).isLiteral then some (.oneOf [c.graph.render b])
    else (outcome b).toOption

section Branches

variable {outcome : TypeId → Outcome} {b : TypeId} (branches : List TypeId)

theorem branchDescriptors_nil : c.branchDescriptors outcome [] = [] := rfl

theorem branchDescriptors_cons_of_literal (h : (c.graph.flags b).isLiteral) :
    c.branchDescriptors outcome (b :: branches) =
      .oneOf [c.graph.render b] :: c.branchDescriptors outcome branches :=
  List.filterMap_cons_some (if_pos h)

theorem branchDescriptors_cons_of_ok {d : Descriptor} (h : ¬ (c.graph.flags b).isLiteral)
    (ho : outcome b = .ok d) :
    c.branchDescriptors outcome (b :: branches) = d :: c.branchDescriptors outcome branches :=
  List.filterMap_cons_some (by rw [if_neg h, ho]; rfl)

theorem branchDescriptors_cons_of_error {e : ClassifyError} (h : ¬ (c.graph.flags b).isLiteral)
    (ho : outcome b = .error e) :
    c.branchDescriptors outcome (b :: branches) = c.branchDescriptors outcome branches :=
  List.filterMap_cons_none (by rw [if_neg h, ho]; rfl)

variable {branches} in
theorem branchDescriptors_eq_nil_iff :
    c.branchDescriptors outcome branches = [] ↔
      ∀ b ∈ branches, ¬ (c.graph.flags b).isLiteral ∧ ∀ d, outcome b ≠ .ok d := by
  rw [branchDescriptors, List.filterMap_eq_nil_iff]
  refine forall₂_congr fun b _ => ?_
  by_cases h : (c.graph.flags b).isLiteral
  · simp [h]
  · rw [if_neg h, and_iff_right h]
    cases outcome b <;> simp [Except.toOption]

end Branches

theorem descriptors_branchOutcomes (outcome : TypeId → Outcome) (branches : List TypeId) :
    descriptors (branches.map fun b => c.branchOutcome b (outcome b)) =
      c.branchDescriptors outcome branches := by
  rw [descriptors, List.filterMap_map]
  refine List.filterMap_congr fun b _ => ?_
  rw [Function.comp_apply, branchOutcome]
  split <;> rfl

/-- An intersection is classified by the outcomes for its branches. -/
theorem value_classifyIn_eq_intersectionOf {stack branches : List TypeId}
    (hrule : c.rule t = .intersection branches) (ht : t ∉ stack) :
    ∃ outcomes, (c.classifyIn stack t).value = c.intersectionOf t outcomes ∧
      descriptors outcomes =
        c.branchDescriptors (fun b => (c.classifyIn (t :: stack) b).value) branches := by
  rw [value_classifyIn c t ht, hrule]
  exact ⟨_, rfl, descriptors_branchOutcomes _ branches⟩

/-- **Intersections.** A type that is classified as an intersection has the descriptor that prevails
among those of its branches, and none exactly if no branch has one. Two such types, of whatever graphs
and whatever is in progress, have the same descriptor if their branches that say something have the
same descriptors in the same order, and there are some. -/
theorem value_classifyIn_of_intersection {stack branches : List TypeId}
    (hrule : c.rule t = .intersection branches) (ht : t ∉ stack) :
    let found := c.branchDescriptors (fun b => (c.classifyIn (t :: stack) b).value) branches
    (∀ d, (c.classifyIn stack t).value = .ok d ↔ d.Prevails found) ∧
      (∀ e, (c.classifyIn stack t).value = .error e ↔
        found = [] ∧ e = .unclassifiable (c.graph.render t) .noBranch) ∧
      ∀ (c' : Classifier) (t' : TypeId) (stack' branches' : List TypeId),
        c'.rule t' = .intersection branches' → t' ∉ stack' →
          let found' :=
            c'.branchDescriptors (fun b => (c'.classifyIn (t' :: stack') b).value) branches'
          saying found = saying found' → saying found ≠ [] →
            (c'.classifyIn stack' t').value = (c.classifyIn stack t).value := by
  intro found
  obtain ⟨outcomes, hvalue, hfound⟩ := value_classifyIn_eq_intersectionOf hrule ht
  refine ⟨fun d => ?_, fun e => ?_, ?_⟩
  · rw [hvalue, intersectionOf_eq_ok_iff_prevails, hfound]
  · rw [hvalue, intersectionOf_eq_error_iff, hfound]
  · intro c' t' stack' branches' hrule' ht' found' hsaying hne
    obtain ⟨outcomes', hvalue', hfound'⟩ := value_classifyIn_eq_intersectionOf hrule' ht'
    obtain ⟨d, ds, hd⟩ := List.exists_cons_of_ne_nil hne
    have hfirst : saying (descriptors outcomes) = d :: ds := hfound ▸ hd
    have hfirst' : saying (descriptors outcomes') = d :: ds := by rw [hfound', ← hd, hsaying]
    rw [hvalue, hvalue', intersectionOf_of_saying hfirst, intersectionOf_of_saying hfirst']

/-- A text that is a certain value, and the same with branches that say nothing: a type that has no
descriptor, objects, and the type itself. -/
def brandedText : Graph where
  types := [
    { id := ⟨0⟩, flags := TypeFlags.object },
    { id := ⟨1⟩, flags := TypeFlags.never },
    { id := ⟨2⟩, flags := TypeFlags.string },
    { id := ⟨3⟩, flags := TypeFlags.stringLiteral, value := some (.string "a") },
    { id := ⟨4⟩, flags := TypeFlags.intersectionType, intersection := [⟨2⟩, ⟨3⟩] },
    { id := ⟨5⟩, flags := TypeFlags.intersectionType, display := some "Branded",
      intersection := [⟨1⟩, ⟨0⟩, ⟨5⟩, ⟨2⟩, ⟨0⟩, ⟨3⟩] }]
  components := []

set_option maxRecDepth 4000 in
theorem rule_brandedText :
    (mk brandedText {}).rule ⟨0⟩ = .settled (.ok .any) ∧
      (mk brandedText {}).rule ⟨1⟩ = .settled ((mk brandedText {}).obstructed ⟨1⟩ .noRule) ∧
      (mk brandedText {}).rule ⟨2⟩ = .settled (.ok .string) ∧
      (mk brandedText {}).rule ⟨4⟩ = .intersection [⟨2⟩, ⟨3⟩] ∧
      (mk brandedText {}).rule ⟨5⟩ = .intersection [⟨1⟩, ⟨0⟩, ⟨5⟩, ⟨2⟩, ⟨0⟩, ⟨3⟩] := by
  refine ⟨?_, ?_, ?_, ?_, ?_⟩ <;> rfl

theorem branchDescriptors_brandedText :
    let c : Classifier := ⟨brandedText, {}⟩
    c.branchDescriptors (fun b => (c.classifyIn [⟨4⟩] b).value) [⟨2⟩, ⟨3⟩] =
        [.string, .oneOf ["\"a\""]] ∧
      c.branchDescriptors (fun b => (c.classifyIn [⟨5⟩] b).value)
          [⟨1⟩, ⟨0⟩, ⟨5⟩, ⟨2⟩, ⟨0⟩, ⟨3⟩] =
        [.any, .string, .any, .oneOf ["\"a\""]] := by
  intro c
  obtain ⟨hobject, hnever, hstring, -, -⟩ := rule_brandedText
  have hself : (c.classifyIn [⟨5⟩] ⟨5⟩).value = c.obstructed ⟨5⟩ .circular := by
    rw [classifyIn_of_mem c List.mem_cons_self, Logged.value_pure]
  have htext : c.graph.render ⟨3⟩ = "\"a\"" := by rfl
  have hany : (c.classifyIn [⟨5⟩] ⟨0⟩).value = .ok .any :=
    value_classifyIn_of_settled hobject (by decide)
  have hfails : (c.classifyIn [⟨5⟩] ⟨1⟩).value = c.obstructed ⟨1⟩ .noRule :=
    value_classifyIn_of_settled hnever (by decide)
  constructor
  · rw [branchDescriptors_cons_of_ok _ (by decide)
        (value_classifyIn_of_settled hstring (by decide)),
      branchDescriptors_cons_of_literal _ (by decide), branchDescriptors_nil, htext]
  · rw [branchDescriptors_cons_of_error _ (by decide) hfails,
      branchDescriptors_cons_of_ok _ (by decide) hany,
      branchDescriptors_cons_of_error _ (by decide) hself,
      branchDescriptors_cons_of_ok _ (by decide)
        (value_classifyIn_of_settled hstring (by decide)),
      branchDescriptors_cons_of_ok _ (by decide) hany,
      branchDescriptors_cons_of_literal _ (by decide), branchDescriptors_nil, htext]

/-- Both intersections are classified as strings. -/
theorem value_classifyIn_of_intersection_branded :
    let c : Classifier := ⟨brandedText, {}⟩
    let branches : List TypeId := [⟨1⟩, ⟨0⟩, ⟨5⟩, ⟨2⟩, ⟨0⟩, ⟨3⟩]
    c.rule ⟨4⟩ = .intersection [⟨2⟩, ⟨3⟩] ∧ c.rule ⟨5⟩ = .intersection branches ∧
      (⟨5⟩ : TypeId) ∉ ([] : List TypeId) ∧
      (c.classify ⟨5⟩).value = .ok .string ∧ (c.classify ⟨4⟩).value = (c.classify ⟨5⟩).value := by
  intro c branches
  obtain ⟨-, -, -, hshort, hlong⟩ := rule_brandedText
  obtain ⟨hfound', hfound⟩ := branchDescriptors_brandedText
  have hentered : (⟨5⟩ : TypeId) ∉ ([] : List TypeId) := List.not_mem_nil
  obtain ⟨hvalue, -, hsame⟩ := value_classifyIn_of_intersection hlong hentered
  rw [hfound] at hvalue hsame
  have hprevails : Descriptor.string.Prevails
      ([.any] ++ .string :: [.any, .oneOf ["\"a\""]]) := .first (by simp) (by simp)
  refine ⟨hshort, hlong, hentered, (hvalue _).2 hprevails, ?_⟩
  refine hsame c ⟨4⟩ [] _ hshort List.not_mem_nil ?_ (List.cons_ne_nil _ _)
  rw [hfound']
  rfl

end Classifier

end ComponentViews
