import ComponentViews.Proofs.Classification.Intersections
import Mathlib.Logic.Function.Iterate

/-!
# Why types have no descriptors

Unions and intersections leave out what cannot be described, but a list cannot do without its
elements. So whether a type has a descriptor depends on the type at which one ends by going from lists
to their elements: either this type has been met before, or it decides for itself, and the lists are
wrapped around its descriptor. An error always is about the type at the end.

## Main definitions

* `Classifier.followElements`: the lists that are met by going to their elements, and the type after
  them.
* `Classifier.Unmatched`: no rule before the last one applies to a type.
* `Classifier.FailsAt`: what stands in the way at the end of a walk.

## Main results

* `Classifier.value_classifyIn_followElements`: lists are classified by the type at the end.
* `Classifier.rule_eq_error_iff`: which rules are errors.
* `Classifier.FailsAt.value_classifyIn`, `Classifier.failsAt_of_value_classifyIn`: what stands in the
  way at the end of a walk is the error there.
* `Classifier.failures_of_followElements`: where failures come from.
-/

namespace ComponentViews

theorem map_eq_error_iff {ε α β : Type} {f : α → β} {x : Except ε α} {e : ε} :
    x.map f = .error e ↔ x = .error e := by
  cases x <;> simp [Except.map]

namespace Classifier

/-! ## From lists to their elements -/

/-- The walk from a type to the elements of lists: the types that were left behind, the latest first,
and the type at which the walk ends. It ends at a type that was left behind before, and at one that is
not classified as a list with elements of a single type. -/
def followElements (c : Classifier) (passed : List TypeId) (t : TypeId) : List TypeId × TypeId :=
  if _h : t ∈ passed then (passed, t)
  else
    match c.rule t with
    | .array [element] => followElements c (t :: passed) element
    | _ => (passed, t)
termination_by (unentered allIds passed).length
decreasing_by exact length_unentered_lt (mem_allIds t) _h

variable {c : Classifier} {passed : List TypeId} {t : TypeId}

theorem followElements_of_mem (h : t ∈ passed) : c.followElements passed t = (passed, t) := by
  rw [followElements, dif_pos h]

theorem followElements_of_array (h : t ∉ passed) {element : TypeId}
    (hrule : c.rule t = .array [element]) :
    c.followElements passed t = c.followElements (t :: passed) element := by
  rw [followElements, dif_neg h, hrule]

theorem followElements_of_not_array (hrule : ∀ element, c.rule t ≠ .array [element]) :
    c.followElements passed t = (passed, t) := by
  rw [followElements]
  split
  · rfl
  · split
    · rename_i element h
      exact absurd h (hrule element)
    · rfl

/-- A list has a descriptor if its elements have one with the list in progress. -/
theorem value_classifyIn_of_array (h : t ∉ passed) {element : TypeId}
    (hrule : c.rule t = .array [element]) :
    (c.classifyIn passed t).value = (c.classifyIn (t :: passed) element).value.map .arrayOf := by
  rw [value_classifyIn c t h, hrule]
  rfl

/-- At its end a walk has met a type before, or a type that is no list with elements of a single
type. -/
theorem followElements_ends (c : Classifier) (passed : List TypeId) (t : TypeId) :
    (c.followElements passed t).2 ∈ (c.followElements passed t).1 ∨
      ∀ element, c.rule (c.followElements passed t).2 ≠ .array [element] := by
  induction passed, t using followElements.induct c with
  | case1 passed t h =>
    rw [followElements_of_mem h]
    exact .inl h
  | case2 passed t h element hrule ih =>
    rw [followElements_of_array h hrule]
    exact ih
  | case3 passed t h hrule =>
    rw [followElements_of_not_array hrule]
    exact .inr hrule

/-- Types are classified by the type at the end of the walk from them, with the lists on the way in
progress, and each of these is wrapped around its descriptor. -/
theorem value_classifyIn_followElements (c : Classifier) (passed : List TypeId) (t : TypeId) :
    ∃ steps, (c.followElements passed t).1.length = steps + passed.length ∧
      (c.classifyIn passed t).value =
        (c.classifyIn (c.followElements passed t).1 (c.followElements passed t).2).value.map
          Descriptor.arrayOf^[steps] := by
  have hnone : ∀ o : Outcome, o = o.map Descriptor.arrayOf^[0] := fun o => by cases o <;> rfl
  induction passed, t using followElements.induct c with
  | case1 passed t h =>
    rw [followElements_of_mem h]
    exact ⟨0, (Nat.zero_add _).symm, hnone _⟩
  | case2 passed t h element hrule ih =>
    obtain ⟨steps, hlength, hvalue⟩ := ih
    rw [followElements_of_array h hrule]
    refine ⟨steps + 1, by rw [hlength, List.length_cons]; omega, ?_⟩
    -- One list more is wrapped around what is wrapped around the elements.
    rw [value_classifyIn_of_array h hrule, hvalue, Function.iterate_succ']
    generalize (c.classifyIn (c.followElements (t :: passed) element).1
      (c.followElements (t :: passed) element).2).value = outcome
    cases outcome <;> rfl
  | case3 passed t h hrule =>
    rw [followElements_of_not_array hrule]
    exact ⟨0, (Nat.zero_add _).symm, hnone _⟩

/-! ## Rules that are errors -/

/-- No rule before the last one applies to a type: it is not recognized by its flags, its name or its
rendering, and it has no branches. -/
structure Unmatched (c : Classifier) (t : TypeId) : Prop where
  boolean : ¬ (c.graph.flags t).contains TypeFlags.boolean
  ne_false : c.graph.render t ≠ "false"
  number : ¬ (c.graph.flags t).intersects TypeFlags.numberLike
  string : ¬ (c.graph.flags t).intersects TypeFlags.stringLike
  any : ¬ (c.graph.flags t).intersects (TypeFlags.any ∪ TypeFlags.unknown)
  array : ¬ (c.graph.symbolName t).any c.conventions.isArrayMarker
  node : ¬ c.conventions.isNodeMarker (c.graph.render t)
  style : ¬ c.conventions.isStyleMarker (c.graph.render t)
  intersection : c.graph.intersectionTypes t = none
  union : c.graph.unionTypes t = none

/-- The rules that are errors are about functions, which are objects that can be called, and about
types that no rule matches. -/
theorem structuralRule_eq_error_iff {e : ClassifyError} :
    c.structuralRule t = .settled (.error e) ↔
      (c.graph.intersectionTypes t = none ∧ c.graph.unionTypes t = none) ∧
        if (c.graph.flags t).contains TypeFlags.object then
          c.graph.callSignatures t ≠ [] ∧ e = .functionType (c.graph.render t)
        else e = .unclassifiable (c.graph.render t) .noRule := by
  unfold structuralRule
  cases c.graph.intersectionTypes t with
  | some branches => simp
  | none =>
    cases c.graph.unionTypes t with
    | some branches => simp
    | none =>
      dsimp only
      rw [and_iff_right ⟨rfl, rfl⟩]
      split
      · by_cases hcalls : c.graph.callSignatures t ≠ []
        · rw [if_pos hcalls, and_iff_right hcalls, Rule.settled.injEq, Except.error.injEq, eq_comm]
        · rw [if_neg hcalls, iff_false_right fun h => hcalls h.1]
          exact fun h => by cases h
      · rw [obstructed, Rule.settled.injEq, Except.error.injEq, eq_comm]

theorem rule_of_unmatched (h : c.Unmatched t) : c.rule t = c.structuralRule t := by
  unfold rule
  dsimp only
  rw [if_neg (not_or.2 ⟨h.boolean, h.ne_false⟩), if_neg h.number, if_neg h.string, if_neg h.any,
    if_neg h.array, if_neg h.node, if_neg h.style]

/-- An error is settled for types to which no rule before the last one applies. -/
theorem unmatched_of_rule {e : ClassifyError} (h : c.rule t = .settled (.error e)) :
    c.Unmatched t := by
  unfold rule at h
  -- Each rule but the last gives a descriptor or parts, so a failure is not its outcome.
  obtain ⟨hbool, h⟩ := (ite_eq_iff.1 h).resolve_left fun hr => by cases hr.2
  obtain ⟨hnumber, h⟩ := (ite_eq_iff.1 h).resolve_left fun hr => by cases hr.2
  obtain ⟨hstring, h⟩ := (ite_eq_iff.1 h).resolve_left fun hr => by cases hr.2
  obtain ⟨hany, h⟩ := (ite_eq_iff.1 h).resolve_left fun hr => by cases hr.2
  obtain ⟨harray, h⟩ := (ite_eq_iff.1 h).resolve_left fun hr => by cases hr.2
  obtain ⟨hnode, h⟩ := (ite_eq_iff.1 h).resolve_left fun hr => by cases hr.2
  obtain ⟨hstyle, h⟩ := (ite_eq_iff.1 h).resolve_left fun hr => by cases hr.2
  obtain ⟨⟨hintersection, hunion⟩, -⟩ := structuralRule_eq_error_iff.1 h
  obtain ⟨hboolean, hfalse⟩ := not_or.1 hbool
  exact ⟨hboolean, hfalse, hnumber, hstring, hany, harray, hnode, hstyle, hintersection, hunion⟩

theorem rule_eq_error_iff {e : ClassifyError} :
    c.rule t = .settled (.error e) ↔
      c.Unmatched t ∧
        if (c.graph.flags t).contains TypeFlags.object then
          c.graph.callSignatures t ≠ [] ∧ e = .functionType (c.graph.render t)
        else e = .unclassifiable (c.graph.render t) .noRule := by
  constructor
  · intro h
    have hunmatched := unmatched_of_rule h
    rw [rule_of_unmatched hunmatched] at h
    exact ⟨hunmatched, (structuralRule_eq_error_iff.1 h).2⟩
  · rintro ⟨hunmatched, h⟩
    rw [rule_of_unmatched hunmatched]
    exact structuralRule_eq_error_iff.2 ⟨⟨hunmatched.intersection, hunmatched.union⟩, h⟩

/-! ## Errors at the end of a walk -/

/-- What stands in the way at the type at the end of a walk, with the types that were left behind. -/
inductive FailsAt (c : Classifier) (passed : List TypeId) (t : TypeId) : ClassifyError → Prop
  /-- The type was left behind before. -/
  | circular (h : t ∈ passed) : FailsAt c passed t (.unclassifiable (c.graph.render t) .circular)
  /-- It is a list, but not with elements of a single type. -/
  | argumentCount {arguments : List TypeId} (h : t ∉ passed) (hrule : c.rule t = .array arguments)
      (hlength : arguments.length ≠ 1) :
      FailsAt c passed t (.unclassifiable (c.graph.render t) (.argumentCount arguments.length))
  /-- It is an intersection, and none of its branches is a single value or has a descriptor. -/
  | noBranch {branches : List TypeId} (h : t ∉ passed) (hrule : c.rule t = .intersection branches)
      (hbranches : ∀ b ∈ branches, ¬ (c.graph.flags b).isLiteral ∧
        ∀ d, (c.classifyIn (t :: passed) b).value ≠ .ok d) :
      FailsAt c passed t (.unclassifiable (c.graph.render t) .noBranch)
  /-- It is an object that can be called, which only the last rule finds. -/
  | functionType (h : t ∉ passed) (hunmatched : c.Unmatched t)
      (hobject : (c.graph.flags t).contains TypeFlags.object)
      (hcalls : c.graph.callSignatures t ≠ []) :
      FailsAt c passed t (.functionType (c.graph.render t))
  /-- It is no object, and no rule before the last one applies. -/
  | noRule (h : t ∉ passed) (hunmatched : c.Unmatched t)
      (hobject : ¬ (c.graph.flags t).contains TypeFlags.object) :
      FailsAt c passed t (.unclassifiable (c.graph.render t) .noRule)

theorem outcomeOf_array {arguments : List TypeId} (h : arguments.length ≠ 1)
    (outcome : TypeId → Outcome) :
    c.outcomeOf t outcome (.array arguments) =
      c.obstructed t (.argumentCount arguments.length) := by
  match arguments with
  | [] => rfl
  | [_] => exact absurd rfl h
  | _ :: _ :: _ => rfl

/-- What stands in the way is the error. -/
theorem FailsAt.value_classifyIn {e : ClassifyError} (hfails : c.FailsAt passed t e) :
    (c.classifyIn passed t).value = .error e := by
  cases hfails with
  | circular h =>
    rw [classifyIn_of_mem c h]
    rfl
  | argumentCount h hrule hlength =>
    rw [Classifier.value_classifyIn c t h, hrule, outcomeOf_array hlength]
    rfl
  | noBranch h hrule hbranches =>
    obtain ⟨outcomes, hvalue, hfound⟩ := value_classifyIn_eq_intersectionOf hrule h
    rw [hvalue, intersectionOf_eq_error_iff, hfound, branchDescriptors_eq_nil_iff]
    exact ⟨hbranches, rfl⟩
  | functionType h hunmatched hobject hcalls =>
    refine value_classifyIn_of_settled (rule_eq_error_iff.2 ⟨hunmatched, ?_⟩) h
    rw [if_pos hobject]
    exact ⟨hcalls, rfl⟩
  | noRule h hunmatched hobject =>
    refine value_classifyIn_of_settled (rule_eq_error_iff.2 ⟨hunmatched, ?_⟩) h
    rw [if_neg hobject]

/-- At the end of a walk nothing else stands in the way. -/
theorem failsAt_of_value_classifyIn
    (hend : t ∈ passed ∨ ∀ element, c.rule t ≠ .array [element]) {e : ClassifyError}
    (he : (c.classifyIn passed t).value = .error e) : c.FailsAt passed t e := by
  by_cases h : t ∈ passed
  · rw [classifyIn_of_mem c h] at he
    obtain rfl := Except.error.inj he
    exact .circular h
  -- Each rule leaves one kind of error; the one for unions leaves none.
  cases hrule : c.rule t with
  | settled o =>
    rw [value_classifyIn_of_settled hrule h] at he
    obtain ⟨hunmatched, he⟩ := rule_eq_error_iff.1 (he ▸ hrule)
    split at he
    · rename_i hobject
      obtain ⟨hcalls, rfl⟩ := he
      exact .functionType h hunmatched hobject hcalls
    · rename_i hobject
      subst he
      exact .noRule h hunmatched hobject
  | array arguments =>
    have hlength : arguments.length ≠ 1 := by
      intro hone
      obtain ⟨element, rfl⟩ := List.length_eq_one_iff.1 hone
      exact hend.resolve_left h element hrule
    rw [value_classifyIn c t h, hrule, outcomeOf_array hlength] at he
    obtain rfl := Except.error.inj he
    exact .argumentCount h hrule hlength
  | intersection branches =>
    obtain ⟨outcomes, hvalue, hfound⟩ := value_classifyIn_eq_intersectionOf hrule h
    rw [hvalue, intersectionOf_eq_error_iff, hfound, branchDescriptors_eq_nil_iff] at he
    obtain ⟨hbranches, rfl⟩ := he
    exact .noBranch h hrule hbranches
  | union branches =>
    rw [value_classifyIn c t h, hrule, outcomeOf, value_unionOf] at he
    cases he

/-- **Where failures come from.** The walk from a type to the elements of lists may meet a type twice;
then there is no descriptor, and the error is about the type met twice. Otherwise the walk ends at a
type that is no list with elements of a single type, which is classified with the types on the way in
progress. Its descriptor is wrapped in as many lists as there were steps, and its error, if it has no
descriptor, is left as it is. Nothing fails but what was met twice, lists with another number of
arguments, intersections without a branch that is a single value or has a descriptor, objects that can
be called, which alone are reported as functions, and what no rule matches; unions never do. -/
theorem failures_of_followElements (c : Classifier) (ty : TypeId) :
    let passed := (c.followElements [] ty).1
    let t := (c.followElements [] ty).2
    (t ∈ passed →
      (c.classify ty).value = .error (.unclassifiable (c.graph.render t) .circular)) ∧
    (t ∉ passed → (∀ element, c.rule t ≠ .array [element]) ∧
      (c.classify ty).value =
        (c.classifyIn passed t).value.map Descriptor.arrayOf^[passed.length]) ∧
    (∀ e, (c.classify ty).value = .error e ↔ c.FailsAt passed t e) ∧
    (∀ name, (c.classify ty).value = .error (.functionType name) ↔
      t ∉ passed ∧ c.Unmatched t ∧ (c.graph.flags t).contains TypeFlags.object ∧
        c.graph.callSignatures t ≠ [] ∧ name = c.graph.render t) ∧
    ∀ branches, t ∉ passed → c.rule t = .union branches →
      ∃ d, (c.classify ty).value = .ok d := by
  intro passed t
  -- The walk through lists ends at `t`, and wraps what becomes of `t` once for each list.
  have hend := followElements_ends c [] ty
  obtain ⟨steps, hsteps, hvalue⟩ := value_classifyIn_followElements c [] ty
  obtain rfl : passed.length = steps := hsteps
  have herror : ∀ e, (c.classify ty).value = .error e ↔ c.FailsAt passed t e := by
    intro e
    rw [classify, hvalue, map_eq_error_iff]
    exact ⟨failsAt_of_value_classifyIn hend, FailsAt.value_classifyIn⟩
  refine ⟨fun h => (herror _).2 (.circular h), fun h => ⟨hend.resolve_left h, hvalue⟩, herror,
    fun name => ?_, fun branches h hrule => ?_⟩
  · rw [herror]
    constructor
    · intro hfails
      cases hfails with
      | functionType h hunmatched hobject hcalls => exact ⟨h, hunmatched, hobject, hcalls, rfl⟩
    · rintro ⟨h, hunmatched, hobject, hcalls, rfl⟩
      exact .functionType h hunmatched hobject hcalls
  · rw [classify, hvalue, value_classifyIn c _ h, hrule, outcomeOf, value_unionOf]
    exact ⟨_, rfl⟩

/-- Lists of lists of functions, and lists of themselves. -/
def nestedLists : Graph where
  types := [
    { id := ⟨0⟩, flags := TypeFlags.object, signatures := [⟨[], ⟨0⟩⟩], display := some "Handler" },
    { id := ⟨1⟩, flags := TypeFlags.object, symbol := some "Array", typeArguments := [⟨0⟩] },
    { id := ⟨2⟩, flags := TypeFlags.object, symbol := some "Array", typeArguments := [⟨1⟩] },
    { id := ⟨3⟩, flags := TypeFlags.object, symbol := some "Array", typeArguments := [⟨3⟩],
      display := some "Endless" }]
  components := []

set_option maxRecDepth 4000 in
theorem rule_nestedLists :
    (mk nestedLists {}).rule ⟨0⟩ = .settled (.error (.functionType "Handler")) ∧
      (mk nestedLists {}).rule ⟨1⟩ = .array [⟨0⟩] ∧ (mk nestedLists {}).rule ⟨2⟩ = .array [⟨1⟩] ∧
      (mk nestedLists {}).rule ⟨3⟩ = .array [⟨3⟩] := by
  refine ⟨?_, ?_, ?_, ?_⟩ <;> rfl

/-- The functions are reported, not the lists of lists of them. -/
theorem failures_of_followElements_nestedLists :
    let c : Classifier := ⟨nestedLists, {}⟩
    c.followElements [] ⟨2⟩ = ([⟨1⟩, ⟨2⟩], ⟨0⟩) ∧
      (c.classify ⟨2⟩).value = .error (.functionType "Handler") ∧
      c.followElements [] ⟨3⟩ = ([⟨3⟩], ⟨3⟩) ∧
      (c.classify ⟨3⟩).value = .error (.unclassifiable "Endless" .circular) := by
  intro c
  obtain ⟨hhandler, hlist, hlists, hendless⟩ := rule_nestedLists
  have hwalk : c.followElements [] ⟨2⟩ = ([⟨1⟩, ⟨2⟩], ⟨0⟩) := by
    rw [followElements_of_array (by decide) hlists, followElements_of_array (by decide) hlist,
      followElements_of_not_array (by simp [hhandler])]
  have hloop : c.followElements [] ⟨3⟩ = ([⟨3⟩], ⟨3⟩) := by
    rw [followElements_of_array (by decide) hendless, followElements_of_mem (by decide)]
  have hfunction := (failures_of_followElements c ⟨2⟩).2.2.2.1 "Handler"
  have hcircular := (failures_of_followElements c ⟨3⟩).1
  rw [hwalk] at hfunction
  rw [hloop] at hcircular
  refine ⟨hwalk, hfunction.2 ⟨by decide, unmatched_of_rule hhandler, by decide, by decide, rfl⟩,
    hloop, hcircular List.mem_cons_self⟩

end Classifier

end ComponentViews
