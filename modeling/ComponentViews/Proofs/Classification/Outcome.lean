import ComponentViews.Proofs.Classification.Rules
import Mathlib.Data.List.Basic

/-!
# Outcomes by the rules

Without its reports, a classification is a function of the rule for the type and of the outcomes for
the parts. A branch that is a single value contributes that value whatever its own outcome is, an
intersection has the descriptor of one of its branches, and a union has those of its members.

## Main definitions

* `Classifier.branchOutcome`, `Classifier.branchPart?`: what a branch contributes, given its
  outcome.
* `Classifier.outcomeOf`: the outcome for a type, given the rule and the outcomes for the parts.
* `Descriptor.ofMembers`: the descriptor of a union with the given members.
* `Classifier.Settles`: the descriptors that are given without looking at parts.

## Main results

* `value_classifyIn`: the outcome for a type by those for its parts.
* `intersectionOf_eq_ok_iff`: an intersection has the first descriptor that says something.
* `value_unionOf`: a union has the descriptor of its members.
* `mem_unionMembers`: where the members of a union come from.
-/

namespace ComponentViews

/-- The descriptor of the values that one of the members accepts. -/
def Descriptor.ofMembers : List Descriptor → Descriptor
  | [] => .any
  | [d] => d
  | ds => .oneOfType ds

/-- A descriptor that is written without parts. -/
inductive Descriptor.IsBasic : Descriptor → Prop
  | bool : IsBasic .bool
  | number : IsBasic .number
  | string : IsBasic .string
  | any : IsBasic .any
  | node : IsBasic .node
  | object : IsBasic .object

/-- No other descriptor has the text of one without parts. -/
theorem Descriptor.eq_of_text_eq {d e : Descriptor} (he : e.IsBasic) (h : d.text = e.text) :
    d = e := by
  -- The parts of a descriptor stand between parentheses.
  have hparen : ∀ a b c : String, '(' ∈ a.toList → a ++ b ++ c ≠ e.text := by
    intro a b c ha habc
    have hmem : '(' ∈ e.text.toList := by
      rw [← habc, String.toList_append, String.toList_append, List.append_assoc]
      exact List.mem_append_left _ ha
    cases he <;> exact absurd hmem (by decide)
  cases d with
  | arrayOf element => exact absurd h (hparen "PropTypes.arrayOf(" _ ")" (by decide))
  | oneOf values => exact absurd h (hparen "PropTypes.oneOf([" _ "])" (by decide))
  | oneOfType members => exact absurd h (hparen "PropTypes.oneOfType([" _ "])" (by decide))
  | _ => cases he <;> first | rfl | exact absurd h (by decide)

namespace Classifier

variable (c : Classifier) (t : TypeId)

/-! ## The outcome for a type from those for its parts -/

/-- The outcome of a branch of an intersection, given the outcome for its type. -/
def branchOutcome (b : TypeId) (outcome : Outcome) : Outcome :=
  if (c.graph.flags b).isLiteral then .ok (.oneOf [c.graph.render b]) else outcome

/-- The contribution of a branch to a union, given the outcome for its type. -/
def branchPart? (booleanPair : Bool) (b : TypeId) (outcome : Outcome) : Option UnionPart :=
  if booleanPair ∧ (c.graph.flags b).contains TypeFlags.booleanLiteral then some (.typed .bool)
  else if (c.graph.flags b).isLiteral then some (.literal (c.graph.render b))
  else outcome.toOption.map .typed

/-- The outcome for a type by a rule, given the outcomes for the parts. -/
def outcomeOf (outcome : TypeId → Outcome) : Rule → Outcome
  | .settled settled => settled
  | .array [element] => (outcome element).map .arrayOf
  | .array arguments => c.obstructed t (.argumentCount arguments.length)
  | .intersection branches =>
    c.intersectionOf t (branches.map fun b => c.branchOutcome b (outcome b))
  | .union branches =>
    (c.unionOf t (branches.filterMap fun b =>
      c.branchPart? (c.hasBooleanPair branches) b (outcome b))).value

/-- A truth value is a single value. -/
theorem isLiteral_of_contains_booleanLiteral {f : TypeFlags}
    (h : f.contains TypeFlags.booleanLiteral) : f.isLiteral := by
  unfold TypeFlags.contains at h
  unfold TypeFlags.isLiteral TypeFlags.intersects
  rw [beq_iff_eq] at h
  rw [bne_iff_ne]
  intro h0
  have hmask : TypeFlags.literal.bits &&& TypeFlags.booleanLiteral.bits =
      TypeFlags.booleanLiteral.bits := by decide
  have hzero : TypeFlags.booleanLiteral.bits = 0 :=
    calc TypeFlags.booleanLiteral.bits
      _ = f.bits &&& TypeFlags.booleanLiteral.bits := h.symm
      _ = f.bits &&& (TypeFlags.literal.bits &&& TypeFlags.booleanLiteral.bits) := by rw [hmask]
      _ = 0 &&& TypeFlags.booleanLiteral.bits := by rw [← BitVec.and_assoc, h0]
      _ = 0 := BitVec.zero_and
  exact absurd hzero (by decide)

/-- A branch that is no single value contributes its descriptor. -/
theorem branchPart?_of_not_literal (booleanPair : Bool) {b : TypeId} (outcome : Outcome)
    (hl : ¬ (c.graph.flags b).isLiteral) :
    c.branchPart? booleanPair b outcome = outcome.toOption.map .typed := by
  unfold branchPart?
  rw [if_neg fun h => hl (isLiteral_of_contains_booleanLiteral h.2), if_neg hl]

theorem value_intersectionBranch (b : TypeId) (f : Unit → Logged Outcome) :
    (c.intersectionBranch b f).value = c.branchOutcome b (f ()).value := by
  unfold intersectionBranch branchOutcome
  by_cases hl : (c.graph.flags b).isLiteral
  · rw [if_pos hl, if_pos hl, Logged.value_pure]
  · rw [if_neg hl, if_neg hl, Logged.value_bind]
    cases (f ()).value <;> rfl

theorem value_unionBranch (booleanPair : Bool) (b : TypeId) (f : Unit → Logged Outcome) :
    (c.unionBranch booleanPair b f).value = c.branchPart? booleanPair b (f ()).value := by
  unfold unionBranch branchPart?
  dsimp only
  by_cases hp : booleanPair ∧ (c.graph.flags b).contains TypeFlags.booleanLiteral
  · rw [if_pos hp, if_pos hp, Logged.value_pure]
  · rw [if_neg hp, if_neg hp]
    by_cases hl : (c.graph.flags b).isLiteral
    · rw [if_pos hl, if_pos hl, Logged.value_pure]
    · rw [if_neg hl, if_neg hl, Logged.value_bind]
      cases (f ()).value <;> rfl

/-- What does not use that elements are in the list can be collected from the list itself. -/
theorem filterMap_attach {α β : Type} (xs : List α) (f : α → Option β) :
    (xs.attach.filterMap fun x => f x.1) = xs.filterMap f := by
  conv_rhs => rw [← List.attach_map_subtype_val xs, List.filterMap_map]
  rfl

theorem value_applyRule (rule : Rule) (f : TypeId → Logged Outcome) :
    (c.applyRule t rule fun b _ => f b).value = c.outcomeOf t (fun b => (f b).value) rule := by
  match rule with
  | .settled _ => rfl
  | .array [] => rfl
  | .array [_] => rfl
  | .array (_ :: _ :: _) => rfl
  | .intersection branches =>
    simp only [applyRule, outcomeOf, Logged.value_bind, Logged.value_pure, Logged.value_mapM,
      value_intersectionBranch]
    congr 1
    exact List.attach_map_val (f := fun b => c.branchOutcome b (f b).value)
  | .union branches =>
    simp only [applyRule, outcomeOf, Logged.value_bind, Logged.value_mapM, value_unionBranch]
    rw [List.filterMap_map, Function.id_comp, filterMap_attach branches fun b =>
      c.branchPart? (c.hasBooleanPair branches) b (f b).value]
    rfl

/-- A type that is not in progress has the outcome by its rule, where the parts are met with the
type in progress. -/
theorem value_classifyIn {stack : List TypeId} (ht : t ∉ stack) :
    (c.classifyIn stack t).value =
      c.outcomeOf t (fun b => (c.classifyIn (t :: stack) b).value) (c.rule t) := by
  rw [classifyIn_of_not_mem c ht, value_applyRule]

variable {c t} in
/-- A type whose rule is settled is classified so. -/
theorem value_classifyIn_of_settled {stack : List TypeId} {o : Outcome}
    (hrule : c.rule t = .settled o) (ht : t ∉ stack) : (c.classifyIn stack t).value = o := by
  rw [value_classifyIn c t ht, hrule]
  rfl

/-! ## Descriptors without parts -/

/-- The descriptors that are given to a type without looking at parts. -/
inductive Settles : Descriptor → Prop
  | bool : Settles .bool
  | number : Settles .number
  | string : Settles .string
  | any : Settles .any
  | node (h : c.isNode t) : Settles .node
  | object : Settles .object

variable {c t}

/-- By its structure a type without parts can only be found to accept all values. -/
theorem settles_of_structuralRule {d : Descriptor}
    (h : c.structuralRule t = .settled (.ok d)) : c.Settles t d := by
  unfold structuralRule at h
  cases hi : c.graph.intersectionTypes t with
  | some branches =>
    rw [hi] at h
    cases h
  | none =>
    cases hu : c.graph.unionTypes t with
    | some branches =>
      rw [hi, hu] at h
      cases h
    | none =>
      rw [hi, hu] at h
      rcases ite_eq_iff.1 h with ⟨-, h⟩ | ⟨-, h⟩
      · rcases ite_eq_iff.1 h with ⟨-, h⟩ | ⟨-, h⟩ <;> cases h
        exact .any
      · cases h

theorem settles_of_rule {d : Descriptor} (h : c.rule t = .settled (.ok d)) : c.Settles t d := by
  unfold rule at h
  rcases ite_eq_iff.1 h with ⟨-, h⟩ | ⟨-, h⟩
  · cases h
    exact .bool
  rcases ite_eq_iff.1 h with ⟨-, h⟩ | ⟨-, h⟩
  · cases h
    exact .number
  rcases ite_eq_iff.1 h with ⟨-, h⟩ | ⟨-, h⟩
  · cases h
    exact .string
  rcases ite_eq_iff.1 h with ⟨-, h⟩ | ⟨-, h⟩
  · cases h
    exact .any
  rcases ite_eq_iff.1 h with ⟨-, h⟩ | ⟨-, h⟩
  · cases h
  rcases ite_eq_iff.1 h with ⟨hn, h⟩ | ⟨-, h⟩
  · cases h
    exact .node hn
  rcases ite_eq_iff.1 h with ⟨-, h⟩ | ⟨-, h⟩
  · cases h
    exact .object
  · exact settles_of_structuralRule h

/-! ## Intersections -/

/-- The descriptors among some outcomes. -/
def descriptors (outcomes : List Outcome) : List Descriptor := outcomes.filterMap Except.toOption

theorem mem_descriptors {outcomes : List Outcome} {d : Descriptor} :
    d ∈ descriptors outcomes ↔ .ok d ∈ outcomes := by
  unfold descriptors
  rw [List.mem_filterMap]
  constructor
  · rintro ⟨o, ho, hd⟩
    cases o with
    | ok e =>
      obtain rfl : e = d := by simpa [Except.toOption] using hd
      exact ho
    | error e => simp [Except.toOption] at hd
  · intro h
    exact ⟨.ok d, h, rfl⟩

/-- An intersection has the first descriptor that says something, or else the first. -/
theorem intersectionOf_eq (outcomes : List Outcome) :
    c.intersectionOf t outcomes =
      (((descriptors outcomes).find? fun d => !d.isAny).or (descriptors outcomes).head?).elim
        (c.obstructed t .noBranch) .ok := by
  unfold intersectionOf
  extract_lets found
  have hfound : found = descriptors outcomes :=
    List.filterMap_congr fun o _ => by cases o <;> rfl
  rw [hfound]
  generalize descriptors outcomes = found
  cases found.find? fun d => !d.isAny with
  | some d => rfl
  | none => cases found <;> rfl

/-- An intersection has the descriptor of one of its branches. -/
theorem mem_of_intersectionOf {outcomes : List Outcome} {d : Descriptor}
    (h : c.intersectionOf t outcomes = .ok d) : .ok d ∈ outcomes := by
  rw [intersectionOf_eq] at h
  rw [← mem_descriptors]
  cases hf : (descriptors outcomes).find? fun d => !d.isAny with
  | some e =>
    rw [hf] at h
    obtain rfl : e = d := by simpa using h
    exact List.mem_of_find?_eq_some hf
  | none =>
    rw [hf] at h
    cases hh : (descriptors outcomes).head? with
    | some e =>
      rw [hh] at h
      obtain rfl : e = d := by simpa using h
      exact List.mem_of_head? hh
    | none =>
      rw [hh] at h
      cases h

/-- The descriptor of an intersection, if it says something, is the first that does. -/
theorem intersectionOf_eq_ok_iff_find? {outcomes : List Outcome} {d : Descriptor} (hd : d ≠ .any) :
    c.intersectionOf t outcomes = .ok d ↔
      (descriptors outcomes).find? (fun d => !d.isAny) = some d := by
  rw [intersectionOf_eq]
  constructor
  · intro h
    cases hf : (descriptors outcomes).find? fun d => !d.isAny with
    | some e =>
      rw [hf] at h
      simpa using h
    | none =>
      -- What is first among descriptors that say nothing says nothing.
      rw [hf] at h
      cases hh : (descriptors outcomes).head? with
      | none =>
        rw [hh] at h
        cases h
      | some e =>
        rw [hh] at h
        obtain rfl : e = d := by simpa using h
        have he := List.find?_eq_none.1 hf e (List.mem_of_head? hh)
        exact absurd (by simpa using he) hd
  · intro h
    rw [h]
    rfl

/-- A descriptor says something first if those before it say nothing. -/
theorem find?_descriptors_eq_some_iff {outcomes : List Outcome} {d : Descriptor} (hd : d ≠ .any) :
    (descriptors outcomes).find? (fun d => !d.isAny) = some d ↔
      ∃ before after, outcomes = before ++ .ok d :: after ∧ ∀ e, .ok e ∈ before → e = .any := by
  constructor
  · intro hfind
    obtain ⟨-, as, bs, hsplit, has⟩ := List.find?_eq_some_iff_append.1 hfind
    obtain ⟨l₁, l₂, rfl, h₁, h₂⟩ := List.filterMap_eq_append_iff.1 hsplit
    obtain ⟨l₃, o, l₄, rfl, h₃, ho, -⟩ := List.filterMap_eq_cons_iff.1 h₂
    cases o with
    | error e => cases ho
    | ok e =>
      cases ho
      refine ⟨l₁ ++ l₃, l₄, by simp, fun e he => ?_⟩
      rcases List.mem_append.1 he with he | he
      · have hm : e ∈ as := by
          rw [← h₁]
          exact mem_descriptors.2 he
        simpa using has e hm
      · cases h₃ _ he
  · rintro ⟨before, after, rfl, hbefore⟩
    have hnone : (descriptors before).find? (fun d => !d.isAny) = none := by
      rw [List.find?_eq_none]
      intro e he
      simpa using hbefore e (mem_descriptors.1 he)
    have hsplit : descriptors (before ++ .ok d :: after) =
        descriptors before ++ d :: descriptors after := by
      simp [descriptors, Except.toOption]
    have hany : d.isAny = false :=
      Bool.eq_false_iff.2 fun h => hd ((Descriptor.isAny_iff d).1 h)
    rw [hsplit, List.find?_append, hnone]
    simp [hany]

/-- An intersection has a descriptor that says something if no branch before says anything. -/
theorem intersectionOf_eq_ok_iff {outcomes : List Outcome} {d : Descriptor} (hd : d ≠ .any) :
    c.intersectionOf t outcomes = .ok d ↔
      ∃ before after, outcomes = before ++ .ok d :: after ∧ ∀ e, .ok e ∈ before → e = .any :=
  (intersectionOf_eq_ok_iff_find? hd).trans (find?_descriptors_eq_some_iff hd)

/-! ## Unions -/

/-- A union always has the descriptor of its members. -/
theorem value_unionOf (c : Classifier) (t : TypeId) (parts : List UnionPart) :
    (c.unionOf t parts).value = .ok (.ofMembers (unionMembers parts)) := by
  unfold unionOf Descriptor.ofMembers
  split <;> simp_all

end Classifier

/-! ### Members of unions -/

theorem UnionPart.typed?_eq_some_iff {part : UnionPart} {d : Descriptor} :
    part.typed? = some d ↔ part = .typed d := by
  cases part <;> simp [typed?]

/-- What is gathered are the descriptors of the types, and the values if there are any. -/
theorem mem_gatherLiterals {values : List String} {parts : List UnionPart} {d : Descriptor} :
    d ∈ gatherLiterals values parts ↔
      .typed d ∈ parts ∨ d = .oneOf values ∧ ∃ r, .literal r ∈ parts := by
  induction parts with
  | nil => simp [gatherLiterals]
  | cons part parts ih =>
    cases part with
    | typed e => simp [gatherLiterals, ih, or_assoc]
    | literal r =>
      have hmem : d ∈ parts.filterMap UnionPart.typed? ↔ .typed d ∈ parts := by
        simp [UnionPart.typed?_eq_some_iff]
      rw [gatherLiterals, List.mem_cons, hmem, or_comm]
      simp

/-- The members of a union come from its types, but for one of all its values, which are
distinct. -/
theorem mem_unionMembers {parts : List UnionPart} {d : Descriptor} (h : d ∈ unionMembers parts) :
    .typed d ∈ parts ∨ ∃ values, d = .oneOf values ∧ values ≠ [] ∧ values.Nodup := by
  rcases mem_gatherLiterals.1 (mem_of_mem_distinctBy _ _ _ h).1 with ht | ⟨rfl, r, hr⟩
  · exact .inl ht
  · refine .inr ⟨_, rfl, ?_, ?_⟩
    · have hm : r ∈ parts.filterMap UnionPart.literal? :=
        List.mem_filterMap.2 ⟨_, hr, rfl⟩
      obtain ⟨s, hs, -⟩ := exists_mem_distinctBy id hm (List.not_mem_nil)
      exact List.ne_nil_of_mem hs
    · have hnd := nodup_map_distinctBy id [] (parts.filterMap UnionPart.literal?)
      rwa [List.map_id] at hnd

/-- The members of a union have different texts. -/
theorem nodup_unionMembers (parts : List UnionPart) :
    ((unionMembers parts).map Descriptor.text).Nodup :=
  nodup_map_distinctBy Descriptor.text [] _

/-- A union has nothing but one type, which its text shows, if all its parts are this type. -/
theorem unionMembers_eq_singleton_iff {parts : List UnionPart} {d : Descriptor}
    (htext : ∀ e : Descriptor, e.text = d.text → e = d) (hvalues : ∀ values, d ≠ .oneOf values) :
    unionMembers parts = [d] ↔ parts ≠ [] ∧ ∀ part ∈ parts, part = .typed d := by
  constructor
  · intro h
    -- What is gathered has the text of a member, so it is the only one.
    have hgathered : ∀ e ∈ gatherLiterals
        (distinctBy id [] (parts.filterMap UnionPart.literal?)) parts, e = d := by
      intro e he
      obtain ⟨m, hm, hmt⟩ := exists_mem_distinctBy Descriptor.text he List.not_mem_nil
      have hmd : m ∈ unionMembers parts := hm
      rw [h, List.mem_singleton] at hmd
      exact htext e (by rw [← hmt, hmd])
    constructor
    · rintro rfl
      cases h
    · intro part hpart
      cases part with
      | typed e => rw [hgathered e (mem_gatherLiterals.2 (.inl hpart))]
      | literal r =>
        have he := hgathered _ (mem_gatherLiterals.2 (.inr ⟨rfl, r, hpart⟩))
        exact absurd he.symm (hvalues _)
  · rintro ⟨hne, hparts⟩
    have hmembers : ∀ m ∈ unionMembers parts, m = d := by
      intro m hm
      rcases mem_gatherLiterals.1 (mem_of_mem_distinctBy _ _ _ hm).1 with ht | ⟨-, r, hr⟩
      · exact UnionPart.typed.inj (hparts _ ht)
      · cases hparts _ hr
    obtain ⟨part, hpart⟩ := List.exists_mem_of_ne_nil parts hne
    have hd : .typed d ∈ parts := hparts part hpart ▸ hpart
    obtain ⟨m, hm⟩ : ∃ m, m ∈ unionMembers parts := by
      obtain ⟨m, hm, -⟩ := exists_mem_distinctBy Descriptor.text
        (mem_gatherLiterals.2 (.inl hd)) List.not_mem_nil
      exact ⟨m, hm⟩
    have hcopies := List.eq_replicate_of_mem hmembers
    have hle : (unionMembers parts).length ≤ 1 := by
      rw [← List.nodup_replicate (a := d), ← hcopies]
      exact (nodup_unionMembers parts).of_map _
    rw [hcopies, Nat.le_antisymm hle (List.length_pos_of_mem hm)]
    rfl

end ComponentViews
