import ComponentViews.Proofs.Classification.Nesting
import ComponentViews.Proofs.Classification.Outcome

/-!
# Unions

A union never stays without a descriptor. Its branches are taken in their order, each in view of
those before it: both truth values give their type, all other values together give one descriptor at
the place of the first of them, and any other type gives its own descriptor if it has one. Of what is
found the first with each text is kept.

## Main definitions

* `walkList`, `firstsBy`: elements in view of those before them, and those that are the first with
  their key.
* `Classifier.HasTruthValues`, `Classifier.IsTruthValue`, `Classifier.IsGathered`: the kinds of
  values among the branches.
* `Classifier.contribution?`, `Classifier.contributions`: what a branch gives in view of those before
  it, and what all branches give.
* `Descriptor.ofContributions`: the descriptor of a union from what its branches give.

## Main results

* `distinctBy_eq_firstsBy`: to remember the keys met so far is to keep the first elements.
* `Classifier.gatherLiterals_eq_contributions`: the parts of a union, with its values gathered, are
  what the branches give.
* `Classifier.mem_contributions_iff`: no branch is lost that has a descriptor or is a value, and
  nothing is added.
* `Classifier.value_classifyIn_of_union`: the descriptor of a union.
-/

namespace ComponentViews

/-! ## First elements -/

section Lists

variable {α β κ : Type}

/-- What becomes of the elements of a list, each in view of those before it. -/
def walkList (f : List α → α → Option β) (before : List α) : List α → List β
  | [] => []
  | x :: xs => (f before x).toList ++ walkList f (before ++ [x]) xs

variable [DecidableEq κ] (key : α → κ)

/-- The elements whose key no element before has. -/
def firstsBy (xs : List α) : List α :=
  walkList (fun before x => if key x ∈ before.map key then none else some x) [] xs

/-- To leave out elements whose key has been seen is to keep those that are the first with their
key. -/
theorem distinctBy_eq_firstsBy (xs : List α) : distinctBy key [] xs = firstsBy key xs := by
  -- What has been seen are the keys of the elements before, in any order and number.
  have hwalk : ∀ (xs before : List α) (seen : List κ), (∀ k, k ∈ seen ↔ k ∈ before.map key) →
      distinctBy key seen xs =
        walkList (fun before x => if key x ∈ before.map key then none else some x) before xs := by
    intro xs
    induction xs with
    | nil => intros; rfl
    | cons x xs ih =>
      intro before seen hseen
      rw [distinctBy, walkList]
      by_cases hx : key x ∈ seen
      · rw [if_pos hx, if_pos ((hseen _).1 hx), Option.toList_none, List.nil_append]
        refine ih _ _ fun k => ?_
        rw [hseen, List.map_append, List.mem_append, List.map_singleton, List.mem_singleton]
        constructor
        · exact .inl
        · rintro (hk | rfl)
          · exact hk
          · exact (hseen _).1 hx
      · rw [if_neg hx, if_neg fun h => hx ((hseen _).2 h), Option.toList_some,
          List.singleton_append]
        refine congrArg (x :: ·) (ih _ _ fun k => ?_)
        rw [List.mem_cons, hseen, List.map_append, List.mem_append, List.map_singleton,
          List.mem_singleton, or_comm]
  exact hwalk xs [] [] fun k => by simp

theorem nodup_map_firstsBy (xs : List α) : ((firstsBy key xs).map key).Nodup :=
  distinctBy_eq_firstsBy key xs ▸ nodup_map_distinctBy key [] xs

theorem exists_mem_firstsBy {xs : List α} {x : α} (hx : x ∈ xs) :
    ∃ y ∈ firstsBy key xs, key y = key x :=
  distinctBy_eq_firstsBy key xs ▸ exists_mem_distinctBy key hx List.not_mem_nil

theorem mem_of_mem_firstsBy {xs : List α} {x : α} (hx : x ∈ firstsBy key xs) : x ∈ xs :=
  (mem_of_mem_distinctBy key [] xs (distinctBy_eq_firstsBy key xs ▸ hx)).1

/-- Elements have one key exactly if a single one of them is kept. -/
theorem firstsBy_cons_eq_singleton_iff {x : α} {xs : List α} :
    firstsBy key (x :: xs) = [x] ↔ ∀ y ∈ xs, key y = key x := by
  have hfirst : ∃ ys, firstsBy key (x :: xs) = x :: ys := ⟨_, rfl⟩
  constructor
  · intro h y hy
    obtain ⟨z, hz, hzy⟩ := exists_mem_firstsBy key (List.mem_cons_of_mem x hy)
    rw [h, List.mem_singleton] at hz
    rw [← hzy, hz]
  · intro h
    obtain ⟨ys, hys⟩ := hfirst
    have hnodup := nodup_map_firstsBy key (x :: xs)
    rw [hys, List.map_cons, List.nodup_cons] at hnodup
    cases ys with
    | nil => exact hys
    | cons y ys =>
      -- A second one would have the key of the first.
      have hy : y ∈ x :: xs := mem_of_mem_firstsBy key (hys ▸ by simp)
      have hkey : key y = key x := by
        rcases List.mem_cons.1 hy with rfl | hy
        · rfl
        · exact h y hy
      exact absurd (by simp [hkey]) hnodup.1

end Lists

/-! ## Descriptors of unions -/

/-- The descriptor of a union from what its branches give: any value without branches, the first of
branches that all have one text, and else those that are the first with their text. -/
def Descriptor.ofContributions : List Descriptor → Descriptor
  | [] => .any
  | d :: ds => if ∀ e ∈ ds, e.text = d.text then d else .oneOfType (firstsBy text (d :: ds))

theorem Descriptor.ofMembers_firstsBy (ds : List Descriptor) :
    ofMembers (firstsBy text ds) = ofContributions ds := by
  cases ds with
  | nil => rfl
  | cons d ds =>
    rw [ofContributions]
    split
    · rename_i h
      rw [(firstsBy_cons_eq_singleton_iff text).2 h]
      rfl
    · rename_i h
      obtain ⟨es, hes⟩ : ∃ es, firstsBy text (d :: ds) = d :: es := ⟨_, rfl⟩
      cases es with
      | nil => exact absurd ((firstsBy_cons_eq_singleton_iff text).1 hes) h
      | cons e es => rw [hes]; rfl

namespace Classifier

variable (c : Classifier) (branches : List TypeId)

/-! ## What branches give -/

/-- Both truth values are among the branches. -/
def HasTruthValues : Prop :=
  (∃ b ∈ branches, (c.graph.flags b).contains TypeFlags.booleanLiteral ∧
      c.graph.render b = "true") ∧
    ∃ b ∈ branches, (c.graph.flags b).contains TypeFlags.booleanLiteral ∧
      c.graph.render b = "false"

instance : Decidable (c.HasTruthValues branches) :=
  inferInstanceAs (Decidable (_ ∧ _))

/-- A branch is a truth value where both are among the branches. -/
def IsTruthValue (b : TypeId) : Prop :=
  c.HasTruthValues branches ∧ (c.graph.flags b).contains TypeFlags.booleanLiteral

instance : DecidablePred (c.IsTruthValue branches) :=
  fun _ => inferInstanceAs (Decidable (_ ∧ _))

/-- A branch is a value that is gathered with others. -/
def IsGathered (b : TypeId) : Prop :=
  (c.graph.flags b).isLiteral ∧ ¬ c.IsTruthValue branches b

instance : DecidablePred (c.IsGathered branches) :=
  fun _ => inferInstanceAs (Decidable (_ ∧ _))

/-- The renderings of the values that are gathered, in the order in which they are met first. -/
def gatheredValues : List String :=
  firstsBy id ((branches.filter (c.IsGathered branches)).map c.graph.render)

/-- What a branch gives in view of those before it. -/
def contribution? (outcome : TypeId → Outcome) (before : List TypeId) (b : TypeId) :
    Option Descriptor :=
  if c.IsTruthValue branches b then some .bool
  else if (c.graph.flags b).isLiteral then
    if ∃ a ∈ before, c.IsGathered branches a then none
    else some (.oneOf (c.gatheredValues branches))
  else (outcome b).toOption

/-- What the branches give, in their order. -/
def contributions (outcome : TypeId → Outcome) : List Descriptor :=
  walkList (c.contribution? branches outcome) [] branches

variable {c branches}

theorem hasBooleanPair_iff : c.hasBooleanPair branches ↔ c.HasTruthValues branches := by
  simp [hasBooleanPair, isBooleanLiteral, HasTruthValues]

variable {outcome : TypeId → Outcome}

theorem branchPart?_of_isTruthValue {b : TypeId} (h : c.IsTruthValue branches b) :
    c.branchPart? (c.hasBooleanPair branches) b (outcome b) = some (.typed .bool) := by
  unfold branchPart?
  rw [if_pos ⟨hasBooleanPair_iff.2 h.1, h.2⟩]

theorem branchPart?_of_isGathered {b : TypeId} (h : c.IsGathered branches b) :
    c.branchPart? (c.hasBooleanPair branches) b (outcome b) =
      some (.literal (c.graph.render b)) := by
  unfold branchPart?
  rw [if_neg fun hp => h.2 ⟨hasBooleanPair_iff.1 hp.1, hp.2⟩, if_pos h.1]

/-- A branch is a truth value, a value that is gathered, or no single value. -/
theorem isTruthValue_or_isGathered_or (c : Classifier) (branches : List TypeId) (b : TypeId) :
    c.IsTruthValue branches b ∨ c.IsGathered branches b ∨
      ¬ (c.graph.flags b).isLiteral ∧ ¬ c.IsTruthValue branches b := by
  by_cases ht : c.IsTruthValue branches b
  · exact .inl ht
  · by_cases hl : (c.graph.flags b).isLiteral
    · exact .inr (.inl ⟨hl, ht⟩)
    · exact .inr (.inr ⟨hl, ht⟩)

/-- The values of the parts of a union are those that are gathered. -/
theorem literals_branchParts :
    distinctBy id [] ((branches.filterMap fun b =>
      c.branchPart? (c.hasBooleanPair branches) b (outcome b)).filterMap UnionPart.literal?) =
      c.gatheredValues branches := by
  have hvalues : ∀ bs : List TypeId, (bs.filterMap fun b =>
      c.branchPart? (c.hasBooleanPair branches) b (outcome b)).filterMap UnionPart.literal? =
        (bs.filter (c.IsGathered branches)).map c.graph.render := by
    intro bs
    induction bs with
    | nil => rfl
    | cons b bs ih =>
      rw [List.filterMap_cons, List.filter_cons]
      rcases isTruthValue_or_isGathered_or c branches b with h | h | ⟨hl, -⟩
      · rw [branchPart?_of_isTruthValue h, if_neg (by simp [IsGathered, h])]
        exact ih
      · rw [branchPart?_of_isGathered h, if_pos (by simpa using h), List.map_cons, ← ih]
        rfl
      · rw [branchPart?_of_not_literal c _ (outcome b) hl, if_neg (by simp [IsGathered, hl])]
        cases outcome b <;> exact ih
  rw [distinctBy_eq_firstsBy, hvalues]
  rfl

/-- The parts of a union, with its values gathered, are what the branches give. -/
theorem gatherLiterals_eq_contributions :
    gatherLiterals (c.gatheredValues branches) (branches.filterMap fun b =>
      c.branchPart? (c.hasBooleanPair branches) b (outcome b)) =
        c.contributions branches outcome := by
  -- Once a value has been met, only types are left to be found.
  have hwalk : ∀ bs before : List TypeId,
      (if ∃ a ∈ before, c.IsGathered branches a then
        (bs.filterMap fun b => c.branchPart? (c.hasBooleanPair branches) b (outcome b)).filterMap
          UnionPart.typed?
      else gatherLiterals (c.gatheredValues branches) (bs.filterMap fun b =>
        c.branchPart? (c.hasBooleanPair branches) b (outcome b))) =
          walkList (c.contribution? branches outcome) before bs := by
    intro bs
    induction bs with
    | nil => intro before; split <;> rfl
    | cons b bs ih =>
      intro before
      rw [walkList, ← ih, List.filterMap_cons]
      have hmore : (∃ a ∈ before ++ [b], c.IsGathered branches a) ↔
          (∃ a ∈ before, c.IsGathered branches a) ∨ c.IsGathered branches b := by
        simp [or_and_right, exists_or]
      simp only [hmore]
      rcases isTruthValue_or_isGathered_or c branches b with h | h | ⟨hl, h⟩
      · have hb : ¬ c.IsGathered branches b := fun hg => hg.2 h
        rw [branchPart?_of_isTruthValue h, contribution?, if_pos h]
        simp only [hb, or_false]
        split <;> rfl
      · rw [branchPart?_of_isGathered h, contribution?, if_neg h.2, if_pos h.1,
          if_pos (Or.inr h)]
        split <;> rfl
      · have hb : ¬ c.IsGathered branches b := fun hg => hl hg.1
        rw [branchPart?_of_not_literal c _ (outcome b) hl, contribution?, if_neg h, if_neg hl]
        simp only [hb, or_false]
        cases outcome b <;> split <;> rfl
  have h := hwalk branches []
  rwa [if_neg (by simp)] at h

theorem value_unionOf_branchParts (t : TypeId) :
    (c.unionOf t (branches.filterMap fun b =>
      c.branchPart? (c.hasBooleanPair branches) b (outcome b))).value =
        .ok (.ofContributions (c.contributions branches outcome)) := by
  rw [value_unionOf, unionMembers, literals_branchParts, gatherLiterals_eq_contributions, distinctBy_eq_firstsBy,
    Descriptor.ofMembers_firstsBy]

/-- No branch is lost that is a value or has a descriptor, and nothing is added. -/
theorem mem_contributions_iff {d : Descriptor} :
    d ∈ c.contributions branches outcome ↔
      d = .bool ∧ c.HasTruthValues branches ∨
      (d = .oneOf (c.gatheredValues branches) ∧ ∃ b ∈ branches, c.IsGathered branches b) ∨
      ∃ b ∈ branches, ¬ (c.graph.flags b).isLiteral ∧ outcome b = .ok d := by
  rw [← gatherLiterals_eq_contributions, mem_gatherLiterals]
  simp only [List.mem_filterMap]
  constructor
  · rintro (⟨b, hb, hpart⟩ | ⟨hd, r, b, hb, hpart⟩)
    · rcases isTruthValue_or_isGathered_or c branches b with h | h | ⟨hl, -⟩
      · rw [branchPart?_of_isTruthValue h] at hpart
        cases hpart
        exact .inl ⟨rfl, h.1⟩
      · rw [branchPart?_of_isGathered h] at hpart
        cases hpart
      · rw [branchPart?_of_not_literal c _ (outcome b) hl] at hpart
        cases ho : outcome b with
        | ok e =>
          rw [ho] at hpart
          cases hpart
          exact .inr (.inr ⟨b, hb, hl, ho⟩)
        | error e =>
          rw [ho] at hpart
          cases hpart
    · rcases isTruthValue_or_isGathered_or c branches b with h | h | ⟨hl, -⟩
      · rw [branchPart?_of_isTruthValue h] at hpart
        cases hpart
      · exact .inr (.inl ⟨hd, b, hb, h⟩)
      · rw [branchPart?_of_not_literal c _ (outcome b) hl] at hpart
        cases outcome b <;> simp [Except.toOption] at hpart
  · rintro (⟨rfl, h⟩ | ⟨hd, b, hb, h⟩ | ⟨b, hb, hl, ho⟩)
    · obtain ⟨b, hb, hflag, -⟩ := h.1
      exact .inl ⟨b, hb, branchPart?_of_isTruthValue ⟨h, hflag⟩⟩
    · exact .inr ⟨hd, _, b, hb, branchPart?_of_isGathered h⟩
    · refine .inl ⟨b, hb, ?_⟩
      rw [branchPart?_of_not_literal c _ (outcome b) hl, ho]
      rfl

theorem mem_gatheredValues_iff {r : String} :
    r ∈ c.gatheredValues branches ↔
      ∃ b ∈ branches, c.IsGathered branches b ∧ c.graph.render b = r := by
  have hmem : r ∈ (branches.filter (c.IsGathered branches)).map c.graph.render ↔
      ∃ b ∈ branches, c.IsGathered branches b ∧ c.graph.render b = r := by
    simp [and_assoc]
  rw [← hmem]
  constructor
  · exact mem_of_mem_firstsBy id
  · intro h
    obtain ⟨s, hs, rfl⟩ := exists_mem_firstsBy id h
    exact hs

/-- Where both truth values are among the branches, their type is found once. -/
theorem exists_firstsBy_contributions_of_hasTruthValues (h : c.HasTruthValues branches) :
    ∃ before after, firstsBy Descriptor.text (c.contributions branches outcome) =
      before ++ .bool :: after ∧ .bool ∉ before ∧ .bool ∉ after := by
  have hmem : Descriptor.bool ∈ c.contributions branches outcome :=
    mem_contributions_iff.2 (.inl ⟨rfl, h⟩)
  obtain ⟨d, hd, htext⟩ := exists_mem_firstsBy Descriptor.text hmem
  obtain rfl := Descriptor.eq_of_text_eq .bool htext
  obtain ⟨before, after, hsplit⟩ := List.append_of_mem hd
  have hnodup := nodup_map_firstsBy Descriptor.text (c.contributions branches outcome)
  rw [hsplit] at hnodup
  have hnodup := List.nodup_middle.1 hnodup.of_map
  rw [List.nodup_cons, List.mem_append, not_or] at hnodup
  exact ⟨before, after, hsplit, hnodup.1⟩

/-- **Unions.** A type that is classified as a union has a descriptor, which is that of what its
branches give. Nothing is given but the type of truth values where both of them are branches, one
descriptor of all other values, and the descriptors of the branches that have one; and none of these
is lost. All values that are gathered are those of branches, each once, and without truth values where
both of them are branches; then their type is found once. -/
theorem value_classifyIn_of_union {stack : List TypeId} {t : TypeId}
    (hrule : c.rule t = .union branches) (ht : t ∉ stack) :
    let outcome := fun b => (c.classifyIn (t :: stack) b).value
    let found := c.contributions branches outcome
    let members := firstsBy Descriptor.text found
    (c.classifyIn stack t).value = .ok (.ofContributions found) ∧
      (∀ d, d ∈ found ↔
        d = .bool ∧ c.HasTruthValues branches ∨
        (d = .oneOf (c.gatheredValues branches) ∧ ∃ b ∈ branches, c.IsGathered branches b) ∨
        ∃ b ∈ branches, ¬ (c.graph.flags b).isLiteral ∧ outcome b = .ok d) ∧
      ((∀ d ∈ found, ∃ e ∈ members, e.text = d.text) ∧ (members.map Descriptor.text).Nodup) ∧
      ((∀ r, r ∈ c.gatheredValues branches ↔
        ∃ b ∈ branches, c.IsGathered branches b ∧ c.graph.render b = r) ∧
          (c.gatheredValues branches).Nodup) ∧
      (c.HasTruthValues branches →
        ∃ before after, members = before ++ .bool :: after ∧ .bool ∉ before ∧ .bool ∉ after) := by
  intro outcome found members
  refine ⟨?_, fun d => mem_contributions_iff, ⟨fun d => exists_mem_firstsBy _, ?_⟩,
    ⟨fun r => mem_gatheredValues_iff, ?_⟩, exists_firstsBy_contributions_of_hasTruthValues⟩
  · rw [value_classifyIn c t ht, hrule]
    exact value_unionOf_branchParts t
  · exact nodup_map_firstsBy Descriptor.text found
  · have h := nodup_map_firstsBy id ((branches.filter (c.IsGathered branches)).map c.graph.render)
    rwa [List.map_id] at h

/-- A union of two strings, of which one is there twice, both truth values, the undefined value, a
list of the union itself and a list of strings. -/
def mixedUnion : Graph where
  types := [
    { id := ⟨0⟩, flags := TypeFlags.unionType, display := some "Mixed",
      union := [⟨1⟩, ⟨2⟩, ⟨3⟩, ⟨4⟩, ⟨5⟩, ⟨6⟩, ⟨7⟩, ⟨2⟩] },
    { id := ⟨1⟩, flags := TypeFlags.undefined },
    { id := ⟨2⟩, flags := TypeFlags.stringLiteral, value := some (.string "b") },
    { id := ⟨3⟩, flags := TypeFlags.booleanLiteral, value := some (.bool false) },
    { id := ⟨4⟩, flags := TypeFlags.object, display := some "Mixed[]", symbol := some "Array",
      typeArguments := [⟨0⟩] },
    { id := ⟨5⟩, flags := TypeFlags.stringLiteral, value := some (.string "a") },
    { id := ⟨6⟩, flags := TypeFlags.booleanLiteral, value := some (.bool true) },
    { id := ⟨7⟩, flags := TypeFlags.object, symbol := some "Array", typeArguments := [⟨8⟩] },
    { id := ⟨8⟩, flags := TypeFlags.string }]
  components := []

set_option maxRecDepth 4000 in
theorem rule_mixedUnion :
    (mk mixedUnion {}).rule ⟨0⟩ = .union [⟨1⟩, ⟨2⟩, ⟨3⟩, ⟨4⟩, ⟨5⟩, ⟨6⟩, ⟨7⟩, ⟨2⟩] := by
  rfl

set_option maxRecDepth 4000 in
/-- The values of the union come first, then truth values, and the list that can be described. -/
theorem value_classifyIn_of_union_mixed :
    let c : Classifier := ⟨mixedUnion, {}⟩
    let branches : List TypeId := [⟨1⟩, ⟨2⟩, ⟨3⟩, ⟨4⟩, ⟨5⟩, ⟨6⟩, ⟨7⟩, ⟨2⟩]
    let found := c.contributions branches fun b => (c.classifyIn [⟨0⟩] b).value
    let d : Descriptor := .oneOfType [.oneOf ["\"b\"", "\"a\""], .bool, .arrayOf .string]
    c.rule ⟨0⟩ = .union branches ∧ (⟨0⟩ : TypeId) ∉ ([] : List TypeId) ∧
      (c.classify ⟨0⟩).value = .ok d ∧ Descriptor.ofContributions found = d ∧
      c.HasTruthValues branches ∧ c.gatheredValues branches = ["\"b\"", "\"a\""] ∧
      ∃ before after, firstsBy Descriptor.text found = before ++ .bool :: after ∧
        .bool ∉ before ∧ .bool ∉ after := by
  intro c branches found d
  have hrule : c.rule ⟨0⟩ = .union branches := rule_mixedUnion
  have hpair : c.HasTruthValues branches := by decide +kernel
  have hd : (c.classify ⟨0⟩).value = .ok d := value_classify_of_walk rfl
  obtain ⟨hvalue, -, -, -, honce⟩ := value_classifyIn_of_union hrule (List.not_mem_nil)
  exact ⟨hrule, List.not_mem_nil, hd, Except.ok.inj (hvalue.symm.trans hd), hpair,
    by decide +kernel, honce hpair⟩

end Classifier

end ComponentViews
