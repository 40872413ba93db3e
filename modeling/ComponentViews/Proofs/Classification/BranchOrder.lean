import ComponentViews.Proofs.Classification.Unions

/-!
# The order of branches

Two unions of the same branches have the same descriptor, up to the order of what it says. Which
values are gathered, and whether both truth values are among them, depends on the branches alone, and
so does what they are described by, as long as no branch leads back to one of the unions. So the
members of the descriptors have the same texts. Only the text of values that are gathered shows in
which order these were met.

## Main definitions

* `Descriptor.IsOneOf`: descriptors of certain values.
* `Descriptor.SameMembers`: lists of descriptors that have the same members up to the order of values.
* `Descriptor.SameUpToOrder`: descriptors that are the same up to the order of what they say.

## Main results

* `Descriptor.isOneOf_of_text_eq`: a text shows whether a descriptor is one of values.
* `Descriptor.SameMembers.sameUpToOrder`: what the branches of unions give decides up to order.
* `Classifier.sameMembers_contributions`: what branches give does not depend on their order.
* `Classifier.sameUpToOrder_of_perm`: neither does the descriptor of their union.
-/

namespace ComponentViews

namespace Descriptor

/-! ## Texts of values -/

/-- The descriptor is one of certain values. -/
def IsOneOf (d : Descriptor) : Prop := ∃ values, d = .oneOf values

/-- Texts that begin differently are different. -/
theorem append_ne_append_of_take_ne {a a' : String} (n : Nat) (ha : n ≤ a.toList.length)
    (ha' : n ≤ a'.toList.length) (h : a.toList.take n ≠ a'.toList.take n) (b c b' c' : String) :
    a ++ b ++ c ≠ a' ++ b' ++ c' := by
  have htake : ∀ {a b c : String}, n ≤ a.toList.length →
      (a ++ b ++ c).toList.take n = a.toList.take n := by
    intro a b c ha
    rw [String.toList_append, String.toList_append, List.append_assoc,
      List.take_append_of_le_length ha]
  intro he
  have hbegin := congrArg (fun s => s.toList.take n) he
  exact h ((htake ha).symm.trans (hbegin.trans (htake ha')))

/-- A text shows whether a descriptor is one of values: no other begins as such a text does. -/
theorem isOneOf_of_text_eq {d e : Descriptor} (h : d.text = e.text) (hd : d.IsOneOf) :
    e.IsOneOf := by
  obtain ⟨values, rfl⟩ := hd
  -- Texts of the other kinds with parts differ within the first sixteen characters.
  have hbegin : ∀ a : String, 16 ≤ a.toList.length →
      "PropTypes.oneOf([".toList.take 16 ≠ a.toList.take 16 →
        ∀ b c b' c' : String, "PropTypes.oneOf([" ++ b ++ c ≠ a ++ b' ++ c' := fun a ha h =>
    append_ne_append_of_take_ne 16 (by decide +kernel) ha h
  cases e with
  | oneOf values => exact ⟨values, rfl⟩
  | arrayOf element =>
    exact absurd h (hbegin "PropTypes.arrayOf(" (by decide +kernel) (by decide +kernel)
      _ "])" _ ")")
  | oneOfType members =>
    exact absurd h (hbegin "PropTypes.oneOfType([" (by decide +kernel) (by decide +kernel)
      _ "])" _ "])")
  | bool => cases eq_of_text_eq .bool h
  | number => cases eq_of_text_eq .number h
  | string => cases eq_of_text_eq .string h
  | any => cases eq_of_text_eq .any h
  | node => cases eq_of_text_eq .node h
  | object => cases eq_of_text_eq .object h

/-! ## Members up to order -/

/-- Either neither of two lists has a descriptor of values, or each has one, with the same values. -/
def SameValues (ds es : List Descriptor) : Prop :=
  (∀ vs, .oneOf vs ∉ ds) ∧ (∀ ws, .oneOf ws ∉ es) ∨
    ∃ vs ws, (∀ us, .oneOf us ∈ ds ↔ us = vs) ∧ (∀ us, .oneOf us ∈ es ↔ us = ws) ∧
      ∀ v, v ∈ vs ↔ v ∈ ws

/-- The descriptors of two lists are the same but for the order of values. -/
structure SameMembers (ds es : List Descriptor) : Prop where
  types : ∀ d : Descriptor, ¬ d.IsOneOf → (d ∈ ds ↔ d ∈ es)
  values : SameValues ds es

/-- Two descriptors are the same up to the order of what they say: both accept all values, both have
one and the same text, which is not that of certain values, both accept the same certain values, or
both have alternatives with the same texts, but for one alternative of certain values, which both have
with the same values or neither has. -/
inductive SameUpToOrder : Descriptor → Descriptor → Prop
  | any : SameUpToOrder .any .any
  | single {d e : Descriptor} (hd : ¬ d.IsOneOf) (h : d.text = e.text) : SameUpToOrder d e
  | oneOf {vs ws : List String} (h : ∀ v, v ∈ vs ↔ v ∈ ws) : SameUpToOrder (.oneOf vs) (.oneOf ws)
  | oneOfType {ds es : List Descriptor}
      (htexts : ∀ s, (∃ d ∈ ds, ¬ d.IsOneOf ∧ d.text = s) ↔ ∃ e ∈ es, ¬ e.IsOneOf ∧ e.text = s)
      (hvalues : SameValues ds es) : SameUpToOrder (.oneOfType ds) (.oneOfType es)

variable {ds es : List Descriptor}

theorem ofContributions_of_text_eq {d : Descriptor}
    (h : ∀ x ∈ d :: ds, ∀ y ∈ d :: ds, x.text = y.text) : ofContributions (d :: ds) = d :=
  if_pos fun e he => h e (List.mem_cons_of_mem d he) d List.mem_cons_self

theorem ofContributions_of_text_ne {d : Descriptor}
    (h : ¬ ∀ x ∈ d :: ds, ∀ y ∈ d :: ds, x.text = y.text) :
    ofContributions (d :: ds) = .oneOfType (firstsBy text (d :: ds)) := by
  refine if_neg fun hfirst => h fun x hx y hy => ?_
  have htext : ∀ x ∈ d :: ds, x.text = d.text := List.forall_mem_cons.2 ⟨rfl, hfirst⟩
  rw [htext x hx, htext y hy]

theorem SameValues.symm (h : SameValues ds es) : SameValues es ds := by
  rcases h with ⟨hds, hes⟩ | ⟨vs, ws, hds, hes, hvalues⟩
  · exact .inl ⟨hes, hds⟩
  · exact .inr ⟨ws, vs, hes, hds, fun v => (hvalues v).symm⟩

/-- There is at most one descriptor of values. -/
theorem SameValues.eq_of_isOneOf (h : SameValues ds es) {d e : Descriptor} (hd : d ∈ ds)
    (he : e ∈ ds) (hdv : d.IsOneOf) (hev : e.IsOneOf) : d = e := by
  obtain ⟨us, rfl⟩ := hdv
  obtain ⟨us', rfl⟩ := hev
  rcases h with ⟨hds, -⟩ | ⟨vs, ws, hds, -, -⟩
  · exact absurd hd (hds us)
  · rw [(hds us).1 hd, (hds us').1 he]

/-- Where one list has a descriptor of values, so does the other. -/
theorem SameValues.exists_of_mem (h : SameValues ds es) {vs : List String} (hvs : .oneOf vs ∈ ds) :
    ∃ ws, .oneOf ws ∈ es ∧ ∀ v, v ∈ vs ↔ v ∈ ws := by
  rcases h with ⟨hds, -⟩ | ⟨us, ws, hds, hes, hvalues⟩
  · exact absurd hvs (hds vs)
  · obtain rfl := (hds vs).1 hvs
    exact ⟨ws, (hes ws).2 rfl, hvalues⟩

namespace SameMembers

theorem symm (h : SameMembers ds es) : SameMembers es ds :=
  ⟨fun d hd => (h.types d hd).symm, h.values.symm⟩

theorem eq_nil_iff (h : SameMembers ds es) : ds = [] ↔ es = [] := by
  have hnil : ∀ {ds es : List Descriptor}, SameMembers ds es → ds = [] → es = [] := by
    rintro ds es h rfl
    refine List.eq_nil_iff_forall_not_mem.2 fun e he => ?_
    by_cases hv : e.IsOneOf
    · obtain ⟨ws, rfl⟩ := hv
      obtain ⟨vs, hvs, -⟩ := h.values.symm.exists_of_mem he
      exact List.not_mem_nil hvs
    · exact List.not_mem_nil ((h.types e hv).2 he)
  exact ⟨hnil h, hnil h.symm⟩

/-- If all descriptors of one list have one text, so have those of the other. -/
theorem text_eq (h : SameMembers ds es) (hds : ∀ x ∈ ds, ∀ y ∈ ds, x.text = y.text) :
    ∀ x ∈ es, ∀ y ∈ es, x.text = y.text := by
  -- A descriptor of values and another one have no counterparts with one text.
  have hmixed : ∀ x ∈ es, ∀ y ∈ es, x.IsOneOf → ¬ y.IsOneOf → False := by
    rintro _ hx y hy ⟨ws, rfl⟩ hyv
    obtain ⟨vs, hvs, -⟩ := h.values.symm.exists_of_mem hx
    exact hyv (isOneOf_of_text_eq (hds _ hvs y ((h.types y hyv).2 hy)) ⟨vs, rfl⟩)
  intro x hx y hy
  by_cases hxv : x.IsOneOf
  · by_cases hyv : y.IsOneOf
    · rw [h.values.symm.eq_of_isOneOf hx hy hxv hyv]
    · exact (hmixed x hx y hy hxv hyv).elim
  · by_cases hyv : y.IsOneOf
    · exact (hmixed y hy x hx hyv hxv).elim
    · exact hds x ((h.types x hxv).2 hx) y ((h.types y hyv).2 hy)

/-- To keep the first with each text leaves types with the same texts. -/
theorem exists_mem_firstsBy_iff {s : String} :
    (∃ d ∈ firstsBy text ds, ¬ d.IsOneOf ∧ d.text = s) ↔ ∃ d ∈ ds, ¬ d.IsOneOf ∧ d.text = s := by
  constructor
  · rintro ⟨d, hd, hv, hs⟩
    exact ⟨d, mem_of_mem_firstsBy text hd, hv, hs⟩
  · rintro ⟨d, hd, hv, rfl⟩
    obtain ⟨e, he, htext⟩ := exists_mem_firstsBy text hd
    exact ⟨e, he, fun hev => hv (isOneOf_of_text_eq htext hev), htext⟩

/-- A descriptor of values that is the only one is kept. -/
theorem oneOf_mem_firstsBy_iff (h : SameMembers ds es) {vs : List String} :
    .oneOf vs ∈ firstsBy text ds ↔ .oneOf vs ∈ ds := by
  constructor
  · exact mem_of_mem_firstsBy text
  · intro hvs
    obtain ⟨e, he, htext⟩ := exists_mem_firstsBy text hvs
    have hev : e.IsOneOf := isOneOf_of_text_eq htext.symm ⟨vs, rfl⟩
    rwa [← h.values.eq_of_isOneOf (mem_of_mem_firstsBy text he) hvs hev ⟨vs, rfl⟩]

theorem values_firstsBy (h : SameMembers ds es) :
    SameValues (firstsBy text ds) (firstsBy text es) := by
  unfold SameValues
  simp only [h.oneOf_mem_firstsBy_iff, h.symm.oneOf_mem_firstsBy_iff]
  exact h.values

/-- What the branches of two unions give decides on their descriptors up to order. -/
theorem sameUpToOrder (h : SameMembers ds es) :
    SameUpToOrder (ofContributions ds) (ofContributions es) := by
  cases ds with
  | nil =>
    obtain rfl := h.eq_nil_iff.1 rfl
    exact .any
  | cons d ds =>
    cases es with
    | nil => cases h.eq_nil_iff.2 rfl
    | cons e es =>
      have hd : d ∈ d :: ds := List.mem_cons_self
      have he : e ∈ e :: es := List.mem_cons_self
      -- What is made of the members depends on whether their texts are all the same.
      by_cases hall : ∀ x ∈ d :: ds, ∀ y ∈ d :: ds, x.text = y.text
      · have hall' := h.text_eq hall
        rw [ofContributions_of_text_eq hall, ofContributions_of_text_eq hall']
        by_cases hv : d.IsOneOf
        · -- There are values only, in both lists.
          obtain ⟨vs, rfl⟩ := hv
          obtain ⟨ws, hws, hvalues⟩ := h.values.exists_of_mem hd
          obtain ⟨us, rfl⟩ := isOneOf_of_text_eq (hall' _ hws e he) ⟨ws, rfl⟩
          rw [h.symm.values.eq_of_isOneOf he hws ⟨us, rfl⟩ ⟨ws, rfl⟩]
          exact .oneOf hvalues
        · exact .single hv (hall' d ((h.types d hv).1 hd) e he)
      · have hall' : ¬ ∀ x ∈ e :: es, ∀ y ∈ e :: es, x.text = y.text := fun he =>
          hall (h.symm.text_eq he)
        rw [ofContributions_of_text_ne hall, ofContributions_of_text_ne hall']
        refine .oneOfType (fun s => ?_) h.values_firstsBy
        rw [exists_mem_firstsBy_iff, exists_mem_firstsBy_iff]
        constructor
        · rintro ⟨x, hx, hv, hs⟩
          exact ⟨x, (h.types x hv).1 hx, hv, hs⟩
        · rintro ⟨x, hx, hv, hs⟩
          exact ⟨x, (h.types x hv).2 hx, hv, hs⟩

end SameMembers

end Descriptor

namespace Classifier

variable {c : Classifier}

/-! ## Branches in another order -/

/-- If no branch that is a type is described by values, only values that are gathered are. -/
theorem oneOf_mem_contributions_iff {branches : List TypeId} {outcome : TypeId → Outcome}
    (htyped : ∀ b ∈ branches, ¬ (c.graph.flags b).isLiteral → ∀ vs, outcome b ≠ .ok (.oneOf vs))
    {us : List String} :
    .oneOf us ∈ c.contributions branches outcome ↔
      us = c.gatheredValues branches ∧ ∃ b ∈ branches, c.IsGathered branches b := by
  rw [mem_contributions_iff]
  constructor
  · rintro (⟨h, -⟩ | ⟨h, hgathered⟩ | ⟨b, hb, hl, ho⟩)
    · cases h
    · exact ⟨Descriptor.oneOf.inj h, hgathered⟩
    · exact absurd ho (htyped b hb hl us)
  · rintro ⟨rfl, hgathered⟩
    exact .inr (.inl ⟨rfl, hgathered⟩)

section Branches

variable {branches branches' : List TypeId} (hmem : ∀ b, b ∈ branches ↔ b ∈ branches')
include hmem

theorem hasTruthValues_congr : c.HasTruthValues branches ↔ c.HasTruthValues branches' := by
  simp only [HasTruthValues, hmem]

theorem isGathered_congr (b : TypeId) : c.IsGathered branches b ↔ c.IsGathered branches' b := by
  simp only [IsGathered, IsTruthValue, hasTruthValues_congr hmem]

theorem mem_gatheredValues_congr (r : String) :
    r ∈ c.gatheredValues branches ↔ r ∈ c.gatheredValues branches' := by
  simp only [mem_gatheredValues_iff, hmem, isGathered_congr hmem]

/-- What branches give depends, but for the order of values, on which branches there are, and not on
their order. -/
theorem sameMembers_contributions {outcome outcome' : TypeId → Outcome}
    (houtcome : ∀ b ∈ branches, outcome b = outcome' b)
    (htyped : ∀ b ∈ branches, ¬ (c.graph.flags b).isLiteral →
      ∀ vs, outcome b ≠ .ok (.oneOf vs)) :
    Descriptor.SameMembers (c.contributions branches outcome)
      (c.contributions branches' outcome') := by
  have htyped' : ∀ b ∈ branches', ¬ (c.graph.flags b).isLiteral →
      ∀ vs, outcome' b ≠ .ok (.oneOf vs) := fun b hb =>
    houtcome b ((hmem b).2 hb) ▸ htyped b ((hmem b).2 hb)
  constructor
  · intro d hd
    have hvalues : ∀ vs, d ≠ .oneOf vs := fun vs he => hd ⟨vs, he⟩
    simp only [mem_contributions_iff, hvalues, false_and, false_or, hasTruthValues_congr hmem]
    refine or_congr_right ⟨?_, ?_⟩
    · rintro ⟨b, hb, hl, ho⟩
      exact ⟨b, (hmem b).1 hb, hl, houtcome b hb ▸ ho⟩
    · rintro ⟨b, hb, hl, ho⟩
      exact ⟨b, (hmem b).2 hb, hl, (houtcome b ((hmem b).2 hb)).trans ho⟩
  · -- Values that are gathered make up one descriptor in both orders, or in neither.
    have hgathered : (∃ b ∈ branches, c.IsGathered branches b) ↔
        ∃ b ∈ branches', c.IsGathered branches' b := by
      simp only [hmem, isGathered_congr hmem]
    unfold Descriptor.SameValues
    simp only [oneOf_mem_contributions_iff htyped, oneOf_mem_contributions_iff htyped', ← hgathered]
    by_cases h : ∃ b ∈ branches, c.IsGathered branches b
    · simp only [h, and_true]
      exact .inr ⟨_, _, fun _ => Iff.rfl, fun _ => Iff.rfl, mem_gatheredValues_congr hmem⟩
    · exact .inl ⟨fun _ hm => h hm.2, fun _ hm => h hm.2⟩

end Branches

/-- Types that do not lead back to a union are classified within it as by themselves. -/
theorem classifyIn_singleton {b u : TypeId} (h : ¬ c.graph.Reaches b u) :
    c.classifyIn [u] b = c.classify b := by
  refine classifyIn_eq_of_reaches fun v hv => ?_
  rw [List.mem_singleton]
  refine ⟨?_, fun hm => absurd hm List.not_mem_nil⟩
  rintro rfl
  exact absurd hv h

/-- **The order of branches only shows in the order of what is said.** If two types are classified as
unions whose branches are the same but for their order, if no branch leads back to one of them, and if
no branch that is a type is described by values, then both have descriptors, and these are the same up
to the order of values and of alternatives. -/
theorem sameUpToOrder_of_perm {u u' : TypeId} {branches branches' : List TypeId}
    (hrule : c.rule u = .union branches) (hrule' : c.rule u' = .union branches')
    (hperm : branches.Perm branches')
    (hreach : ∀ b ∈ branches, ¬ c.graph.Reaches b u ∧ ¬ c.graph.Reaches b u')
    (htyped : ∀ b ∈ branches, ¬ (c.graph.flags b).isLiteral →
      ∀ vs, (c.classify b).value ≠ .ok (.oneOf vs)) :
    ∃ d d', (c.classify u).value = .ok d ∧ (c.classify u').value = .ok d' ∧ d.SameUpToOrder d' := by
  have hvalue : ∀ {u branches}, c.rule u = .union branches → (c.classify u).value =
      .ok (.ofContributions (c.contributions branches fun b => (c.classifyIn [u] b).value)) := by
    intro u branches hrule
    rw [classify, value_classifyIn c u List.not_mem_nil, hrule]
    exact value_unionOf_branchParts u
  refine ⟨_, _, hvalue hrule, hvalue hrule', Descriptor.SameMembers.sameUpToOrder ?_⟩
  -- No branch leads to either union, so its outcome is the same below both.
  refine sameMembers_contributions (fun b => hperm.mem_iff) (fun b hb => ?_) fun b hb => ?_
  · rw [classifyIn_singleton (hreach b hb).1, classifyIn_singleton (hreach b hb).2]
  · rw [classifyIn_singleton (hreach b hb).1]
    exact htyped b hb

/-- Two unions of two texts, numbers and a type that has no descriptor, in opposite orders. -/
def reversedUnions : Graph where
  types := [
    { id := ⟨0⟩, flags := TypeFlags.stringLiteral, value := some (.string "a") },
    { id := ⟨1⟩, flags := TypeFlags.number },
    { id := ⟨2⟩, flags := TypeFlags.stringLiteral, value := some (.string "b") },
    { id := ⟨3⟩, flags := TypeFlags.never },
    { id := ⟨4⟩, flags := TypeFlags.unionType, union := [⟨0⟩, ⟨1⟩, ⟨2⟩, ⟨3⟩] },
    { id := ⟨5⟩, flags := TypeFlags.unionType, union := [⟨3⟩, ⟨2⟩, ⟨1⟩, ⟨0⟩] }]
  components := []

set_option maxRecDepth 4000 in
theorem rule_reversedUnions :
    (mk reversedUnions {}).rule ⟨1⟩ = .settled (.ok .number) ∧
      (mk reversedUnions {}).rule ⟨3⟩ =
        .settled ((mk reversedUnions {}).obstructed ⟨3⟩ .noRule) ∧
      (mk reversedUnions {}).rule ⟨4⟩ = .union [⟨0⟩, ⟨1⟩, ⟨2⟩, ⟨3⟩] ∧
      (mk reversedUnions {}).rule ⟨5⟩ = .union [⟨3⟩, ⟨2⟩, ⟨1⟩, ⟨0⟩] := by
  refine ⟨?_, ?_, ?_, ?_⟩ <;> rfl

/-- Neither union is reached from the other types. -/
theorem not_reaches_reversedUnions {b : TypeId} (hb : b.value.toNat < 4) :
    ¬ reversedUnions.queries.Reaches b ⟨4⟩ ∧ ¬ reversedUnions.queries.Reaches b ⟨5⟩ := by
  have hrank : ∀ u, reversedUnions.queries.Reaches b u → u.value.toNat < 4 := fun u hu =>
    (TypeGraph.rank_le_of_reaches (Graph.lt_of_edge (by decide)) hu).trans_lt hb
  exact ⟨fun h => absurd (hrank _ h) (by decide), fun h => absurd (hrank _ h) (by decide)⟩

set_option maxRecDepth 4000 in
/-- The values of the two unions are in opposite orders. -/
theorem sameUpToOrder_of_perm_reversed :
    let c : Classifier := ⟨reversedUnions, {}⟩
    let branches : List TypeId := [⟨0⟩, ⟨1⟩, ⟨2⟩, ⟨3⟩]
    let d : Descriptor := .oneOfType [.oneOf ["\"a\"", "\"b\""], .number]
    let d' : Descriptor := .oneOfType [.oneOf ["\"b\"", "\"a\""], .number]
    (∀ b ∈ branches, ¬ c.graph.Reaches b ⟨4⟩ ∧ ¬ c.graph.Reaches b ⟨5⟩) ∧
      (∀ b ∈ branches, ¬ (c.graph.flags b).isLiteral →
        ∀ vs, (c.classify b).value ≠ .ok (.oneOf vs)) ∧
      (c.classify ⟨4⟩).value = .ok d ∧ (c.classify ⟨5⟩).value = .ok d' ∧ d.SameUpToOrder d' := by
  intro c branches d d'
  obtain ⟨hnumber, hnever, hunion, hreversed⟩ := rule_reversedUnions
  have hreach : ∀ b ∈ branches, ¬ c.graph.Reaches b ⟨4⟩ ∧ ¬ c.graph.Reaches b ⟨5⟩ := by
    intro b hb
    have hsmall : ∀ b ∈ branches, b.value.toNat < 4 := by decide
    exact not_reaches_reversedUnions (hsmall b hb)
  have htyped : ∀ b ∈ branches, ¬ (c.graph.flags b).isLiteral →
      ∀ vs, (c.classify b).value ≠ .ok (.oneOf vs) := by
    -- Two of the branches are literals; a number and what cannot occur are left.
    have hliteral : (c.graph.flags ⟨0⟩).isLiteral ∧ (c.graph.flags ⟨2⟩).isLiteral := by decide
    simp only [branches, List.forall_mem_cons, hliteral, not_true, false_implies, true_and]
    refine ⟨fun _ vs => ?_, fun _ vs => ?_, by simp⟩
    · rw [classify, value_classifyIn_of_settled hnumber List.not_mem_nil]
      simp
    · rw [classify, value_classifyIn_of_settled hnever List.not_mem_nil]
      simp [obstructed]
  have hd : (c.classify ⟨4⟩).value = .ok d := value_classify_of_walk rfl
  have hd' : (c.classify ⟨5⟩).value = .ok d' := value_classify_of_walk rfl
  obtain ⟨e, e', he, he', hsame⟩ :=
    sameUpToOrder_of_perm hunion hreversed (List.reverse_perm branches).symm hreach htyped
  obtain rfl := Except.ok.inj (hd.symm.trans he)
  obtain rfl := Except.ok.inj (hd'.symm.trans he')
  exact ⟨hreach, htyped, hd, hd', hsame⟩

end Classifier

end ComponentViews
