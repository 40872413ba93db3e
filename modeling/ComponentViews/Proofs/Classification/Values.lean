import ComponentViews.Proofs.Classification.Unions
import ComponentViews.Proofs.Descriptor.UniqueReading

/-!
# Where the values of a descriptor come from

The values in a descriptor, at whatever depth, are the renderings of single values that the type is
made of: branches of a union or an intersection that are one, or those of a branch that is none or of
the elements of a list. So if these are spelled as scalars are, the text of the descriptor shows the
descriptor. Members of a union are told apart by their texts; with such values a union leaves out no
member but those that are there already.

## Main definitions

* `Classifier.ShowsValue`: a single value is in the descriptor of a type.

## Main results

* `allValues_of_classifyIn`: the values of a descriptor are renderings of such single values.
* `Graph.isScalarText_render`: a single value with a scalar is rendered as that scalar.
* `texts_tell_members_apart`: a union leaves out only what it has.
-/

namespace ComponentViews

namespace Descriptor

variable {P : String → Prop}

/-- What holds of the values of all members holds of those of their union. -/
theorem allValues_ofMembers {members : List Descriptor} (h : ∀ m ∈ members, AllValues P m) :
    (ofMembers members).AllValues P := by
  match members with
  | [] => exact .basic .any
  | [d] => exact h d List.mem_cons_self
  | _ :: _ :: _ => exact .oneOfType h

theorem AllValues.mono {Q : String → Prop} (hPQ : ∀ r, P r → Q r) {d : Descriptor}
    (h : d.AllValues P) : d.AllValues Q := by
  induction h with
  | basic h => exact .basic h
  | arrayOf _ ih => exact .arrayOf ih
  | oneOf h => exact .oneOf fun v hv => hPQ v (h v hv)
  | oneOfType _ ih => exact .oneOfType ih

end Descriptor

namespace Classifier

variable {c : Classifier} {t : TypeId}

/-- A single value is in the descriptor of a type: it is a branch, or it is in the descriptor of a
branch that is no single value or of the elements of a list. -/
inductive ShowsValue (c : Classifier) : TypeId → TypeId → Prop
  | branch {t b : TypeId} {branches : List TypeId}
      (hrule : c.rule t = .union branches ∨ c.rule t = .intersection branches)
      (hb : b ∈ branches) (hl : (c.graph.flags b).isLiteral) : ShowsValue c t b
  | part {t b s : TypeId} {branches : List TypeId}
      (hrule : c.rule t = .union branches ∨ c.rule t = .intersection branches)
      (hb : b ∈ branches) (hl : ¬ (c.graph.flags b).isLiteral) (hs : ShowsValue c b s) :
      ShowsValue c t s
  | element {t e s : TypeId} (hrule : c.rule t = .array [e]) (hs : ShowsValue c e s) :
      ShowsValue c t s

theorem ShowsValue.isLiteral {s : TypeId} (h : c.ShowsValue t s) : (c.graph.flags s).isLiteral := by
  induction h with
  | branch _ _ hl => exact hl
  | part _ _ _ _ ih => exact ih
  | element _ _ ih => exact ih

theorem Settles.isBasic {d : Descriptor} (h : c.Settles t d) : d.IsBasic := by
  cases h <;> constructor

/-! ## Branches -/

section Branches

variable {P : String → Prop} {branches : List TypeId} {outcome : TypeId → Outcome}
  (hvalue : ∀ b ∈ branches, (c.graph.flags b).isLiteral → P (c.graph.render b))
  (htype : ∀ b ∈ branches, ¬ (c.graph.flags b).isLiteral →
    ∀ d, outcome b = .ok d → d.AllValues P)
include hvalue htype

theorem allValues_contributions {d : Descriptor} (hd : d ∈ c.contributions branches outcome) :
    d.AllValues P := by
  rcases mem_contributions_iff.1 hd with ⟨rfl, -⟩ | ⟨rfl, -⟩ | ⟨b, hb, hl, ho⟩
  · exact .basic .bool
  · refine .oneOf fun v hv => ?_
    obtain ⟨b, hb, hgathered, rfl⟩ := mem_gatheredValues_iff.1 hv
    exact hvalue b hb hgathered.1
  · exact htype b hb hl d ho

theorem allValues_intersectionOf {d : Descriptor}
    (hd : c.intersectionOf t (branches.map fun b => c.branchOutcome b (outcome b)) = .ok d) :
    d.AllValues P := by
  obtain ⟨b, hb, ho⟩ := List.mem_map.1 (mem_of_intersectionOf hd)
  unfold branchOutcome at ho
  split at ho
  · rename_i hl
    cases ho
    exact .oneOf (List.forall_mem_singleton.2 (hvalue b hb hl))
  · rename_i hl
    exact htype b hb hl d ho

end Branches

/-- The values of a descriptor are the renderings of single values that the type is made of. -/
theorem allValues_of_classifyIn {stack : List TypeId} {d : Descriptor}
    (h : (c.classifyIn stack t).value = .ok d) :
    d.AllValues fun r => ∃ s, c.ShowsValue t s ∧ c.graph.render s = r := by
  induction stack, t using classifyIn.induct generalizing d with
  | case1 stack t ht =>
    rw [classifyIn_of_mem c ht] at h
    cases h
  | case2 stack t ht ih =>
    rw [value_classifyIn c t ht] at h
    -- What the branches show the type shows.
    have hbranches : ∀ branches,
        (c.rule t = .union branches ∨ c.rule t = .intersection branches) →
        (∀ b ∈ branches, (c.graph.flags b).isLiteral →
          ∃ s, c.ShowsValue t s ∧ c.graph.render s = c.graph.render b) ∧
        ∀ b ∈ branches, ¬ (c.graph.flags b).isLiteral →
          ∀ d, (c.classifyIn (t :: stack) b).value = .ok d →
            d.AllValues fun r => ∃ s, c.ShowsValue t s ∧ c.graph.render s = r := by
      intro branches hrule
      refine ⟨fun b hb hl => ⟨b, .branch hrule hb hl, rfl⟩, fun b hb hl d hd => ?_⟩
      refine (ih b hd).mono ?_
      rintro _ ⟨s, hs, rfl⟩
      exact ⟨s, .part hrule hb hl hs, rfl⟩
    cases hrule : c.rule t with
    | settled o =>
      rw [hrule] at h
      obtain rfl : o = .ok d := h
      exact .basic (settles_of_rule hrule).isBasic
    | array arguments =>
      rw [hrule] at h
      -- A list has one argument, the type of its elements.
      rcases arguments with _ | ⟨e, _ | _⟩
      · cases h
      · cases he : (c.classifyIn (t :: stack) e).value with
        | error x =>
          rw [outcomeOf, he] at h
          cases h
        | ok a =>
          rw [outcomeOf, he] at h
          cases h
          refine .arrayOf ((ih e he).mono ?_)
          rintro _ ⟨s, hs, rfl⟩
          exact ⟨s, .element hrule hs, rfl⟩
      · cases h
    | intersection branches =>
      obtain ⟨hvalue, htype⟩ := hbranches branches (.inr hrule)
      rw [hrule] at h
      exact allValues_intersectionOf hvalue htype h
    | union branches =>
      obtain ⟨hvalue, htype⟩ := hbranches branches (.inl hrule)
      rw [hrule, outcomeOf, value_unionOf_branchParts, ← Descriptor.ofMembers_firstsBy] at h
      obtain rfl := Except.ok.inj h
      exact Descriptor.allValues_ofMembers fun m hm =>
        allValues_contributions hvalue htype (mem_of_mem_firstsBy Descriptor.text hm)

end Classifier

/-! ## Values of graphs -/

/-- A single value with a scalar and no rendering of its own is rendered as that scalar. -/
theorem Graph.isScalarText_render {g : Graph} {t : TypeId} {n : TypeNode} {v : Json}
    (hn : g.node? t = some n) (hdisplay : n.display = none) (hvalue : n.value = some v)
    (hv : v.IsScalar) : IsScalarText (g.render t) := by
  refine ⟨v, hv, ?_⟩
  rw [render, maxRenderDepth, renderWithin_succ hn hdisplay, TypeNode.layout, hvalue]

/-- If the single values of a graph have scalars, these are their renderings. -/
theorem Graph.isScalarText_render_of_isLiteral {g : Graph}
    (h : ∀ n ∈ g.types, n.flags.isLiteral → n.display = none ∧ ∃ v ∈ n.value, v.IsScalar)
    {t : TypeId} (ht : (g.flags t).isLiteral) : IsScalarText (g.render t) := by
  cases hn : g.node? t with
  | none =>
    have hempty : ¬ TypeFlags.empty.isLiteral := by decide
    rw [flags, answer_of_node?_eq_none hn] at ht
    exact absurd ht hempty
  | some n =>
    rw [flags, answer_of_node? hn] at ht
    obtain ⟨hdisplay, v, hv, hscalar⟩ := h n (mem_types_of_node? hn) ht
    exact isScalarText_render hn hdisplay hv hscalar

namespace Classifier

/-! ## Members and their texts -/

/-- **Texts tell descriptors apart.** Two descriptors whose values, at any depth, are the compact texts
of strings, integers or truth values are the same if their texts are. So a union whose single values
are rendered in this way, those within its branches as well, has each descriptor that its branches give,
and each of them once: two branches share a member only if their descriptors are the same. -/
theorem texts_tell_members_apart :
    (∀ d e : Descriptor, d.AllValues IsScalarText → e.AllValues IsScalarText →
      d.text = e.text → d = e) ∧
    ∀ (c : Classifier) (stack : List TypeId) (t : TypeId) (branches : List TypeId),
      c.rule t = .union branches → t ∉ stack →
      (∀ s, c.ShowsValue t s → IsScalarText (c.graph.render s)) →
      let found := c.contributions branches fun b => (c.classifyIn (t :: stack) b).value
      (∀ d ∈ found, ∀ e ∈ found, d.text = e.text → d = e) ∧
      ∃ members, (c.classifyIn stack t).value = .ok (.ofMembers members) ∧
        members = firstsBy Descriptor.text found ∧
        members.Nodup ∧ ∀ d, d ∈ members ↔ d ∈ found := by
  have htexts : ∀ d e : Descriptor, d.AllValues IsScalarText → e.AllValues IsScalarText →
      d.text = e.text → d = e := fun d e hd he => Descriptor.text_inj hd he
  refine ⟨htexts, ?_⟩
  intro c stack t branches hrule ht hscalar found
  have hscalars : ∀ d ∈ found, d.AllValues IsScalarText := by
    intro d hd
    refine allValues_contributions (fun b hb hl => ?_) (fun b hb hl d hd => ?_) hd
    · exact hscalar b (.branch (.inl hrule) hb hl)
    · refine (allValues_of_classifyIn hd).mono ?_
      rintro _ ⟨s, hs, rfl⟩
      exact hscalar s (.part (.inl hrule) hb hl hs)
  have hfound : ∀ d ∈ found, ∀ e ∈ found, d.text = e.text → d = e := fun d hd e he =>
    htexts d e (hscalars d hd) (hscalars e he)
  refine ⟨hfound, firstsBy Descriptor.text found, ?_, rfl,
    (nodup_map_firstsBy Descriptor.text found).of_map, fun d => ?_⟩
  · rw [value_classifyIn c t ht, hrule, outcomeOf, value_unionOf_branchParts,
      Descriptor.ofMembers_firstsBy]
  · refine ⟨mem_of_mem_firstsBy Descriptor.text, fun hd => ?_⟩
    -- The member with the text of what is found is what is found.
    obtain ⟨e, he, htext⟩ := exists_mem_firstsBy Descriptor.text hd
    rwa [← hfound e (mem_of_mem_firstsBy Descriptor.text he) d hd htext]

/-- A union of the types of two strings, of one string that is the compact text of both, and of these
two strings again. -/
def lookalikes : Graph where
  types := [
    { id := ⟨0⟩, flags := TypeFlags.stringLiteral, value := some (.string "a") },
    { id := ⟨1⟩, flags := TypeFlags.stringLiteral, value := some (.string "b") },
    { id := ⟨2⟩, flags := TypeFlags.stringLiteral, value := some (.string "a\", \"b") },
    { id := ⟨3⟩, flags := TypeFlags.unionType, display := some "Names", union := [⟨0⟩, ⟨1⟩] },
    { id := ⟨4⟩, flags := TypeFlags.unionType, display := some "Name", union := [⟨2⟩] },
    { id := ⟨5⟩, flags := TypeFlags.unionType, display := some "Letters", union := [⟨0⟩, ⟨1⟩] },
    { id := ⟨6⟩, flags := TypeFlags.unionType, union := [⟨3⟩, ⟨4⟩, ⟨5⟩] }]
  components := []

set_option maxRecDepth 4000 in
theorem rule_lookalikes : (mk lookalikes {}).rule ⟨6⟩ = .union [⟨3⟩, ⟨4⟩, ⟨5⟩] := by
  rfl

set_option maxRecDepth 4000 in
/-- The one string is not taken for the two strings, though their texts differ in signs only; the two
strings are there once. -/
theorem texts_tell_members_apart_lookalikes :
    let c : Classifier := ⟨lookalikes, {}⟩
    let names : Descriptor := .oneOf ["\"a\"", "\"b\""]
    let name : Descriptor := .oneOf ["\"a\\\", \\\"b\""]
    names.AllValues IsScalarText ∧ name.AllValues IsScalarText ∧ names.text ≠ name.text ∧
      c.rule ⟨6⟩ = .union [⟨3⟩, ⟨4⟩, ⟨5⟩] ∧ (⟨6⟩ : TypeId) ∉ ([] : List TypeId) ∧
      (∀ s, c.ShowsValue ⟨6⟩ s → IsScalarText (c.graph.render s)) ∧
      (c.classify ⟨6⟩).value = .ok (.oneOfType [names, name]) ∧
      ∃ members, (c.classify ⟨6⟩).value = .ok (.ofMembers members) ∧ members.Nodup := by
  intro c names name
  have hnames : names.AllValues IsScalarText := by
    refine .oneOf ?_
    simp only [List.forall_mem_cons]
    exact ⟨⟨_, .string "a", rfl⟩, ⟨_, .string "b", rfl⟩, List.forall_mem_nil _⟩
  have hname : name.AllValues IsScalarText :=
    .oneOf (List.forall_mem_singleton.2 ⟨_, .string "a\", \"b", rfl⟩)
  have htext : names.text ≠ name.text := fun h =>
    absurd (texts_tell_members_apart.1 names name hnames hname h) (by simp [names, name])
  have hscalar : ∀ s, c.ShowsValue ⟨6⟩ s → IsScalarText (c.graph.render s) := by
    intro s hs
    refine Graph.isScalarText_render_of_isLiteral (fun n hn hl => ?_) hs.isLiteral
    have hunion : ¬ TypeFlags.unionType.isLiteral := by decide
    have hnodes : ∀ n ∈ lookalikes.types, n.flags.isLiteral →
        n.display = none ∧ ∃ s, n.value = some (.string s) := by
      simp [lookalikes, hunion]
    obtain ⟨hdisplay, s, hs⟩ := hnodes n hn hl
    exact ⟨hdisplay, _, hs, .string s⟩
  have hvalue : (c.classify ⟨6⟩).value = .ok (.oneOfType [names, name]) :=
    value_classify_of_walk rfl
  obtain ⟨-, members, hmembers, -, hnodup, -⟩ :=
    texts_tell_members_apart.2 c [] ⟨6⟩ _ rule_lookalikes List.not_mem_nil hscalar
  exact ⟨hnames, hname, htext, rule_lookalikes, List.not_mem_nil, hscalar, hvalue, members,
    hmembers, hnodup⟩

end Classifier

end ComponentViews
