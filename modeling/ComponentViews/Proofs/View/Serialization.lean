import ComponentViews.Command.Conversions
import ComponentViews.Proofs.Json.Faithful

/-!
# Views are read back

A view that is written as a JSON value is read back from all data that shows the value, with every
field that was left out because it was absent or empty. The text of a view shows the value, so
views are read back from their texts, and different views have different texts.

## Main results

* `ForwardedProperty.recovers`, `SkippedProperty.recovers`, `EventView.recovers`,
  `ComponentView.recovers`: what is written is read back.
* `ComponentView.plain_toJson`: a written view has no numbers and nests four levels deep.
* `ComponentView.readJsonText?_text`: views are read back from their texts.
-/

namespace ComponentViews

variable {σ : Type} {m : Type → Type} [Monad m] [LawfulMonad m] [MonadExceptOf Unit m]
  [DataSource σ m] {Shows : σ → Json → Prop} {Legible : Json → Prop}

/-! ## Names of fields -/

theorem ForwardedProperty.keys_sublist {p : ForwardedProperty} {fields : List (String × Json)}
    (h : p.toJson = .object fields) : (fields.map (·.1)).Sublist
      ["name", "documentation", "default_value", "prop_type", "forward"] := by
  obtain rfl := Json.object.inj h
  simp only [List.map_append]
  exact ((List.Sublist.refl ["name", "documentation"]).append
    (keys_optionField_sublist _ _)).append (.refl ["prop_type", "forward"])

theorem ComponentView.keys_sublist {v : ComponentView} {fields : List (String × Json)}
    (h : v.toJson = .object fields) : (fields.map (·.1)).Sublist
      ["name", "properties", "skipped", "events", "imports", "extra_code",
        "children_rendering", "warnings"] := by
  obtain rfl := Json.object.inj h
  simp only [List.map_append]
  exact ((List.Sublist.refl ["name", "properties", "skipped", "events", "imports",
    "extra_code"]).append (keys_optionField_sublist _ _)).append (keys_listField_sublist _ _)

/-! ## Reading what is written -/

theorem ForwardedProperty.recovers (hf : Faithful Shows Legible) (p : ForwardedProperty) :
    Recovers Shows read p.toJson p := by
  intro s hs
  obtain ⟨f, hfields, h⟩ := hf.exists_readFields
    ["name", "documentation", "default_value", "prop_type", "forward"] (keys_sublist rfl)
    (by decide) hs
  have hname : f.required "name" DataSource.text = pure p.name :=
    h.required (by simp [valueOf?_cons]) (hf.recovers_text _)
  have hdocumentation : f.withDefault "documentation" [] (readList DataSource.text) =
      pure p.documentation :=
    h.withDefault_of_some (by simp [valueOf?_cons]) (hf.recovers_strings _) []
  have hdefault : f.option "default_value" DataSource.text = pure p.defaultValue :=
    h.optionField hf (by simp [valueOf?_append, valueOf?_cons]) fun _ _ =>
      ⟨Json.noConfusion, hf.recovers_text _⟩
  have hpropType : f.required "prop_type" DataSource.text = pure p.propType :=
    h.required (by simp [valueOf?_append, valueOf?_cons]) (hf.recovers_text _)
  have hforward : f.required "forward" DataSource.flag = pure p.forward :=
    h.required (by simp [valueOf?_append, valueOf?_cons]) fun _ => hf.flag
  simp [read, hfields, hname, hdocumentation, hdefault, hpropType, hforward]

theorem SkipReason.recovers (hf : Faithful Shows Legible) (r : SkipReason) :
    Recovers Shows read (.string r.text) r := by
  intro s hs
  simp [read, hf.choice hs]

theorem SkippedProperty.recovers (hf : Faithful Shows Legible) (p : SkippedProperty) :
    Recovers Shows read p.toJson p := by
  intro s hs
  obtain ⟨f, hfields, h⟩ := hf.exists_readFields
    ["name", "documentation", "type_name", "reason", "detail"] (.refl _)
    (by decide) hs
  have hname : f.required "name" DataSource.text = pure p.name :=
    h.required (by simp [valueOf?_cons]) (hf.recovers_text _)
  have hdocumentation : f.withDefault "documentation" [] (readList DataSource.text) =
      pure p.documentation :=
    h.withDefault_of_some (by simp [valueOf?_cons]) (hf.recovers_strings _) []
  have htypeName : f.required "type_name" DataSource.text = pure p.typeName :=
    h.required (by simp [valueOf?_cons]) (hf.recovers_text _)
  have hreason : f.required "reason" SkipReason.read = pure p.reason :=
    h.required (by simp [valueOf?_cons]) (SkipReason.recovers hf _)
  have hdetail : f.withDefault "detail" "" DataSource.text = pure p.detail :=
    h.withDefault_of_some (by simp [valueOf?_cons]) (hf.recovers_text _) ""
  simp [read, hfields, hname, hdocumentation, htypeName, hreason, hdetail]

theorem EventView.recovers (hf : Faithful Shows Legible) (e : EventView) :
    Recovers Shows read e.toJson e := by
  intro s hs
  obtain ⟨f, hfields, h⟩ := hf.exists_readFields ["name", "documentation"] (.refl _)
    (by decide) hs
  have hname : f.required "name" DataSource.text = pure e.name :=
    h.required (by simp [valueOf?_cons]) (hf.recovers_text _)
  have hdocumentation : f.withDefault "documentation" [] (readList DataSource.text) =
      pure e.documentation :=
    h.withDefault_of_some (by simp [valueOf?_cons]) (hf.recovers_strings _) []
  simp [read, hfields, hname, hdocumentation]

/-- A view is read back from all data that shows what is written for it. -/
theorem ComponentView.recovers (hf : Faithful Shows Legible) (v : ComponentView) :
    Recovers Shows read v.toJson v := by
  intro s hs
  obtain ⟨f, hfields, h⟩ := hf.exists_readFields
    ["name", "properties", "skipped", "events", "imports", "extra_code",
      "children_rendering", "warnings"] (keys_sublist rfl) (by decide) hs
  have hname : f.required "name" DataSource.text = pure v.name :=
    h.required (by simp [valueOf?_cons]) (hf.recovers_text _)
  have hproperties : f.required "properties" (readList ForwardedProperty.read) =
      pure v.properties :=
    h.required (by simp [valueOf?_cons])
      (hf.recovers_list_self fun p _ => p.recovers hf)
  have hskipped : f.withDefault "skipped" [] (readList SkippedProperty.read) = pure v.skipped :=
    h.withDefault_of_some (by simp [valueOf?_cons])
      (hf.recovers_list_self fun p _ => p.recovers hf) []
  have hevents : f.withDefault "events" [] (readList EventView.read) = pure v.events :=
    h.withDefault_of_some (by simp [valueOf?_cons])
      (hf.recovers_list_self fun e _ => e.recovers hf) []
  have himports : f.withDefault "imports" [] (readList DataSource.text) = pure v.imports :=
    h.withDefault_of_some (by simp [valueOf?_cons]) (hf.recovers_strings _) []
  have hextraCode : f.withDefault "extra_code" [] (readList DataSource.text) =
      pure v.extraCode :=
    h.withDefault_of_some (by simp [valueOf?_cons]) (hf.recovers_strings _) []
  -- The last two fields are left out where there is nothing to write.
  have hchildren : f.option "children_rendering" DataSource.text = pure v.childrenRendering :=
    h.optionField hf (by simp [valueOf?_append, valueOf?_cons]) fun _ _ =>
      ⟨Json.noConfusion, hf.recovers_text _⟩
  have hwarnings : f.withDefault "warnings" [] (readList DataSource.text) = pure v.warnings :=
    h.listField hf (by simp [valueOf?_append, valueOf?_cons]) fun t _ =>
      hf.recovers_text t
  simp [read, hfields, hname, hproperties, hskipped, hevents, himports, hextraCode, hchildren,
    hwarnings]

/-! ## Texts -/

theorem ForwardedProperty.plain_toJson (p : ForwardedProperty) {room : Nat} :
    p.toJson.Plain (room + 2) := by
  refine .object ?_
  simp only [List.forall_mem_append, List.forall_mem_cons, forall_mem_optionField]
  exact ⟨⟨⟨.string _, Json.plain_strings _, List.forall_mem_nil _⟩, fun t _ => .string t⟩,
    .string _, .bool _, List.forall_mem_nil _⟩

theorem SkippedProperty.plain_toJson (p : SkippedProperty) {room : Nat} :
    p.toJson.Plain (room + 2) := by
  refine .object ?_
  simp only [List.forall_mem_cons]
  exact ⟨.string _, Json.plain_strings _, .string _, .string _, .string _, List.forall_mem_nil _⟩

theorem EventView.plain_toJson (e : EventView) {room : Nat} : e.toJson.Plain (room + 2) := by
  refine .object ?_
  simp only [List.forall_mem_cons]
  exact ⟨.string _, Json.plain_strings _, List.forall_mem_nil _⟩

/-- A view is written without numbers, four levels deep. -/
theorem ComponentView.plain_toJson (v : ComponentView) {room : Nat} :
    v.toJson.Plain (room + 4) := by
  refine .object ?_
  simp only [List.forall_mem_append, List.forall_mem_cons, forall_mem_optionField,
    forall_mem_listField]
  exact ⟨⟨⟨.string _, .array_map fun p _ => p.plain_toJson, .array_map fun p _ => p.plain_toJson,
    .array_map fun e _ => e.plain_toJson, Json.plain_strings _, Json.plain_strings _,
    List.forall_mem_nil _⟩, fun t _ => .string t⟩, fun _ => .array_map fun t _ => .string t⟩

/-- A view is read back from its text in JSON, so different views have different texts. -/
theorem ComponentView.readJsonText?_text :
    (∀ v : ComponentView, readJsonText? read (v.text .json) = some v) ∧
      ∀ v w : ComponentView, v.text .json = w.text .json → v = w := by
  have hread : ∀ v : ComponentView, readJsonText? read (v.text .json) = some v := by
    intro v
    have hplain : v.toJson.Plain (123 + 4) := v.plain_toJson
    exact readJsonText?_pretty (v.recovers JsonText.faithful) hplain
  refine ⟨hread, fun v w h => ?_⟩
  have hv := hread v
  rw [h, hread w] at hv
  exact (Option.some.inj hv).symm

end ComponentViews
