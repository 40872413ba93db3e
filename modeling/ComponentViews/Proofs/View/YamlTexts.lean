import ComponentViews.Proofs.View.Serialization
import ComponentViews.Proofs.Yaml.Faithful

/-!
# Views are read back from their texts in YAML

The text of a view is read back as the view, whatever its strings consist of. Only where empty lines
follow the text may the last string of the view take them for its own.

## Main definitions

* `ComponentView.before`: a view as it is read if empty lines follow its text.
* `ComponentView.lastString?`: the last string that is written for a view.

## Main results

* `ComponentView.textual_toJson`: views consist of strings, truth values and lists.
* `ComponentView.readYamlText?_text_append`: views are read back from their texts.
* `ComponentView.readYamlText?_text`: the text of a view is the text of no other view.
* `ComponentView.readYamlText?_text_newline_iff`: which views are read back if a line break follows.
-/

namespace ComponentViews

open Yaml

/-! ## Values of views -/

theorem Json.Textual.strings (xs : List String) : (Json.strings xs).Textual :=
  .array (List.forall_mem_map.2 fun t _ => .string t)

theorem Json.Textual.array_map {α : Type} {write : α → Json} {xs : List α}
    (h : ∀ x ∈ xs, (write x).Textual) : (Json.array (xs.map write)).Textual :=
  .array (List.forall_mem_map.2 h)

/-- Objects are textual if their names are among names of fields. -/
theorem Json.Textual.object_of_sublist {fields : List (String × Json)} {names : List String}
    (hsublist : (fields.map (·.1)).Sublist names) (hnames : ∀ k ∈ names, IsFieldName k)
    (h : ∀ f ∈ fields, f.2.Textual) : (Json.object fields).Textual :=
  .object (fun _ hf => hnames _ (hsublist.subset (List.mem_map_of_mem hf))) h

theorem ForwardedProperty.textual_toJson (p : ForwardedProperty) : p.toJson.Textual := by
  refine .object_of_sublist (keys_sublist rfl) (by decide +kernel) ?_
  simp only [List.forall_mem_append, List.forall_mem_cons, forall_mem_optionField]
  exact ⟨⟨⟨.string _, .strings _, List.forall_mem_nil _⟩, fun t _ => .string t⟩,
    .string _, .bool _, List.forall_mem_nil _⟩

theorem SkippedProperty.textual_toJson (p : SkippedProperty) : p.toJson.Textual := by
  have hnames : ∀ k ∈ ["name", "documentation", "type_name", "reason", "detail"], IsFieldName k := by
    decide +kernel
  refine .object_of_sublist (.refl _) hnames ?_
  simp only [List.forall_mem_cons]
  exact ⟨.string _, .strings _, .string _, .string _, .string _, List.forall_mem_nil _⟩

theorem EventView.textual_toJson (e : EventView) : e.toJson.Textual := by
  have hnames : ∀ k ∈ ["name", "documentation"], IsFieldName k := by decide +kernel
  refine .object_of_sublist (.refl _) hnames ?_
  simp only [List.forall_mem_cons]
  exact ⟨.string _, .strings _, List.forall_mem_nil _⟩

/-- A view consists of strings, truth values and lists. -/
theorem ComponentView.textual_toJson (v : ComponentView) : v.toJson.Textual := by
  refine .object_of_sublist (keys_sublist rfl) (by decide +kernel) ?_
  simp only [List.forall_mem_append, List.forall_mem_cons, forall_mem_optionField,
    forall_mem_listField]
  exact ⟨⟨⟨.string _, .array_map fun p _ => p.textual_toJson, .array_map fun p _ => p.textual_toJson,
    .array_map fun e _ => e.textual_toJson, .strings _, .strings _, List.forall_mem_nil _⟩,
    fun t _ => .string t⟩, fun _ => .array_map fun t _ => .string t⟩

/-! ## Strings before empty lines -/

/-- A string as it is read if empty lines follow it. -/
def textBefore (n : Nat) (s : String) : String := String.ofList (readBefore n s.toList)

/-- Strings as they are read if empty lines follow the last. -/
def stringsBefore (n : Nat) : List String → List String
  | [] => []
  | s :: ss => textBefore (if ss.isEmpty then n else 0) s :: stringsBefore n ss

theorem textBefore_zero (s : String) : textBefore 0 s = s := by
  rw [textBefore, readBefore_zero, String.ofList_toList]

theorem textBefore_eq_self_iff {n : Nat} (hn : 0 < n) {s : String} :
    textBefore n s = s ↔ ¬ KeepsBreaks s.toList := by
  rw [← readBefore_eq_self_iff hn, textBefore]
  constructor
  · intro h
    rw [← String.toList_ofList (l := readBefore n s.toList), h]
  · intro h
    rw [h, String.ofList_toList]

theorem stringsBefore_eq_self_iff {n : Nat} (hn : 0 < n) {ss : List String} :
    stringsBefore n ss = ss ↔ ∀ s ∈ ss.getLast?, ¬ KeepsBreaks s.toList := by
  induction ss with
  | nil => simp [stringsBefore]
  | cons s ss ih =>
    cases ss with
    | nil => simp [stringsBefore, textBefore_eq_self_iff hn]
    | cons t ts =>
      rw [stringsBefore, List.getLast?_cons_cons, ← ih, List.isEmpty_cons, if_neg Bool.false_ne_true,
        textBefore_zero, List.cons_inj_right]

theorem itemsBefore_map_string (n : Nat) (ss : List String) :
    Json.itemsBefore n (ss.map .string) = (stringsBefore n ss).map .string := by
  induction ss with
  | nil => rfl
  | cons s ss ih =>
    rw [List.map_cons, Json.itemsBefore, ih, stringsBefore, List.map_cons, List.isEmpty_map]
    rfl

theorem before_strings (n : Nat) (ss : List String) :
    (Json.strings ss).before n = .strings (stringsBefore n ss) :=
  congrArg Json.array (itemsBefore_map_string n ss)

/-! ## Views before empty lines -/

namespace ComponentView

/-- The last string that is written for a view, if it is within its last field. -/
def lastString? (v : ComponentView) : Option String :=
  match v.warnings.getLast?, v.childrenRendering with
  | some s, _ => some s
  | none, some s => some s
  | none, none => v.extraCode.getLast?

/-- A view as it is read if empty lines follow its text. -/
def before (n : Nat) (v : ComponentView) : ComponentView :=
  match v.warnings, v.childrenRendering with
  | _ :: _, _ => { v with warnings := stringsBefore n v.warnings }
  | [], some s => { v with childrenRendering := some (textBefore n s) }
  | [], none => { v with extraCode := stringsBefore n v.extraCode }

theorem before_eq_self_iff {n : Nat} (hn : 0 < n) (v : ComponentView) :
    v.before n = v ↔ ∀ s ∈ v.lastString?, ¬ KeepsBreaks s.toList := by
  obtain ⟨name, properties, skipped, events, imports, extraCode, childrenRendering, warnings⟩ := v
  cases warnings with
  | nil =>
    cases childrenRendering with
    | none => simp [before, lastString?, stringsBefore_eq_self_iff hn]
    | some s => simp [before, lastString?, textBefore_eq_self_iff hn]
  | cons w ws =>
    have hlast : (w :: ws).getLast? = some ((w :: ws).getLast (List.cons_ne_nil w ws)) :=
      List.getLast?_eq_some_getLast _
    have hiff : stringsBefore n (w :: ws) = w :: ws ↔ _ := stringsBefore_eq_self_iff hn
    simp only [before, lastString?, hlast, mk.injEq, true_and] at hiff ⊢
    exact hiff

/-- What is read of the text of a view is written for the view that is read. -/
theorem toJson_before (n : Nat) (v : ComponentView) : (v.before n).toJson = v.toJson.before n := by
  obtain ⟨name, properties, skipped, events, imports, extraCode, childrenRendering, warnings⟩ := v
  -- Of all fields only the last is next to the empty lines, and which it is depends on the view.
  have hfields : ∀ f ∈ [("name", Json.string name),
      ("properties", .array (properties.map ForwardedProperty.toJson)),
      ("skipped", .array (skipped.map SkippedProperty.toJson)),
      ("events", .array (events.map EventView.toJson)), ("imports", .strings imports)] ++
      ([("extra_code", .strings extraCode)] ++
        optionField "children_rendering" .string childrenRendering), f.2.Textual := by
    simp only [List.forall_mem_append, List.forall_mem_cons, forall_mem_optionField]
    exact ⟨⟨.string _, .array_map fun p _ => p.textual_toJson,
      .array_map fun p _ => p.textual_toJson, .array_map fun e _ => e.textual_toJson, .strings _,
      List.forall_mem_nil _⟩, ⟨.strings _, List.forall_mem_nil _⟩, fun s _ => .string s⟩
  cases warnings with
  | cons w ws =>
    have hlast := Json.before_object_concat hfields n "warnings" (.strings (w :: ws))
    rw [before_strings] at hlast
    exact hlast.symm
  | nil =>
    cases childrenRendering with
    | some s =>
      rw [← List.append_assoc] at hfields
      exact (Json.before_object_concat (List.forall_mem_append.1 hfields).1 n "children_rendering"
        (.string s)).symm
    | none =>
      have hlast := Json.before_object_concat (List.forall_mem_append.1 hfields).1 n "extra_code"
        (.strings extraCode)
      rw [before_strings] at hlast
      exact hlast.symm

/-! ## Texts -/

/-- **Views.** A view is read back from its text in YAML. Empty lines after the text belong to the last
string of the view, if that is a block that keeps its line breaks. -/
theorem readYamlText?_text_append (v : ComponentView) (n : Nat) :
    readYamlText? read (v.text .yaml ++ String.ofList (List.replicate n '\n')) = some (v.before n) := by
  have hplain : v.toJson.Plain (124 + 4) := v.plain_toJson
  have htextual := v.textual_toJson
  have hrecovers : Recovers YamlPiece.Shows read (v.toJson.before n) (v.before n) := by
    rw [← v.toJson_before n]
    exact (v.before n).recovers YamlPiece.faithful
  obtain ⟨k, x, fields, hfields⟩ : ∃ k x fields, v.toJson = .object ((k, x) :: fields) :=
    ⟨_, _, _, rfl⟩
  rw [hfields] at hplain htextual hrecovers
  have htext : v.text .yaml = String.ofList ((Json.object ((k, x) :: fields)).yamlLines 0) :=
    congrArg Json.yaml hfields
  rw [htext, ← String.ofList_append]
  exact readYamlText?_yamlLines htextual hplain n hrecovers

theorem before_zero (v : ComponentView) : v.before 0 = v := by
  have hstrings : ∀ ss, stringsBefore 0 ss = ss := fun ss => by
    induction ss with
    | nil => rfl
    | cons s ss ih => rw [stringsBefore, ite_self, textBefore_zero, ih]
  obtain ⟨name, properties, skipped, events, imports, extraCode, childrenRendering, warnings⟩ := v
  cases warnings with
  | nil =>
    cases childrenRendering with
    | none => simp [before, hstrings]
    | some s => simp [before, textBefore_zero]
  | cons w ws => simp [before, hstrings]

/-- A view is read back from its text in YAML, so different views have different texts. -/
theorem readYamlText?_text :
    (∀ v : ComponentView, readYamlText? read (v.text .yaml) = some v) ∧
      ∀ v w : ComponentView, v.text .yaml = w.text .yaml → v = w := by
  have hread : ∀ v : ComponentView, readYamlText? read (v.text .yaml) = some v := by
    intro v
    have happend := v.readYamlText?_text_append 0
    rwa [before_zero, List.replicate_zero, String.ofList_nil, String.append_empty] at happend
  refine ⟨hread, fun v w h => ?_⟩
  have hv := hread v
  rw [h, hread w] at hv
  exact (Option.some.inj hv).symm

/-- A line break after the text makes one empty line. -/
theorem readYamlText?_text_newline_iff (v : ComponentView) :
    readYamlText? read (v.text .yaml ++ "\n") = some v ↔
      ∀ s ∈ v.lastString?, ¬ KeepsBreaks s.toList := by
  have hread := v.readYamlText?_text_append 1
  have hbreak : String.ofList (List.replicate 1 '\n') = "\n" := rfl
  rw [hbreak] at hread
  rw [hread, Option.some_inj, v.before_eq_self_iff Nat.one_pos]

end ComponentView

end ComponentViews
