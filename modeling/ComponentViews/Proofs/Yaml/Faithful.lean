import ComponentViews.Proofs.Json.Faithful
import ComponentViews.Proofs.Yaml.Texts

/-!
# YAML shows JSON values

A node says a value if its scalars denote the strings and truth values, and its items and entries are in
the same order. A piece of a text shows a value if its node says the value and the value does not nest
deeper than is left. So a value is read back from its text. Empty lines after the text belong to a
block at its end, if that keeps its line breaks.

## Main definitions

* `Json.before`: a value as it is read if empty lines follow its text.
* `Node.Says`, `YamlPiece.Shows`: a node says a value, and a piece of a text shows it.

## Main results

* `says_writtenNode`: written nodes say their values.
* `YamlPiece.faithful`: pieces of texts may be taken for what they show.
* `readYamlText?_yamlLines`: what is read of a value is read of its text.
-/

namespace ComponentViews

open Yaml

/-! ## Values before empty lines -/

mutual

/-- A value as it is read if empty lines follow its text. -/
def Json.before (n : Nat) : Json → Json
  | .null => .null
  | .bool b => .bool b
  | .number m => .number m
  | .string s => .string (String.ofList (readBefore n s.toList))
  | .array items => .array (Json.itemsBefore n items)
  | .object fields => .object (Json.fieldsBefore n fields)

/-- The items of a list as they are read if empty lines follow the last. -/
def Json.itemsBefore (n : Nat) : List Json → List Json
  | [] => []
  | x :: xs => x.before (if xs.isEmpty then n else 0) :: Json.itemsBefore n xs

/-- The fields of an object as they are read if empty lines follow the last. -/
def Json.fieldsBefore (n : Nat) : List (String × Json) → List (String × Json)
  | [] => []
  | (k, v) :: fields => (k, v.before (if fields.isEmpty then n else 0)) :: Json.fieldsBefore n fields

end

namespace Json

variable {fields more : List (String × Json)}

theorem itemsBefore_zero_of {items : List Json} (h : ∀ x ∈ items, x.before 0 = x) :
    itemsBefore 0 items = items := by
  induction items with
  | nil => rfl
  | cons x xs ih =>
    obtain ⟨hx, hxs⟩ := List.forall_mem_cons.1 h
    rw [itemsBefore, ite_self, hx, ih hxs]

theorem fieldsBefore_zero_of (h : ∀ f ∈ fields, f.2.before 0 = f.2) :
    fieldsBefore 0 fields = fields := by
  induction fields with
  | nil => rfl
  | cons f fields ih =>
    obtain ⟨hf, hfields⟩ := List.forall_mem_cons.1 h
    rw [fieldsBefore, ite_self, hf, ih hfields]

/-- Only the last field is next to the empty lines. -/
theorem fieldsBefore_append (n : Nat) (hne : more ≠ []) :
    fieldsBefore n (fields ++ more) = fieldsBefore 0 fields ++ fieldsBefore n more := by
  induction fields with
  | nil => rfl
  | cons f fields ih =>
    have hlast : (fields ++ more).isEmpty = false := by simp [hne]
    rw [List.cons_append, fieldsBefore, fieldsBefore, hlast, ih, ite_self]
    rfl

/-- Without empty lines a value is read as it is. -/
theorem Textual.before_zero {v : Json} (h : v.Textual) : v.before 0 = v := by
  induction h with
  | bool b => rfl
  | string s => rw [before, readBefore_zero, String.ofList_toList]
  | array _ ih => exact congrArg Json.array (itemsBefore_zero_of ih)
  | object _ _ ih => exact congrArg Json.object (fieldsBefore_zero_of ih)

/-- Of an object only the last field changes. -/
theorem before_object_concat (h : ∀ f ∈ fields, f.2.Textual) (n : Nat) (k : String) (v : Json) :
    (Json.object (fields ++ [(k, v)])).before n = .object (fields ++ [(k, v.before n)]) := by
  rw [before, fieldsBefore_append n (List.cons_ne_nil _ _),
    fieldsBefore_zero_of fun f hf => (h f hf).before_zero]
  rfl

end Json

namespace Yaml

/-- A node says a value. -/
inductive Node.Says : LinkedNode → Json → Prop
  | true : Says (.scalar {} .plain ['t', 'r', 'u', 'e']) (.bool true)
  | false : Says (.scalar {} .plain ['f', 'a', 'l', 's', 'e']) (.bool false)
  | string {style : ScalarStyle} {text : List Char} (h : style = .plain → scalarValue text = .text) :
    Says (.scalar {} style text) (.string (String.ofList text))
  | array {nodes : List LinkedNode} {items : List Json} (h : List.Forall₂ Says nodes items) :
    Says (.sequence {} nodes) (.array items)
  | object {entries : List (LinkedNode × LinkedNode)} {fields : List (String × Json)}
    (hkeys : entries.map (·.1) = fields.map fun f => .scalar {} .plain f.1.toList)
    (h : List.Forall₂ Says (entries.map (·.2)) (fields.map (·.2))) :
    Says (.mapping {} entries) (.object fields)

/-- Written nodes say their values. -/
theorem says_writtenNode {v : Json} (h : v.Textual) (n : Nat) :
    (writtenNode n v : LinkedNode).Says (v.before n) := by
  induction h generalizing n with
  | bool b => cases b <;> constructor
  | string s =>
    refine .string fun hstyle => ?_
    cases hs : spelling s.toList with
    | plain =>
      -- Without quotation marks, a string is read as nothing but a string.
      have hother := (spelling_eq_plain hs).2
      rw [readBefore, hs]
      rw [readsAsOther] at hother
      split at hother
      · assumption
      · cases hother
    | single | double | block =>
      rw [hs] at hstyle
      cases hstyle
  | @array items _ ih =>
    refine .array ?_
    clear * - ih
    induction items with
    | nil => exact .nil
    | cons x xs ihxs =>
      obtain ⟨hx, hxs⟩ := List.forall_mem_cons.1 ih
      exact .cons (hx _) (ihxs hxs)
  | @object fields _ _ ih =>
    refine .object ?_ ?_
    · clear * -
      induction fields with
      | nil => rfl
      | cons f fields ih => exact congrArg _ ih
    · clear * - ih
      induction fields with
      | nil => exact .nil
      | cons f fields ihfields =>
        obtain ⟨hf, hfields⟩ := List.forall_mem_cons.1 ih
        exact .cons (hf _) (ihfields hfields)

end Yaml

namespace YamlPiece

/-- The node says the value, which does not nest deeper than is left. -/
def Shows (p : YamlPiece) (v : Json) : Prop := p.node.Says v ∧ v.Plain p.room

variable {targets : List (Nat × LinkedNode)} {room : Nat}

theorem entries_cons (k : List Char) (node : LinkedNode) (entries : List (LinkedNode × LinkedNode)) :
    YamlPiece.entries ⟨targets, .mapping {} ((.scalar {} .plain k, node) :: entries), room + 1⟩ =
      ((String.ofList k, ⟨targets, node, room⟩) :: ·) <$>
        YamlPiece.entries ⟨targets, .mapping {} entries, room + 1⟩ := by
  simp [YamlPiece.entries, follow, chars]

/-- The entries of a mapping that says an object. -/
theorem exists_entries {entries : List (LinkedNode × LinkedNode)} {fields : List (String × Json)}
    (hkeys : entries.map (·.1) = fields.map fun f => .scalar {} .plain f.1.toList)
    (h : List.Forall₂ Node.Says (entries.map (·.2)) (fields.map (·.2)))
    (hplain : ∀ f ∈ fields, f.2.Plain room) :
    ∃ fs, YamlPiece.entries ⟨targets, .mapping {} entries, room + 1⟩ = pure fs ∧
      List.Forall₂ (fun f g => f.1 = g.1 ∧ f.2.Shows g.2) fs fields := by
  induction fields generalizing entries with
  | nil =>
    obtain rfl : entries = [] := List.map_eq_nil_iff.1 hkeys
    exact ⟨[], rfl, .nil⟩
  | cons f fields ih =>
    obtain ⟨⟨k, node⟩, entries, rfl, hk, hrest⟩ := List.map_eq_cons_iff.1 hkeys
    obtain rfl : k = .scalar {} .plain f.1.toList := hk
    obtain ⟨hnode, h⟩ := List.forall₂_cons.1 h
    obtain ⟨fs, hfs, hall⟩ := ih hrest h fun g hg => hplain g (List.mem_cons_of_mem f hg)
    refine ⟨(f.1, ⟨targets, node, room⟩) :: fs, ?_,
      .cons ⟨rfl, hnode, hplain f List.mem_cons_self⟩ hall⟩
    rw [entries_cons, hfs, map_pure, String.ofList_toList]

/-- A scalar without quotation marks that is a string stands for a value. -/
theorem absent?_of_text {style : ScalarStyle} {text : List Char}
    (h : style = .plain → scalarValue text = .text) : absent? {} style text = some false := by
  cases style with
  | plain =>
    have hvalue := h rfl
    cases hnull : (text.isEmpty || isNullText text) with
    | false => exact congrArg some hnull
    | true =>
      rw [scalarValue, hnull] at hvalue
      cases hvalue
  | literal | other => rfl

/-- Pieces of texts may be taken for strings, truth values, lists and objects that they show. -/
theorem faithful : Faithful Shows fun _ => False where
  text {p _} h := by
    obtain ⟨targets, node, room⟩ := p
    cases h.1
    rfl
  flag {p _} h := by
    obtain ⟨targets, node, room⟩ := p
    cases h.1 <;> rfl
  word {p n} h := by
    obtain ⟨targets, node, room⟩ := p
    cases h.1
  optional_null {p} h := by
    obtain ⟨targets, node, room⟩ := p
    cases h.1
  optional {p v} h _ := by
    obtain ⟨targets, node, room⟩ := p
    cases h.1 with
    | @string style text htext =>
      have hfollow : YamlPiece.follow ⟨targets, .scalar {} style text, room⟩ =
          pure ⟨targets, .scalar {} style text, room⟩ := rfl
      change YamlPiece.optional _ = _
      rw [YamlPiece.optional, hfollow, pure_bind]
      simp only [absent?_of_text htext]
      rfl
    | _ => rfl
  items {p items} h := by
    obtain ⟨targets, node, room⟩ := p
    obtain ⟨hsaid, hplain⟩ := h
    cases hsaid with
    | @array nodes _ hsaid =>
      cases hplain with
      | @array room _ hplain =>
        -- The items are one level deeper, in their order.
        refine ⟨_, rfl, List.forall₂_map_left_iff.2 ?_⟩
        induction hsaid with
        | nil => exact .nil
        | @cons node x nodes items hnode _ ih =>
          refine .cons ⟨hnode, hplain x List.mem_cons_self⟩ (ih fun y hy => ?_)
          exact hplain y (List.mem_cons_of_mem x hy)
  record {p fields} h := by
    obtain ⟨targets, node, room⟩ := p
    obtain ⟨hsaid, hplain⟩ := h
    cases hsaid with
    | @object entries _ hkeys hsaid =>
      cases hplain with
      | @object room _ hplain =>
        obtain ⟨fs, hfs, hall⟩ : ∃ fs,
            YamlPiece.entries ⟨targets, .mapping {} entries, room + 1⟩ = pure fs ∧ _ :=
          exists_entries hkeys hsaid hplain
        exact ⟨fs, (congrArg (Record.named <$> ·) hfs).trans (map_pure _ _), hall⟩
  choice {p _} h := by
    obtain ⟨targets, node, room⟩ := p
    cases h.1
    rfl
  value _ := False.elim

end YamlPiece

/-! ## Texts -/

/-- Values nest as deep as before. -/
theorem Json.Plain.before {v : Json} {room : Nat} (h : v.Plain room) (n : Nat) :
    (v.before n).Plain room := by
  induction h generalizing n with
  | null => exact .null
  | bool b => exact .bool b
  | integer h => exact .integer h
  | string s => exact .string _
  | @array room items _ ih =>
    refine .array ?_
    clear * - ih
    induction items with
    | nil => exact List.forall_mem_nil _
    | cons x xs ihxs =>
      obtain ⟨hx, hxs⟩ := List.forall_mem_cons.1 ih
      exact List.forall_mem_cons.2 ⟨hx _, ihxs hxs⟩
  | @object room fields _ ih =>
    refine .object ?_
    clear * - ih
    induction fields with
    | nil => exact List.forall_mem_nil _
    | cons f fields ihfields =>
      obtain ⟨hf, hfields⟩ := List.forall_mem_cons.1 ih
      exact List.forall_mem_cons.2 ⟨hf _, ihfields hfields⟩

/-- **Texts.** What is read of an object, as it is read if empty lines follow its text, is read of its
text with empty lines after it. -/
theorem readYamlText?_yamlLines {α : Type} {read : YamlPiece → YamlReading α} {k : String} {v : Json}
    {fields : List (String × Json)} (h : (Json.object ((k, v) :: fields)).Textual)
    (hplain : (Json.object ((k, v) :: fields)).Plain maxYamlDepth) (n : Nat) {a : α}
    (hread : Recovers YamlPiece.Shows read ((Json.object ((k, v) :: fields)).before n) a) :
    readYamlText? read
      (String.ofList ((Json.object ((k, v) :: fields)).yamlLines 0 ++ List.replicate n '\n')) =
        some a := by
  -- There are no references, so it does not matter what names were found.
  have hpiece := fun targets => hread
    ⟨targets, writtenNode n (.object ((k, v) :: fields)), maxYamlDepth⟩
    ⟨says_writtenNode h n, hplain.before n⟩
  simp only [readYamlText?, String.toList_ofList, tokens?_yamlLines h n,
    document?_tokens (bare_writtenNode h n), link?_writtenNode h n [], Option.bind_eq_bind,
    Option.bind_some, hpiece]
  rfl

end ComponentViews
