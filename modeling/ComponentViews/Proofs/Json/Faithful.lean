import ComponentViews.Json.Source
import ComponentViews.Proofs.Data.Faithful
import ComponentViews.Proofs.Json.Texts

/-!
# JSON shows JSON values

A JSON value shows itself. A piece of a JSON text shows a value if its tree says the value and the
value does not nest deeper than is left. So what is read of a value is read of the texts that are
written for it, too.

## Main definitions

* `Json.Ordered`: the fields of all objects in a value are in ascending order.
* `JsonText.Shows`: a piece of a text shows a value.

## Main results

* `Json.faithful`, `JsonText.faithful`: values and pieces of texts may be taken for what they show.
* `readJsonText?_layout`: what is read of a value is read of the texts that are written for it.
-/

namespace ComponentViews

/-! ## Values -/

theorem JsonNumber.word?_integer (n : UInt32) :
    (JsonNumber.integer n.toNat).word? = some n := by
  have hlt : ((n.toNat : Nat) : Int) < Nat.pow 2 32 := by exact_mod_cast n.toNat_lt
  rw [word?, if_pos ⟨Int.natCast_nonneg _, hlt⟩, Int.toNat_natCast, UInt32.ofNat_toNat]

/-- JSON values may be taken for what they are. -/
theorem Json.faithful : Faithful (σ := Json) Eq fun _ => True where
  text h := by rw [h]; rfl
  flag h := by rw [h]; rfl
  word {s n} h := by
    rw [h]
    exact JsonNumber.word?_integer n
  optional_null h := by rw [h]; rfl
  optional {s v} h hne := by
    subst h
    cases s with
    | null => exact absurd rfl hne
    | _ => rfl
  items h := by
    subst h
    exact ⟨_, rfl, List.forall₂_same.2 fun _ _ => rfl⟩
  record h := by
    subst h
    exact ⟨_, rfl, List.forall₂_same.2 fun _ _ => ⟨rfl, rfl⟩⟩
  choice h := by rw [h]; rfl
  value h _ := congrArg some h

/-! ## Texts -/

/-- The fields of all objects are in ascending order of their keys, each key once. -/
inductive Json.Ordered : Json → Prop
  | null : Ordered .null
  | bool (b : Bool) : Ordered (.bool b)
  | number (n : JsonNumber) : Ordered (.number n)
  | string (s : String) : Ordered (.string s)
  | array {items : List Json} (h : ∀ x ∈ items, Ordered x) : Ordered (.array items)
  | object {fields : List (String × Json)} (hkeys : Ascending fields)
    (h : ∀ f ∈ fields, Ordered f.2) : Ordered (.object fields)

namespace JsonSyntax

/-- The trees of a list denote the items that they say. -/
theorem itemValues?_of_says {room : Nat} {trees : List JsonSyntax} {items : List Json}
    (h : List.Forall₂ Says trees items)
    (hvalue : ∀ x ∈ items, ∀ t : JsonSyntax, t.Says x → t.value? room = some x) :
    itemValues? room trees = some items := by
  induction h with
  | nil => rfl
  | @cons t x trees items ht _ ih =>
    rw [itemValues?, hvalue x List.mem_cons_self t ht,
      ih fun y hy => hvalue y (List.mem_cons_of_mem x hy)]
    rfl

theorem fieldValues?_of_says {room : Nat} {trees : List (Option String × JsonSyntax)}
    {fields : List (String × Json)} (hkeys : trees.map (·.1) = fields.map (some ·.1))
    (h : List.Forall₂ Says (trees.map (·.2)) (fields.map (·.2)))
    (hvalue : ∀ f ∈ fields, ∀ t : JsonSyntax, t.Says f.2 → t.value? room = some f.2) :
    fieldValues? room trees = some fields := by
  induction fields generalizing trees with
  | nil =>
    obtain rfl : trees = [] := List.map_eq_nil_iff.1 hkeys
    rfl
  | cons f fields ih =>
    obtain ⟨⟨k, t⟩, trees, rfl, hk, hrest⟩ := List.map_eq_cons_iff.1 hkeys
    obtain rfl : k = some f.1 := hk
    obtain ⟨ht, h⟩ := List.forall₂_cons.1 h
    rw [fieldValues?, hvalue f List.mem_cons_self t ht,
      ih hrest h fun g hg => hvalue g (List.mem_cons_of_mem f hg)]
    rfl

theorem value?_of_says {room : Nat} {v : Json} (hplain : v.Plain room) (hordered : v.Ordered)
    {t : JsonSyntax} (h : t.Says v) : t.value? room = some v := by
  -- The room that is left is an index of plainness, so it goes down with each constructor.
  induction hplain generalizing t with
  | null => cases h; rfl
  | bool b => cases h; rfl
  | integer hn =>
    cases h with
    | number h => rw [value?, h]; rfl
  | string s => cases h; rfl
  | array hplain ih =>
    cases h with
    | array h =>
      cases hordered with
      | array hordered =>
        have hitems := itemValues?_of_says h fun x hx t ht => ih x hx (hordered x hx) ht
        rw [value?, hitems]
        rfl
  | object hplain ih =>
    cases h with
    | object hkeys h =>
      cases hordered with
      | object hascending hordered =>
        have hfields := fieldValues?_of_says hkeys h fun f hf t ht => ih f hf (hordered f hf) ht
        -- Fields are sorted when they are read, so they must have been in order before.
        rw [value?, hfields, Option.map_some, sortFields_of_ascending hascending]

end JsonSyntax

namespace JsonText

/-- The tree says the value, which does not nest deeper than is left. -/
def Shows (t : JsonText) (v : Json) : Prop := t.tree.Says v ∧ v.Plain t.room

theorem fields?_cons (k : String) (t : JsonSyntax) (trees : List (Option String × JsonSyntax))
    (room : Nat) : fields? ⟨.object ((some k, t) :: trees), room + 1⟩ =
      (fields? ⟨.object trees, room + 1⟩).map ((k, ⟨t, room⟩) :: ·) := by
  simp only [fields?, List.mapM_cons, Option.map_eq_bind]
  rfl

/-- The fields of an object that a piece of a text shows. -/
theorem exists_fields? {t : JsonText} {fields : List (String × Json)}
    (h : t.Shows (.object fields)) :
    ∃ fs, t.fields? = some fs ∧ List.Forall₂ (fun f g => f.1 = g.1 ∧ f.2.Shows g.2) fs fields := by
  obtain ⟨tree, room⟩ := t
  obtain ⟨hsaid, hplain⟩ := h
  cases hsaid with
  | @object trees _ hkeys hsaid =>
    cases hplain with
    | @object room _ hplain =>
      induction fields generalizing trees with
      | nil =>
        obtain rfl : trees = [] := List.map_eq_nil_iff.1 hkeys
        exact ⟨[], rfl, .nil⟩
      | cons f fields ih =>
        obtain ⟨⟨k, t⟩, trees, rfl, hk, hrest⟩ := List.map_eq_cons_iff.1 hkeys
        obtain rfl : k = some f.1 := hk
        obtain ⟨ht, hsaid⟩ := List.forall₂_cons.1 hsaid
        obtain ⟨fs, hfs, hall⟩ := ih hrest hsaid fun g hg => hplain g (List.mem_cons_of_mem f hg)
        refine ⟨(f.1, ⟨t, room⟩) :: fs, ?_, .cons ⟨rfl, ht, hplain f List.mem_cons_self⟩ hall⟩
        rw [fields?_cons, hfs, Option.map_some]

/-- Pieces of texts may be taken for the values that they show. -/
theorem faithful : Faithful Shows Json.Ordered where
  text {t _} h := by
    obtain ⟨tree, room⟩ := t
    cases h.1
    rfl
  flag {t _} h := by
    obtain ⟨tree, room⟩ := t
    cases h.1
    rfl
  word {t n} h := by
    obtain ⟨tree, room⟩ := t
    cases h.1 with
    | number h =>
      simp only [DataSource.word]
      rw [h, Option.bind_some, JsonNumber.word?_integer]
      rfl
  optional_null {t} h := by
    obtain ⟨tree, room⟩ := t
    cases h.1
    rfl
  optional {t v} h hne := by
    obtain ⟨tree, room⟩ := t
    cases h.1 with
    | null => exact absurd rfl hne
    | _ => rfl
  items {t items} h := by
    obtain ⟨tree, room⟩ := t
    obtain ⟨hsaid, hplain⟩ := h
    cases hsaid with
    | @array trees _ hsaid =>
      cases hplain with
      | @array room _ hplain =>
        -- The items are one level deeper, in their order.
        refine ⟨_, rfl, List.forall₂_map_left_iff.2 ?_⟩
        induction hsaid with
        | nil => exact .nil
        | @cons t x trees items ht _ ih =>
          refine .cons ⟨ht, hplain x List.mem_cons_self⟩ (ih fun y hy => ?_)
          exact hplain y (List.mem_cons_of_mem x hy)
  record {t fields} h := by
    obtain ⟨fs, hfs, hall⟩ := exists_fields? h
    refine ⟨fs, ?_, hall⟩
    obtain ⟨tree, room⟩ := t
    cases h.1
    simp [DataSource.record, items?, hfs]
  choice {t _} h := by
    obtain ⟨tree, room⟩ := t
    cases h.1
    rfl
  value h hordered := JsonSyntax.value?_of_says h.2 hordered h.1

end JsonText

section Texts

variable {α : Type} {read : JsonText → Option α} {v : Json} {a : α}

/-- What is read of a value is read of the texts that are written for it. -/
theorem readJsonText?_layout (hread : Recovers JsonText.Shows read v a)
    (hplain : v.Plain JsonSyntax.maxDepth) (l : Layout) :
    readJsonText? read (String.ofList (l.chars 0 v)) = some a := by
  obtain ⟨t, ht, hsaid⟩ := l.ofText?_chars hplain
  rw [readJsonText?, ht, Option.bind_some]
  exact hread _ ⟨hsaid, hplain⟩

theorem readJsonText?_compact (hread : Recovers JsonText.Shows read v a)
    (hplain : v.Plain JsonSyntax.maxDepth) : readJsonText? read v.compact = some a := by
  have h := readJsonText?_layout hread hplain .compact
  rwa [Layout.chars_compact] at h

theorem readJsonText?_pretty (hread : Recovers JsonText.Shows read v a)
    (hplain : v.Plain JsonSyntax.maxDepth) : readJsonText? read v.pretty = some a := by
  have h := readJsonText?_layout hread hplain .pretty
  rwa [Layout.chars_pretty] at h

end Texts

end ComponentViews
