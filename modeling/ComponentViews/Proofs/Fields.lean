import ComponentViews.Customization
import Mathlib.Data.List.Induction
import Mathlib.Tactic.ByContra

/-!
# Fields in the order of their keys

Fields that are inserted one after the other stand in ascending order of their keys, each key once,
and a key leads to the value inserted last under it.

## Main definitions

* `Ascending`: fields in ascending order of their keys, each key once.

## Main results

* `ascending_sortFields`: fields that have been sorted are in order.
* `valueOf?_sortFields`: of fields with one key the last counts.
* `mem_keys_sortFields`: no key is lost.
-/

namespace ComponentViews

variable {α : Type} {key k : String} {value : α} {f : String × α} {fields : List (String × α)}

/-- Fields are in ascending order of their keys, each key once. -/
def Ascending (fields : List (String × α)) : Prop :=
  fields.Pairwise fun f g => f.1 < g.1

@[simp] theorem valueOf?_nil (k : String) : valueOf? ([] : List (String × α)) k = none := rfl

theorem valueOf?_cons (f : String × α) (fields : List (String × α)) (k : String) :
    valueOf? (f :: fields) k = if f.1 = k then some f.2 else valueOf? fields k := by
  unfold valueOf?
  by_cases h : f.1 = k <;> simp [h]

theorem valueOf?_append (fields more : List (String × α)) (k : String) :
    valueOf? (fields ++ more) k = (valueOf? fields k).or (valueOf? more k) := by
  rw [valueOf?, List.find?_append, Option.map_or]
  rfl

theorem isSome_valueOf?_iff (fields : List (String × α)) (k : String) :
    (valueOf? fields k).isSome ↔ k ∈ fields.map (·.1) := by
  simp [valueOf?, List.find?_isSome]

theorem valueOf?_of_not_mem (h : k ∉ fields.map (·.1)) : valueOf? fields k = none :=
  Option.not_isSome_iff_eq_none.1 (mt (isSome_valueOf?_iff fields k).1 h)

/-- A field is found by its key if no other has that key. -/
theorem valueOf?_of_mem (hkeys : (fields.map (·.1)).Nodup) (hf : f ∈ fields) :
    valueOf? fields f.1 = some f.2 := by
  induction fields with
  | nil => cases hf
  | cons g fields ih =>
    obtain ⟨hg, hkeys⟩ := List.nodup_cons.1 hkeys
    rw [valueOf?_cons]
    rcases List.mem_cons.1 hf with rfl | hf
    · exact if_pos rfl
    · have hne : g.1 ≠ f.1 := fun heq => hg (List.mem_map.2 ⟨f, hf, heq.symm⟩)
      rw [if_neg hne, ih hkeys hf]

/-! ## One more field -/

theorem mem_insertField (h : f ∈ insertField key value fields) : f = (key, value) ∨ f ∈ fields := by
  induction fields with
  | nil => simpa [insertField] using h
  | cons g rest ih =>
    unfold insertField at h
    grind

/-- The value inserted last is found. -/
theorem valueOf?_insertField (key : String) (value : α) (fields : List (String × α)) (k : String) :
    valueOf? (insertField key value fields) k =
      if key = k then some value else valueOf? fields k := by
  induction fields with
  | nil => rw [insertField, valueOf?_cons]
  | cons g rest ih =>
    obtain ⟨k', v⟩ := g
    unfold insertField
    by_cases hlt : key < k'
    · rw [if_pos hlt, valueOf?_cons]
    · rw [if_neg hlt]
      by_cases he : key = k'
      · rw [if_pos he, valueOf?_cons, valueOf?_cons, ← he]
        by_cases hk : key = k <;> simp [hk]
      · rw [if_neg he, valueOf?_cons, valueOf?_cons, ih]
        by_cases hk : k' = k
        · have hne : key ≠ k := hk ▸ he
          rw [if_pos hk, if_neg hne, if_pos hk]
        · rw [if_neg hk, if_neg hk]

theorem ascending_insertField (h : Ascending fields) :
    Ascending (insertField key value fields) := by
  induction fields with
  | nil => exact List.pairwise_singleton _ _
  | cons g rest ih =>
    obtain ⟨k', v⟩ := g
    obtain ⟨hfirst, hrest⟩ := List.pairwise_cons.1 h
    unfold insertField
    by_cases hlt : key < k'
    · rw [if_pos hlt]
      refine List.pairwise_cons.2 ⟨fun x hx => ?_, h⟩
      rcases List.mem_cons.1 hx with rfl | hx
      · exact hlt
      · exact String.lt_trans hlt (hfirst x hx)
    · rw [if_neg hlt]
      by_cases he : key = k'
      · rw [if_pos he]
        exact List.pairwise_cons.2 ⟨fun x hx => he ▸ hfirst x hx, hrest⟩
      · rw [if_neg he]
        have hgt : k' < key := by
          -- The order is total, and the keys are distinct.
          by_contra hle
          exact he (String.le_antisymm (String.not_lt.1 hle) (String.not_lt.1 hlt))
        refine List.pairwise_cons.2 ⟨fun x hx => ?_, ih hrest⟩
        rcases mem_insertField hx with rfl | hx
        · exact hgt
        · exact hfirst x hx

/-- An insertion never leaves fewer fields. -/
theorem length_le_length_insertField (key : String) (value : α) (fields : List (String × α)) :
    fields.length ≤ (insertField key value fields).length := by
  induction fields with
  | nil => exact Nat.zero_le _
  | cons g rest ih =>
    unfold insertField
    split
    · simp
    · split
      · simp
      · simpa using ih

/-! ## Many fields -/

theorem sortFields_concat (fields : List (String × α)) (f : String × α) :
    sortFields (fields ++ [f]) = insertField f.1 f.2 (sortFields fields) := by
  rw [sortFields, List.foldl_append]
  rfl

theorem ascending_sortFields (fields : List (String × α)) : Ascending (sortFields fields) := by
  induction fields using List.reverseRecOn with
  | nil => exact List.Pairwise.nil
  | append_singleton fields f ih =>
    rw [sortFields_concat]
    exact ascending_insertField ih

/-- A key after all others goes to the end. -/
theorem insertField_of_lt (h : ∀ f ∈ fields, f.1 < key) :
    insertField key value fields = fields ++ [(key, value)] := by
  induction fields with
  | nil => rfl
  | cons g rest ih =>
    obtain ⟨k', v⟩ := g
    have hlt : k' < key := h (k', v) List.mem_cons_self
    unfold insertField
    rw [if_neg (String.lt_asymm hlt), if_neg (String.ne_of_lt hlt).symm,
      ih fun f hf => h f (List.mem_cons_of_mem _ hf), List.cons_append]

/-- Fields in order are left as they are. -/
theorem sortFields_of_ascending (h : Ascending fields) : sortFields fields = fields := by
  induction fields using List.reverseRecOn with
  | nil => rfl
  | append_singleton fields f ih =>
    obtain ⟨hfields, -, hlast⟩ := List.pairwise_append.1 h
    rw [sortFields_concat, ih hfields]
    exact insertField_of_lt fun g hg => hlast g hg f List.mem_cons_self

theorem mem_of_mem_sortFields (h : f ∈ sortFields fields) : f ∈ fields := by
  induction fields using List.reverseRecOn with
  | nil => cases h
  | append_singleton fields g ih =>
    rw [sortFields_concat] at h
    rcases mem_insertField h with rfl | h
    · exact List.mem_append_right fields List.mem_cons_self
    · exact List.mem_append_left _ (ih h)

/-- Of fields with one key the last counts. -/
theorem valueOf?_sortFields (fields : List (String × α)) (k : String) :
    valueOf? (sortFields fields) k = valueOf? fields.reverse k := by
  induction fields using List.reverseRecOn with
  | nil => rfl
  | append_singleton fields f ih =>
    rw [sortFields_concat, valueOf?_insertField, List.reverse_append, List.reverse_singleton,
      List.singleton_append, valueOf?_cons, ih]

theorem mem_keys_sortFields (fields : List (String × α)) (k : String) :
    k ∈ (sortFields fields).map (·.1) ↔ k ∈ fields.map (·.1) := by
  induction fields using List.reverseRecOn with
  | nil => rfl
  | append_singleton fields f ih =>
    rw [sortFields_concat, mem_keys_insertField, ih]
    simp [or_comm]

end ComponentViews
