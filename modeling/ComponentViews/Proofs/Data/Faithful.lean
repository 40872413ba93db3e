import ComponentViews.Graph.Document
import ComponentViews.Proofs.Fields
import Mathlib.Data.List.Forall2

/-!
# Data that shows JSON values

The readers of the domain types do not know the notation of what they read. If a notation can show
JSON values, so that each kind of value may be taken for what it is, then a reader reads the same
thing from all data that shows one value. So what a reader makes of a written value is found out
once for all notations.

## Main definitions

* `Recovers`: a reader reads one thing from all data that shows a value.
* `Fields.Reflect`: the fields of a structure show those of an object.
* `Faithful`: data of a notation shows values, and may be taken for them.

## Main results

* `Faithful.recovers_list`: lists are read if their items are.
* `Faithful.exists_readFields`: the fields of objects are found.
* `Fields.Reflect.required`, `Fields.Reflect.listField`, `Fields.Reflect.optionField`, …: one field
  is read.
-/

namespace ComponentViews

variable {σ α β : Type} {m : Type → Type} [Monad m] {Shows : σ → Json → Prop}

/-- A reader reads one thing from all data that shows a value. -/
def Recovers (Shows : σ → Json → Prop) (read : σ → m α) (v : Json) (a : α) : Prop :=
  ∀ s, Shows s v → read s = pure a

/-- The fields found show the first value with each name. -/
def Fields.Reflect (Shows : σ → Json → Prop) (f : Fields σ) (fields : List (String × Json)) : Prop :=
  ∀ name, Option.Rel Shows (f.find? name) (valueOf? fields name)

section Found

variable {f : Fields σ} {fields : List (String × Json)} {name k : String} {read : σ → m α} {v : Json}
  {a : α}

/-! ## Fields that are found -/

namespace Fields.Reflect

theorem exists_find? (h : f.Reflect Shows fields) (hv : valueOf? fields name = some v) :
    ∃ s, f.find? name = some s ∧ Shows s v := by
  have hrel := h name
  rw [hv] at hrel
  cases hfind : f.find? name with
  | none => rw [hfind] at hrel; cases hrel
  | some s =>
    rw [hfind] at hrel
    cases hrel with
    | some hs => exact ⟨s, rfl, hs⟩

theorem find?_eq_none (h : f.Reflect Shows fields) (hv : valueOf? fields name = none) :
    f.find? name = none := by
  have hrel := h name
  rw [hv] at hrel
  cases hfind : f.find? name with
  | none => rfl
  | some s => rw [hfind] at hrel; cases hrel

theorem required [MonadExceptOf Unit m] (h : f.Reflect Shows fields)
    (hv : valueOf? fields name = some v) (hread : Recovers Shows read v a) :
    f.required name read = pure a := by
  obtain ⟨s, hfind, hs⟩ := h.exists_find? hv
  rw [Fields.required, hfind]
  exact hread s hs

/-- A field with a default is read where it is written. -/
theorem withDefault_of_some (h : f.Reflect Shows fields) (hv : valueOf? fields name = some v)
    (hread : Recovers Shows read v a) (default : α) :
    f.withDefault name default read = pure a := by
  obtain ⟨s, hfind, hs⟩ := h.exists_find? hv
  rw [Fields.withDefault, hfind]
  exact hread s hs

theorem withDefault_of_none (h : f.Reflect Shows fields) (hv : valueOf? fields name = none)
    (default : α) : f.withDefault name default read = pure default := by
  rw [Fields.withDefault, h.find?_eq_none hv]

end Fields.Reflect

/-! ## Fields that are left out -/

@[simp] theorem valueOf?_optionField (write : α → Json) (o : Option α) :
    valueOf? (optionField name write o) k = if name = k then o.map write else none := by
  cases o <;> simp [optionField, valueOf?]

@[simp] theorem valueOf?_listField (write : α → Json) (xs : List α) :
    valueOf? (listField name write xs) k =
      if name = k then if xs = [] then none else some (.array (xs.map write)) else none := by
  cases xs <;> simp [listField, valueOf?]

theorem forall_mem_optionField {P : Json → Prop} {write : α → Json} {o : Option α} :
    (∀ f ∈ optionField name write o, P f.2) ↔ ∀ a ∈ o, P (write a) := by
  cases o <;> simp [optionField]

theorem forall_mem_listField {P : Json → Prop} {write : α → Json} {xs : List α} :
    (∀ f ∈ listField name write xs, P f.2) ↔ (xs ≠ [] → P (.array (xs.map write))) := by
  cases xs <;> simp [listField]

theorem keys_optionField_sublist (write : α → Json) (o : Option α) :
    ((optionField name write o).map (·.1)).Sublist [name] := by
  cases o with
  | none => exact List.nil_sublist _
  | some a => exact .refl _

theorem keys_listField_sublist (write : α → Json) (xs : List α) :
    ((listField name write xs).map (·.1)).Sublist [name] := by
  cases xs with
  | nil => exact List.nil_sublist _
  | cons x xs => exact .refl _

end Found

/-! ## Faithful data -/

variable [DataSource σ m] {Legible : Json → Prop}

/-- Data shows values of each kind and may be taken for them. Legible values may also be taken as
values of any kind. -/
structure Faithful (Shows : σ → Json → Prop) (Legible : Json → Prop) : Prop where
  text {s : σ} {t : String} : Shows s (.string t) → DataSource.text s = pure t
  flag {s : σ} {b : Bool} : Shows s (.bool b) → DataSource.flag s = pure b
  word {s : σ} {n : UInt32} : Shows s (.int n.toNat) → DataSource.word s = pure n
  optional_null {s : σ} : Shows s .null → DataSource.optional s = pure none
  optional {s : σ} {v : Json} : Shows s v → v ≠ .null → DataSource.optional s = pure (some s)
  items {s : σ} {vs : List Json} : Shows s (.array vs) →
    ∃ xs, DataSource.items s = pure xs ∧ List.Forall₂ Shows xs vs
  record {s : σ} {fields : List (String × Json)} : Shows s (.object fields) →
    ∃ fs, DataSource.record s = pure (.named fs) ∧
      List.Forall₂ (fun f g => f.1 = g.1 ∧ Shows f.2 g.2) fs fields
  choice {s : σ} {t : String} : Shows s (.string t) → DataSource.choice s = pure t
  value {s : σ} {v : Json} : Shows s v → Legible v → DataSource.value s = pure v

namespace Faithful

theorem recovers_text (hf : Faithful Shows Legible) (t : String) :
    Recovers Shows DataSource.text (.string t) t :=
  fun _ hs => hf.text hs

variable [LawfulMonad m]

/-- A list of written things is read if each of them is. -/
theorem recovers_list (hf : Faithful Shows Legible) {read : σ → m α} {write : β → Json}
    {result : β → α} {xs : List β}
    (h : ∀ x ∈ xs, Recovers Shows read (write x) (result x)) :
    Recovers Shows (readList read) (.array (xs.map write)) (xs.map result) := by
  intro s hs
  obtain ⟨pieces, hitems, hall⟩ := hf.items hs
  have hread : pieces.mapM read = pure (xs.map result) := by
    -- The pieces are no longer those of `s` once the first is taken off.
    clear hitems hs
    induction xs generalizing pieces with
    | nil =>
      cases hall
      rfl
    | cons x xs ih =>
      obtain ⟨piece, rest, hpiece, hrest, rfl⟩ := List.forall₂_cons_right_iff.1 hall
      have hx := h x List.mem_cons_self piece hpiece
      have hxs := ih (fun y hy => h y (List.mem_cons_of_mem x hy)) rest hrest
      simp [List.mapM_cons, hx, hxs]
  rw [readList, hitems, pure_bind]
  exact hread

/-- A list of things that are read as they are is read as it is. -/
theorem recovers_list_self (hf : Faithful Shows Legible) {read : σ → m α} {write : α → Json}
    {xs : List α} (h : ∀ x ∈ xs, Recovers Shows read (write x) x) :
    Recovers Shows (readList read) (.array (xs.map write)) xs := by
  have hlist : Recovers Shows (readList read) (.array (xs.map write)) (xs.map id) :=
    hf.recovers_list h
  rwa [List.map_id] at hlist

theorem recovers_strings (hf : Faithful Shows Legible) (xs : List String) :
    Recovers Shows (readList DataSource.text) (.strings xs) xs :=
  hf.recovers_list_self fun t _ => hf.recovers_text t

/-- The fields of an object are found, if their names are some of those that are looked for. -/
theorem exists_readFields [MonadExceptOf Unit m] (hf : Faithful Shows Legible) (names : List String)
    {fields : List (String × Json)} (hsublist : (fields.map (·.1)).Sublist names)
    (hnodup : names.Nodup) {s : σ} (hs : Shows s (.object fields)) :
    ∃ f : Fields σ, readFields names s = pure f ∧ f.Reflect Shows fields := by
  obtain ⟨fs, hrecord, hall⟩ := hf.record hs
  have hkeys : fs.map (·.1) = fields.map (·.1) := by
    clear hrecord hsublist hs
    induction hall with
    | nil => rfl
    | cons h _ ih => rw [List.map_cons, List.map_cons, h.1, ih]
  -- All names are known and distinct, so no field is passed over and none is refused.
  have hknown : (fs.filter fun f => names.contains f.1) = fs := by
    refine List.filter_eq_self.2 fun f hmem => ?_
    have hkey : f.1 ∈ fields.map (·.1) := hkeys ▸ List.mem_map_of_mem hmem
    exact List.contains_iff_mem.2 (hsublist.subset hkey)
  refine ⟨⟨fs, false⟩, ?_, fun name => ?_⟩
  · simp only [readFields, hrecord, pure_bind, hknown]
    rw [if_pos (hkeys ▸ hnodup.sublist hsublist)]
  · change Option.Rel Shows (valueOf? fs name) (valueOf? fields name)
    clear hrecord hsublist hs hkeys hknown
    induction hall with
    | nil => exact .none
    | cons h _ ih =>
      obtain ⟨hkey, hshow⟩ := h
      rw [valueOf?_cons, valueOf?_cons, hkey]
      split
      · exact .some hshow
      · exact ih

end Faithful

/-! ## Fields that may have been left out -/

namespace Fields.Reflect

variable [LawfulMonad m] {f : Fields σ} {fields : List (String × Json)} {name : String} {read : σ → m α}

/-- A list that is left out if it is empty is read. -/
theorem listField (hf : Faithful Shows Legible) (h : f.Reflect Shows fields) {write : α → Json}
    {xs : List α}
    (hv : valueOf? fields name = if xs = [] then none else some (.array (xs.map write)))
    (hread : ∀ x ∈ xs, Recovers Shows read (write x) x) :
    f.withDefault name [] (readList read) = pure xs := by
  split at hv
  · rename_i hnil
    rw [h.withDefault_of_none hv, hnil]
  · exact h.withDefault_of_some hv (hf.recovers_list_self hread) []

/-- An optional value that is left out if it is absent is read. -/
theorem optionField (hf : Faithful Shows Legible) (h : f.Reflect Shows fields) {write : α → Json}
    {o : Option α} (hv : valueOf? fields name = o.map write)
    (hread : ∀ a ∈ o, write a ≠ .null ∧ Recovers Shows read (write a) a) :
    f.option name read = pure o := by
  cases o with
  | none =>
    rw [Fields.option, h.find?_eq_none hv]
  | some a =>
    obtain ⟨hne, ha⟩ := hread a rfl
    obtain ⟨s, hfind, hs⟩ := h.exists_find? hv
    rw [Fields.option, hfind]
    simp [hf.optional hs hne, ha s hs]

/-- A value that is written as the null value is read as none. -/
theorem option_of_null (hf : Faithful Shows Legible) (h : f.Reflect Shows fields)
    (hv : valueOf? fields name = some .null) : f.option name read = pure none := by
  obtain ⟨s, hfind, hs⟩ := h.exists_find? hv
  rw [Fields.option, hfind]
  simp [hf.optional_null hs]

end Fields.Reflect

end ComponentViews
