import ComponentViews.Json.Basic

/-!
# Sources of data

Documents, options and views are written in several notations. A notation says what one piece of
data may be taken for; the readers of the domain types are written once for all notations.

A reading succeeds, or fails without a reason, in an effect of the notation's choice.

## Main definitions

* `DataSource`: what a piece of data may be taken for.
* `readList`, `readEntries`: lists, and things by their keys.
* `Fields`: the fields of a structure, found by name or by position.
* `Fields.required`, `Fields.withDefault`, `Fields.option`, `Fields.optionByName`: one field.
-/

namespace ComponentViews

/-- A structure as written: its fields with their names, or all of them in order. -/
inductive Record (σ : Type) where
  /-- Fields with their names, in the order of the text. -/
  | named (fields : List (String × σ))
  /-- Values of the fields in the order of their declaration; `exact` forbids more values than
  there are fields. -/
  | positional (values : List σ) (exact : Bool)

/-- Pieces of data of one notation, and what each may be taken for. -/
class DataSource (σ : Type) (m : outParam (Type → Type)) where
  /-- A string. -/
  text : σ → m String
  /-- A truth value. -/
  flag : σ → m Bool
  /-- An unsigned integer of 32 bits. -/
  word : σ → m UInt32
  /-- The piece where a value is optional, unless it stands for no value. -/
  optional : σ → m (Option σ)
  /-- A list. -/
  items : σ → m (List σ)
  /-- A structure. -/
  record : σ → m (Record σ)
  /-- Values with keys that are not known beforehand. -/
  entries : σ → m (List (String × σ))
  /-- The name of one of several alternatives. -/
  choice : σ → m String
  /-- A value of any kind. -/
  value : σ → m Json

/-- The fields of a structure that a piece of data has. -/
structure Fields (σ : Type) where
  /-- The known fields with their names, each at most once. -/
  found : List (String × σ)
  /-- Whether they were found by position. -/
  positional : Bool

/-- The piece of data of a field. -/
def Fields.find? {σ : Type} (f : Fields σ) (name : String) : Option σ :=
  (f.found.find? fun e => e.1 = name).map (·.2)

section Readers

variable {σ α : Type} {m : Type → Type} [Monad m] [MonadExceptOf Unit m] [DataSource σ m]

/-- A list of things. -/
def readList (read : σ → m α) (s : σ) : m (List α) := do
  let xs ← DataSource.items s
  xs.mapM read

/-- Things by their keys, in ascending order of the keys; of several with one key the last is
kept. -/
def readEntries (read : σ → m α) (s : σ) : m (List (String × α)) := do
  let fields ← DataSource.entries s
  let things ← fields.mapM fun (k, x) => do
    let a ← read x
    pure (k, a)
  pure (sortFields things)

/-- The fields with the given names, in the order of their declaration. A known name that is
repeated and a position beyond the last field are mistakes; unknown names are ignored. -/
def readFields (names : List String) (s : σ) : m (Fields σ) := do
  match ← DataSource.record s with
  | .named fields =>
    let known := fields.filter fun f => names.contains f.1
    if (known.map (·.1)).Nodup then pure ⟨known, false⟩ else throw ()
  | .positional values exact =>
    if exact ∧ names.length < values.length then throw () else pure ⟨names.zip values, true⟩

namespace Fields

/-- A field that must be there. -/
def required (f : Fields σ) (name : String) (read : σ → m α) : m α :=
  match f.find? name with
  | some s => read s
  | none => throw ()

/-- A field that has a default. -/
def withDefault (f : Fields σ) (name : String) (default : α) (read : σ → m α) : m α :=
  match f.find? name with
  | some s => read s
  | none => pure default

/-- An optional field, which may also be written as no value. -/
def option (f : Fields σ) (name : String) (read : σ → m α) : m (Option α) :=
  match f.find? name with
  | some s => do
    match ← DataSource.optional s with
    | some s => do
      let a ← read s
      pure (some a)
    | none => pure none
  | none => pure none

/-- An optional field that has to be written, if only as no value, where fields are found by
position. -/
def optionByName (f : Fields σ) (name : String) (read : σ → m α) : m (Option α) :=
  if f.positional ∧ (f.find? name).isNone then throw () else f.option name read

end Fields

end Readers

end ComponentViews
