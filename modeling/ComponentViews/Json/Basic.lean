import ComponentViews.Number.Binary64

/-!
# JSON values

A JSON value keeps the fields of an object in the order in which it was built. Values that were
read from a text have their fields in ascending order of the keys, each key once.

## Main definitions

* `JsonNumber`, `Json`: numbers and values.
* `Json.field?`: the value of a field of an object.
* `insertField`, `sortFields`: fields in ascending order, of which the last with a key counts.
-/

namespace ComponentViews

/-- A number: an integer of at most 64 bits, or a floating-point number. -/
inductive JsonNumber where
  /-- An integer. -/
  | integer (n : Int)
  /-- A floating-point number. -/
  | real (x : Binary64)
  deriving DecidableEq, Repr

/-- A JSON value. -/
inductive Json where
  /-- The null value. -/
  | null
  /-- A truth value. -/
  | bool (b : Bool)
  /-- A number. -/
  | number (n : JsonNumber)
  /-- A string. -/
  | string (s : String)
  /-- A list of values. -/
  | array (items : List Json)
  /-- Values with names. -/
  | object (fields : List (String × Json))
  deriving Repr, Inhabited

namespace Json

/-- An integer as a value. -/
def int (n : Int) : Json := .number (.integer n)

/-- A list of strings as a value. -/
def strings (xs : List String) : Json := .array (xs.map .string)

/-- A string, or the null value in place of none. -/
def stringOrNull : Option String → Json
  | some s => .string s
  | none => .null

/-- The value of the first field with a name, if this is an object that has one. -/
def field? (name : String) : Json → Option Json
  | .object fields => (fields.find? fun f => f.1 = name).map (·.2)
  | _ => none

end Json

variable {α : Type}

/-- Fields in ascending order of their keys with one more field, which replaces one of the same
key. -/
def insertField (key : String) (value : α) : List (String × α) → List (String × α)
  | [] => [(key, value)]
  | (k, v) :: rest =>
    if key < k then (key, value) :: (k, v) :: rest
    else if key = k then (key, value) :: rest
    else (k, v) :: insertField key value rest

/-- Fields in ascending order of their keys; of several with one key the last is kept. -/
def sortFields (fields : List (String × α)) : List (String × α) :=
  fields.foldl (fun sorted f => insertField f.1 f.2 sorted) []

/-- The keys after an insertion are the keys before and the new one. -/
theorem mem_keys_insertField (key : String) (value : α) (fields : List (String × α)) (k : String) :
    k ∈ (insertField key value fields).map (·.1) ↔ k = key ∨ k ∈ fields.map (·.1) := by
  induction fields with
  | nil => simp [insertField]
  | cons f rest ih =>
    obtain ⟨k', v⟩ := f
    unfold insertField
    split
    · simp
    · split
      · rename_i h
        simp [h]
      · simp only [List.map_cons, List.mem_cons, ih]
        grind

end ComponentViews
