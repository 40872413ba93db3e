import ComponentViews.Data.Source
import ComponentViews.Toml.Syntax

/-!
# TOML as a source of data

TOML has no null value, so what is written is never absent. A structure may be written as the array
of its fields, of which further ones are ignored, and an alternative as a table with that one field
and nothing in it. A date or time counts as a table with one field.

## Main definitions

* `readTomlText?`: read a whole text.
-/

namespace ComponentViews

open Toml

namespace Toml

/-- The name of the only field of a date or time. -/
def timeField : String := "$__toml_private_datetime"

mutual

/-- A value as a JSON value. Numbers that are not finite become the null value. -/
def TomlValue.toJson : TomlValue → Json
  | .string s => .string s
  | .integer n => .int n
  | .real x => .number (.real x)
  | .nonFinite => .null
  | .bool b => .bool b
  | .time text => .object [(timeField, .string text)]
  | .array _ items => .array (jsonItems items)
  | .table _ fields => .object (sortFields (jsonFields fields))

/-- The items of an array as JSON values. -/
def jsonItems : List TomlValue → List Json
  | [] => []
  | x :: xs => x.toJson :: jsonItems xs

/-- The fields of a table as JSON values. -/
def jsonFields : List (String × TomlValue) → List (String × Json)
  | [] => []
  | (k, v) :: rest => (k, v.toJson) :: jsonFields rest

end

/-- The fields of a table. -/
def TomlValue.fields? : TomlValue → Option Fields
  | .table _ fields => some fields
  | .time text => some [(timeField, .string text)]
  | _ => none

/-- The name of an alternative. -/
def TomlValue.choice? : TomlValue → Option String
  | .string s => some s
  | .table _ [(k, .table _ [])] => some k
  | .table _ [(k, .array _ [])] => some k
  | _ => none

end Toml

instance : DataSource TomlValue Option where
  text
    | .string s => some s
    | _ => none
  flag
    | .bool b => some b
    | _ => none
  word
    | .integer n => if 0 ≤ n ∧ n < Nat.pow 2 32 then some (UInt32.ofNat n.toNat) else none
    | _ => none
  optional v := some (some v)
  items
    | .array _ items => some items
    | _ => none
  record
    | .array _ items => some (.positional items false)
    | v => v.fields?.map .named
  entries := TomlValue.fields?
  choice := TomlValue.choice?
  value v := some v.toJson

/-- Read a whole TOML text as a domain type. -/
def readTomlText? {α : Type} (read : TomlValue → Option α) (s : String) : Option α :=
  (parse? s).bind fun fields => read (.table .header fields)

end ComponentViews
