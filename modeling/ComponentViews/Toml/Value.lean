import ComponentViews.Number.Binary64

/-!
# Values of TOML

A table remembers how it was written, since this decides whether it can be extended: a table with a
header of its own cannot have another one, a table that was only part of the path of a header can
still get its own, and a table within braces is complete.

## Main definitions

* `TomlValue`: the values.
* `Fields.alter?`: change the table at the end of a path.
* `Fields.define?`, `Fields.extend?`, `Fields.insert?`: headers and fields.
-/

namespace ComponentViews.Toml

/-- How a table was written. -/
inductive TableOrigin where
  /-- With a header of its own, or as the whole document. -/
  | header
  /-- As part of the path of a header. -/
  | implied
  /-- As part of the path of a key. -/
  | dotted
  /-- Within braces. -/
  | braces
  deriving DecidableEq, Repr

/-- How an array was written. -/
inductive ArrayOrigin where
  /-- Within brackets. -/
  | brackets
  /-- With a header for each element. -/
  | headers
  deriving DecidableEq, Repr

/-- A value. -/
inductive TomlValue where
  /-- A string. -/
  | string (s : String)
  /-- An integer. -/
  | integer (n : Int)
  /-- A finite floating-point number. -/
  | real (x : Binary64)
  /-- Infinity, or what is not a number. -/
  | nonFinite
  /-- A truth value. -/
  | bool (b : Bool)
  /-- A date, a time, or both, in canonical form. -/
  | time (text : String)
  /-- An array. -/
  | array (origin : ArrayOrigin) (items : List TomlValue)
  /-- A table. -/
  | table (origin : TableOrigin) (fields : List (String × TomlValue))
  deriving Repr

/-- The fields of a table, in the order of the text. -/
abbrev Fields := List (String × TomlValue)

namespace Fields

/-- Replace the value of a field. -/
def set (key : String) (value : TomlValue) : Fields → Fields
  | [] => []
  | (k, v) :: rest => if k = key then (k, value) :: rest else (k, v) :: set key value rest

/-- Change the last element of an array. -/
def alterLast? (change : TomlValue → Option TomlValue) : List TomlValue → Option (List TomlValue)
  | [] => none
  | [x] => (change x).map fun y => [y]
  | x :: xs => (alterLast? change xs).map fun ys => x :: ys

/-- Whether the path of a key or of a header may lead through a table. -/
def isOpen (ofKey : Bool) : TableOrigin → Bool
  | .header => !ofKey
  | .implied | .dotted => true
  | .braces => false

/-- Change the table at the end of a path from a table of a given origin. Tables that are missing
are added; of an array with headers, the path leads through the last element. -/
def alter? (ofKey : Bool) (change : TableOrigin → Fields → Option Fields) :
    List String → TableOrigin → Fields → Option Fields
  | [], origin, fields => change origin fields
  | k :: path, _, fields =>
    match fields.lookup k with
    | none => do
      let origin := if ofKey then TableOrigin.dotted else .implied
      let inner ← alter? ofKey change path origin []
      pure (fields ++ [(k, .table origin inner)])
    | some (.table origin inner) =>
      if isOpen ofKey origin then do
        let inner ← alter? ofKey change path origin inner
        pure (set k (.table origin inner) fields)
      else none
    -- An array with headers stands for its last element here.
    | some (.array .headers items) => do
      let items ← alterLast? (fun
        | .table origin inner => (alter? ofKey change path origin inner).map (.table origin)
        | _ => none) items
      pure (set k (.array .headers items) fields)
    | _ => none

/-- Add a table with a header. -/
def define? (key : String) (fields : Fields) : Option Fields :=
  match fields.lookup key with
  | none => some (fields ++ [(key, .table .header [])])
  | some (.table .implied inner) => some (set key (.table .header inner) fields)
  | _ => none

/-- Add an element to an array with headers. -/
def extend? (key : String) (fields : Fields) : Option Fields :=
  match fields.lookup key with
  | none => some (fields ++ [(key, .array .headers [.table .header []])])
  | some (.array .headers items) =>
    some (set key (.array .headers (items ++ [.table .header []])) fields)
  | _ => none

/-- Add a field. Only a table that is part of the path of a key can be extended by a path. -/
def insert? (path : List String) (key : String) (value : TomlValue) (origin : TableOrigin)
    (fields : Fields) : Option Fields :=
  if (origin == .dotted) == path.isEmpty then none
  else if (fields.lookup key).isSome then none
  else some (fields ++ [(key, value)])

/-- Add a field whose key is the last part of a path, in a table of a given origin. -/
def insertAt? (path : List String) (key : String) (value : TomlValue) (origin : TableOrigin)
    (fields : Fields) : Option Fields :=
  fields.alter? true (insert? path key value) path origin

end Fields

end ComponentViews.Toml
