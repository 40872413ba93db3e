import ComponentViews.Data.Source
import ComponentViews.Json.Syntax

/-!
# JSON as a source of data

Both JSON values and JSON texts can be read as domain types. In either, a structure may be written
as the list of its fields, and an alternative as an object with that one field. In a text a key may
be repeated, lists and objects nest only to a limit, and parts that denote nothing are mistakes
wherever something is read from them.

## Main definitions

* `JsonText`: a piece of a JSON text that is being read.
* `readJsonText?`: read a whole text.
-/

namespace ComponentViews

/-- An integer of 32 bits without a sign. -/
def JsonNumber.word? : JsonNumber → Option UInt32
  | .integer n => if 0 ≤ n ∧ n < Nat.pow 2 32 then some (UInt32.ofNat n.toNat) else none
  | .real _ => none

instance : DataSource Json Option where
  text
    | .string s => some s
    | _ => none
  flag
    | .bool b => some b
    | _ => none
  word
    | .number n => n.word?
    | _ => none
  optional
    | .null => some none
    | v => some (some v)
  items
    | .array xs => some xs
    | _ => none
  record
    | .object fs => some (.named fs)
    | .array xs => some (.positional xs true)
    | _ => none
  entries
    | .object fs => some fs
    | _ => none
  choice
    | .string s => some s
    | .object [(k, .null)] => some k
    | _ => none
  value := some

/-- A piece of a JSON text, and how deep lists and objects may nest in it. -/
structure JsonText where
  /-- What the text says. -/
  tree : JsonSyntax
  /-- The depth left. -/
  room : Nat

namespace JsonText

/-- The fields of an object, if all keys denote strings. -/
def fields? (t : JsonText) : Option (List (String × JsonText)) :=
  match t.tree, t.room with
  | .object fs, room + 1 => fs.mapM fun (k, x) => k.map fun k => (k, ⟨x, room⟩)
  | _, _ => none

/-- The items of a list. -/
def items? (t : JsonText) : Option (List JsonText) :=
  match t.tree, t.room with
  | .array xs, room + 1 => some (xs.map fun x => ⟨x, room⟩)
  | _, _ => none

end JsonText

instance : DataSource JsonText Option where
  text t :=
    match t.tree with
    | .string s => s
    | _ => none
  flag t :=
    match t.tree with
    | .bool b => some b
    | _ => none
  word t :=
    match t.tree with
    | .number n => n.value?.bind JsonNumber.word?
    | _ => none
  optional t :=
    match t.tree with
    | .null => some none
    | _ => some (some t)
  items := JsonText.items?
  record t :=
    match t.items? with
    | some xs => some (.positional xs true)
    | none => t.fields?.map .named
  entries := JsonText.fields?
  choice t :=
    match t.tree, t.room with
    | .string s, _ => s
    | .object [(k, .null)], _ + 1 => k
    | _, _ => none
  value t := t.tree.value? t.room

/-- Read a whole JSON text as a domain type. -/
def readJsonText? {α : Type} (read : JsonText → Option α) (s : String) : Option α :=
  (JsonSyntax.ofText? s).bind fun tree => read ⟨tree, JsonSyntax.maxDepth⟩

end ComponentViews
