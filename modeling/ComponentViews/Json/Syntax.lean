import ComponentViews.Json.Numeral
import ComponentViews.Text.Digits

/-!
# JSON texts

A text is read into a tree that keeps what the text says: the fields of an object in their order,
repeated keys included, and numerals as written. A string may hold halves of surrogate pairs that
do not belong together, and a numeral may be out of range. Such parts denote nothing, but they are
no mistake of the text: a reader that has no use for them passes over them.

## Main definitions

* `JsonSyntax`: the tree of a text.
* `JsonSyntax.ofText?`: the tree of a whole text.
* `JsonSyntax.value?`: the value that a tree denotes.
-/

namespace ComponentViews

/-- What a JSON text says. -/
inductive JsonSyntax where
  /-- The word for the null value. -/
  | null
  /-- A word for a truth value. -/
  | bool (b : Bool)
  /-- A numeral. -/
  | number (n : Numeral)
  /-- A string, if its escapes denote one. -/
  | string (s : Option String)
  /-- A list. -/
  | array (items : List JsonSyntax)
  /-- An object, with the strings before its values. -/
  | object (fields : List (Option String × JsonSyntax))
  deriving Repr, Inhabited

namespace JsonSyntax

/-! ## Strings -/

/-- A character of a quoted string, or half of one. -/
inductive TextUnit where
  /-- A character. -/
  | char (c : Char)
  /-- A surrogate code point. -/
  | surrogate (n : Nat)
  deriving DecidableEq, Repr

/-- The unit that a four-digit escape stands for. -/
def escapeUnit? (a b c d : Char) : Option TextUnit := do
  let n := 4096 * (← hexValue? a) + 256 * (← hexValue? b) + 16 * (← hexValue? c) + (← hexValue? d)
  some (if 0xD800 ≤ n ∧ n ≤ 0xDFFF then .surrogate n else .char (Char.ofNat n))

/-- The character that an escape of one letter stands for. -/
def escapeChar? : Char → Option Char
  | '"' => some '"'
  | '\\' => some '\\'
  | '/' => some '/'
  | 'b' => some '\x08'
  | 'f' => some '\x0c'
  | 'n' => some '\n'
  | 'r' => some '\r'
  | 't' => some '\t'
  | _ => none

/-- The units of a quoted string after its opening quotation mark, and the text after its closing
one. The units read so far are given in reverse. -/
def stringUnits? (seen : List TextUnit) : List Char → Option (List TextUnit × List Char)
  | [] => none
  | '"' :: rest => some (seen.reverse, rest)
  | '\\' :: 'u' :: a :: b :: c :: d :: rest =>
    match escapeUnit? a b c d with
    | some u => stringUnits? (u :: seen) rest
    | none => none
  | '\\' :: c :: rest =>
    match escapeChar? c with
    | some c => stringUnits? (.char c :: seen) rest
    | none => none
  -- Control characters have to be escaped, and a reversed solidus at the end escapes nothing.
  | c :: rest => if c.toNat < 0x20 ∨ c = '\\' then none else stringUnits? (.char c :: seen) rest

/-- The character whose surrogates are the two given. -/
def joinSurrogates? (high low : Nat) : Option Char :=
  if high < 0xDC00 ∧ 0xDC00 ≤ low then
    some (Char.ofNat (0x10000 + 1024 * (high - 0xD800) + (low - 0xDC00)))
  else none

/-- The characters that units denote, after those read so far, which are given in reverse. -/
def joinUnits? (seen : List Char) : List TextUnit → Option (List Char)
  | [] => some seen.reverse
  | .char c :: rest => joinUnits? (c :: seen) rest
  | .surrogate h :: .surrogate l :: rest =>
    match joinSurrogates? h l with
    | some c => joinUnits? (c :: seen) rest
    | none => none
  | .surrogate _ :: _ => none

/-- The quoted string after its opening quotation mark, if it denotes one, and the text after
it. -/
def readString? (cs : List Char) : Option (Option String × List Char) :=
  (stringUnits? [] cs).map fun (units, rest) => ((joinUnits? [] units).map String.ofList, rest)

/-! ## Values -/

/-- Whether a character separates the parts of a text and means nothing. -/
def isSpace (c : Char) : Bool :=
  c = ' ' || c = '\t' || c = '\n' || c = '\r'

/-- A text without the blanks at its start. -/
def skipSpace (cs : List Char) : List Char := cs.dropWhile isSpace

mutual

/-- The value at the start of a text, and the text after it. -/
def read? : Nat → List Char → Option (JsonSyntax × List Char)
  | 0, _ => none
  | fuel + 1, cs =>
    match skipSpace cs with
    | 'n' :: 'u' :: 'l' :: 'l' :: rest => some (.null, rest)
    | 't' :: 'r' :: 'u' :: 'e' :: rest => some (.bool true, rest)
    | 'f' :: 'a' :: 'l' :: 's' :: 'e' :: rest => some (.bool false, rest)
    | '"' :: rest =>
      match readString? rest with
      | some (s, rest) => some (.string s, rest)
      | none => none
    | '[' :: rest =>
      match skipSpace rest with
      | ']' :: rest => some (.array [], rest)
      -- A list that is not empty has no comma before its first item and none after its last.
      | rest => readItems? fuel [] rest
    | '\x7b' :: rest =>
      match skipSpace rest with
      | '\x7d' :: rest => some (.object [], rest)
      | rest => readFields? fuel [] rest
    | rest =>
      match Numeral.read? rest with
      | some (n, rest) => some (.number n, rest)
      | none => none

/-- The rest of a list from one of its items on; the items before are given in reverse. -/
def readItems? : Nat → List JsonSyntax → List Char → Option (JsonSyntax × List Char)
  | 0, _, _ => none
  | fuel + 1, seen, cs =>
    match read? fuel cs with
    | none => none
    | some (v, rest) =>
      match skipSpace rest with
      | ',' :: rest => readItems? fuel (v :: seen) rest
      | ']' :: rest => some (.array (v :: seen).reverse, rest)
      | _ => none

/-- The rest of an object from one of its keys on; the fields before are given in reverse. -/
def readFields? :
    Nat → List (Option String × JsonSyntax) → List Char → Option (JsonSyntax × List Char)
  | 0, _, _ => none
  | fuel + 1, seen, cs =>
    match skipSpace cs with
    | '"' :: rest =>
      match readString? rest with
      | none => none
      | some (key, rest) =>
        match skipSpace rest with
        | ':' :: rest =>
          match read? fuel rest with
          | none => none
          | some (v, rest) =>
            match skipSpace rest with
            | ',' :: rest => readFields? fuel ((key, v) :: seen) rest
            | '\x7d' :: rest => some (.object ((key, v) :: seen).reverse, rest)
            | _ => none
        | _ => none
    | _ => none

end

/-- The tree of a whole text. Every step of the reader takes a character or ends a value, so twice
the length of the text bounds the number of steps. -/
def ofText? (s : String) : Option JsonSyntax :=
  let cs := s.toList
  match read? (2 * cs.length + 2) cs with
  | some (v, rest) => if skipSpace rest = [] then some v else none
  | none => none

/-! ## Meaning -/

mutual

/-- The value that a tree denotes, if all its strings and numerals denote something and its lists
and objects nest at most as deep as given. -/
def value? (room : Nat) : JsonSyntax → Option Json
  | .null => some .null
  | .bool b => some (.bool b)
  | .number n => n.value?.map .number
  | .string s => s.map .string
  | .array items =>
    match room with
    | 0 => none
    | room + 1 => (itemValues? room items).map .array
  | .object fields =>
    match room with
    | 0 => none
    | room + 1 => (fieldValues? room fields).map fun fs => .object (sortFields fs)

/-- The values of the items of a list. -/
def itemValues? (room : Nat) : List JsonSyntax → Option (List Json)
  | [] => some []
  | x :: xs => do
    let v ← value? room x
    let vs ← itemValues? room xs
    some (v :: vs)

/-- The fields of an object with their values. -/
def fieldValues? (room : Nat) : List (Option String × JsonSyntax) → Option (List (String × Json))
  | [] => some []
  | (k, x) :: fs => do
    let k ← k
    let v ← value? room x
    let rest ← fieldValues? room fs
    some ((k, v) :: rest)

end

/-- How deep lists and objects may nest. -/
def maxDepth : Nat := 127

end JsonSyntax

/-- The value of a JSON text. -/
def Json.ofText? (s : String) : Option Json :=
  (JsonSyntax.ofText? s).bind (JsonSyntax.value? JsonSyntax.maxDepth)

end ComponentViews
