import ComponentViews.Proofs.Json.Scalars
import Mathlib.Data.List.Forall2

/-!
# Written JSON texts

What is written for a value without floating-point numbers is read as a tree that says this value,
both where it is written without blanks and where it is spread over lines. The two ways to write
differ in the blanks only, so both are cases of one layout.

## Main definitions

* `Json.Plain`: values without floating-point numbers that nest only to a depth.
* `JsonSyntax.Says`: a tree says a value.
* `Layout`, `Layout.chars`: where blanks stand, and the text of a value with these blanks.

## Main results

* `Layout.chars_compact`, `Layout.chars_pretty`: the two layouts that are in use.
* `Layout.reads_array`, `Layout.reads_object`: a list or an object is read if its parts are.
* `Layout.ofText?_chars`: written values are read.
-/

namespace ComponentViews

/-- Numbers are integers of at most 64 bits, and lists and objects nest at most as deep as given. -/
inductive Json.Plain : Nat → Json → Prop
  | null {room : Nat} : Plain room .null
  | bool {room : Nat} (b : Bool) : Plain room (.bool b)
  | integer {room : Nat} {n : Int} (h : IsInteger64 n) : Plain room (.number (.integer n))
  | string {room : Nat} (s : String) : Plain room (.string s)
  | array {room : Nat} {items : List Json} (h : ∀ x ∈ items, Plain room x) :
    Plain (room + 1) (.array items)
  | object {room : Nat} {fields : List (String × Json)} (h : ∀ f ∈ fields, Plain room f.2) :
    Plain (room + 1) (.object fields)

theorem Json.Plain.array_map {α : Type} {write : α → Json} {xs : List α} {room : Nat}
    (h : ∀ x ∈ xs, (write x).Plain room) : (Json.array (xs.map write)).Plain (room + 1) :=
  .array (List.forall_mem_map.2 h)

theorem Json.plain_strings (xs : List String) {room : Nat} : (Json.strings xs).Plain (room + 1) :=
  .array_map fun s _ => .string s

/-- A tree says a value: its numerals and strings denote those of the value, its fields are in the
same order. -/
inductive JsonSyntax.Says : JsonSyntax → Json → Prop
  | null : Says .null .null
  | bool (b : Bool) : Says (.bool b) (.bool b)
  | number {m : Numeral} {n : JsonNumber} (h : m.value? = some n) : Says (.number m) (.number n)
  | string (s : String) : Says (.string (some s)) (.string s)
  | array {trees : List JsonSyntax} {items : List Json} (h : List.Forall₂ Says trees items) :
    Says (.array trees) (.array items)
  | object {trees : List (Option String × JsonSyntax)} {fields : List (String × Json)}
    (hkeys : trees.map (·.1) = fields.map (some ·.1))
    (h : List.Forall₂ Says (trees.map (·.2)) (fields.map (·.2))) :
    Says (.object trees) (.object fields)

/-! ## Layouts -/

/-- Where blanks stand in a text: before the items and fields of a level, and after colons. -/
structure Layout where
  /-- What stands before an item of a level. -/
  lineBreak : Nat → List Char
  /-- What stands after a colon. -/
  gap : List Char
  blank_lineBreak : ∀ level, ∀ c ∈ lineBreak level, JsonSyntax.isSpace c
  blank_gap : ∀ c ∈ gap, JsonSyntax.isSpace c

namespace Layout

/-- No blanks. -/
def compact : Layout where
  lineBreak _ := []
  gap := []
  blank_lineBreak _ := by simp
  blank_gap := by simp

/-- Each item on a line of its own. -/
def pretty : Layout where
  lineBreak := Json.lineBreak
  gap := [' ']
  blank_lineBreak level c hc := by
    rcases List.mem_cons.1 hc with rfl | hc
    · rfl
    · rw [List.eq_of_mem_replicate hc]
      rfl
  blank_gap := List.forall_mem_singleton.2 rfl

mutual

/-- The text of a value that starts on a line of a level. -/
def chars (l : Layout) (level : Nat) : Json → List Char
  | .null => ['n', 'u', 'l', 'l']
  | .bool true => ['t', 'r', 'u', 'e']
  | .bool false => ['f', 'a', 'l', 's', 'e']
  | .number n => n.chars
  | .string s => Json.quote s
  | .array [] => ['[', ']']
  | .array (x :: xs) =>
    '[' :: (l.lineBreak (level + 1) ++ (l.chars (level + 1) x ++ l.items level xs))
  | .object [] => ['\x7b', '\x7d']
  | .object ((k, v) :: fs) =>
    '\x7b' :: (l.lineBreak (level + 1) ++ (Json.quote k ++ ':' :: (l.gap ++
      (l.chars (level + 1) v ++ l.fields level fs))))

/-- The items of a list after the first, with the closing bracket. -/
def items (l : Layout) (level : Nat) : List Json → List Char
  | [] => l.lineBreak level ++ [']']
  | x :: xs => ',' :: (l.lineBreak (level + 1) ++ (l.chars (level + 1) x ++ l.items level xs))

/-- The fields of an object after the first, with the closing brace. -/
def fields (l : Layout) (level : Nat) : List (String × Json) → List Char
  | [] => l.lineBreak level ++ ['\x7d']
  | (k, v) :: fs =>
    ',' :: (l.lineBreak (level + 1) ++ (Json.quote k ++ ':' :: (l.gap ++
      (l.chars (level + 1) v ++ l.fields level fs))))

end

/-! ### The layouts in use -/

mutual

theorem chars_compact (level : Nat) : ∀ v : Json, compact.chars level v = v.compactChars
  | .null | .bool true | .bool false | .number _ | .string _ | .array [] | .object [] => rfl
  | .array (x :: xs) => by
    rw [chars, chars_compact (level + 1) x, items_compact level xs]
    rfl
  | .object ((k, v) :: fs) => by
    rw [chars, chars_compact (level + 1) v, fields_compact level fs]
    rfl

theorem items_compact (level : Nat) :
    ∀ xs : List Json, compact.items level xs = Json.compactItems xs
  | [] => rfl
  | x :: xs => by
    rw [items, chars_compact (level + 1) x, items_compact level xs]
    rfl

theorem fields_compact (level : Nat) :
    ∀ fs : List (String × Json), compact.fields level fs = Json.compactFields fs
  | [] => rfl
  | (k, v) :: fs => by
    rw [fields, chars_compact (level + 1) v, fields_compact level fs]
    rfl

end

mutual

theorem chars_pretty (level : Nat) : ∀ v : Json, pretty.chars level v = v.prettyChars level
  | .null | .bool true | .bool false | .number _ | .string _ | .array [] | .object [] => rfl
  | .array (x :: xs) => by
    rw [chars, chars_pretty (level + 1) x, items_pretty level xs]
    rfl
  | .object ((k, v) :: fs) => by
    rw [chars, chars_pretty (level + 1) v, fields_pretty level fs]
    rfl

theorem items_pretty (level : Nat) :
    ∀ xs : List Json, pretty.items level xs = Json.prettyItems level xs
  | [] => rfl
  | x :: xs => by
    rw [items, chars_pretty (level + 1) x, items_pretty level xs]
    rfl

theorem fields_pretty (level : Nat) :
    ∀ fs : List (String × Json), pretty.fields level fs = Json.prettyFields level fs
  | [] => rfl
  | (k, v) :: fs => by
    rw [fields, chars_pretty (level + 1) v, fields_pretty level fs]
    rfl

end

end Layout

/-! ## Blanks -/

namespace JsonSyntax

theorem skipSpace_append {ws : List Char} (hws : ∀ c ∈ ws, isSpace c) (cs : List Char) :
    skipSpace (ws ++ cs) = skipSpace cs :=
  List.dropWhile_append_of_pos hws

theorem skipSpace_cons {c : Char} (hc : isSpace c = false) (cs : List Char) :
    skipSpace (c :: cs) = c :: cs := by
  simp [skipSpace, hc]

theorem read?_append {ws : List Char} (hws : ∀ c ∈ ws, isSpace c) (fuel : Nat) (cs : List Char) :
    read? fuel (ws ++ cs) = read? fuel cs := by
  cases fuel with
  | zero => rfl
  | succ fuel => rw [read?, read?, skipSpace_append hws]

theorem endsNumeral_append {ws : List Char} (hws : ∀ c ∈ ws, isSpace c) {rest : List Char}
    (hrest : EndsNumeral rest) : EndsNumeral (ws ++ rest) := by
  cases ws with
  | nil => exact hrest
  | cons c ws =>
    have hc := hws c List.mem_cons_self
    simp only [isSpace, Bool.or_eq_true, decide_eq_true_eq] at hc
    rw [List.cons_append, endsNumeral_cons]
    rcases hc with ((rfl | rfl) | rfl) | rfl <;> decide

theorem isSpace_of_numeral {c : Char} (hc : c.isDigit = true ∨ c = '-') : isSpace c = false := by
  rcases hc with hc | rfl
  · simp only [isSpace, Bool.or_eq_false_iff, decide_eq_false_iff_not]
    refine ⟨⟨⟨?_, ?_⟩, ?_⟩, ?_⟩ <;> rintro rfl <;> cases hc
  · rfl

/-- What begins like a numeral is one, or nothing. -/
theorem read?_numeral {c : Char} (hc : c.isDigit = true ∨ c = '-') (fuel : Nat) (cs : List Char) :
    read? (fuel + 1) (c :: cs) =
      match Numeral.read? (c :: cs) with
      | some (n, rest) => some (.number n, rest)
      | none => none := by
  rw [read?, skipSpace_cons (isSpace_of_numeral hc)]
  -- None of the other values begins so.
  split
  case h_7 => rfl
  all_goals
    rename_i h
    cases h
    exact absurd hc (by decide)

theorem read?_quote (fuel : Nat) (s : String) (rest : List Char) :
    read? (fuel + 1) (Json.quote s ++ rest) = some (.string (some s), rest) := by
  simp only [Json.quote, List.cons_append, List.append_assoc]
  rw [read?, skipSpace_cons (by rfl)]
  simp only [List.nil_append, readString?_quote]

theorem readItems?_append {ws : List Char} (hws : ∀ c ∈ ws, isSpace c) (fuel : Nat)
    (seen : List JsonSyntax) (cs : List Char) :
    readItems? fuel seen (ws ++ cs) = readItems? fuel seen cs := by
  cases fuel with
  | zero => rfl
  | succ fuel => rw [readItems?, readItems?, read?_append hws]

theorem readFields?_append {ws : List Char} (hws : ∀ c ∈ ws, isSpace c) (fuel : Nat)
    (seen : List (Option String × JsonSyntax)) (cs : List Char) :
    readFields? fuel seen (ws ++ cs) = readFields? fuel seen cs := by
  cases fuel with
  | zero => rfl
  | succ fuel => rw [readFields?, readFields?, skipSpace_append hws]

/-- A list that does not end at once has items. -/
theorem read?_list {ws : List Char} (hws : ∀ c ∈ ws, isSpace c) {c : Char}
    (hspace : isSpace c = false) (hc : c ≠ ']') (fuel : Nat) (cs : List Char) :
    read? (fuel + 1) ('[' :: (ws ++ c :: cs)) = readItems? fuel [] (c :: cs) := by
  rw [read?, skipSpace_cons (by rfl)]
  simp only [skipSpace_append hws, skipSpace_cons hspace]
  split
  · rename_i h
    exact absurd (List.cons.inj h).1 hc
  · rfl

/-- An object that does not end at once has fields. -/
theorem read?_object {ws : List Char} (hws : ∀ c ∈ ws, isSpace c) (fuel : Nat) (cs : List Char) :
    read? (fuel + 1) ('\x7b' :: (ws ++ '"' :: cs)) = readFields? fuel [] ('"' :: cs) := by
  rw [read?, skipSpace_cons (by rfl)]
  simp only [skipSpace_append hws, skipSpace_cons (by rfl : isSpace '"' = false)]
  simp

section Fields

variable {ws : List Char} (hws : ∀ c ∈ ws, isSpace c) (fuel : Nat)
  (seen : List (Option String × JsonSyntax)) (k : String) {cs rest more : List Char}
  {t : JsonSyntax} (h : read? fuel cs = some (t, rest))
include hws h

/-- A field before a comma is read as its key and its value, and more fields after it. -/
theorem readFields?_comma (hrest : skipSpace rest = ',' :: more) :
    readFields? (fuel + 1) seen (Json.quote k ++ ':' :: (ws ++ cs)) =
      readFields? fuel ((some k, t) :: seen) more := by
  simp only [Json.quote, List.cons_append, List.append_assoc]
  rw [readFields?, skipSpace_cons (by rfl)]
  simp only [List.nil_append, readString?_quote,
    skipSpace_cons (by rfl : isSpace ':' = false), read?_append hws, h, hrest]

/-- A field before a closing brace is the last one of its object. -/
theorem readFields?_brace (hrest : skipSpace rest = '\x7d' :: more) :
    readFields? (fuel + 1) seen (Json.quote k ++ ':' :: (ws ++ cs)) =
      some (.object ((some k, t) :: seen).reverse, more) := by
  simp only [Json.quote, List.cons_append, List.append_assoc]
  rw [readFields?, skipSpace_cons (by rfl)]
  simp only [List.nil_append, readString?_quote,
    skipSpace_cons (by rfl : isSpace ':' = false), read?_append hws, h, hrest]

end Fields

end JsonSyntax

/-! ## Reading what is written -/

namespace Layout

variable {l : Layout}

theorem skipSpace_lineBreak (l : Layout) (level : Nat) (cs : List Char) :
    JsonSyntax.skipSpace (l.lineBreak level ++ cs) = JsonSyntax.skipSpace cs :=
  JsonSyntax.skipSpace_append (l.blank_lineBreak level) cs

theorem endsNumeral_items (l : Layout) (level : Nat) (xs : List Json) (rest : List Char) :
    EndsNumeral (l.items level xs ++ rest) := by
  cases xs with
  | nil =>
    rw [items, List.append_assoc]
    refine JsonSyntax.endsNumeral_append (l.blank_lineBreak level) ?_
    exact endsNumeral_cons.2 (by decide)
  | cons x xs => exact endsNumeral_cons.2 (by decide)

theorem endsNumeral_fields (l : Layout) (level : Nat) (fs : List (String × Json))
    (rest : List Char) : EndsNumeral (l.fields level fs ++ rest) := by
  cases fs with
  | nil =>
    rw [fields, List.append_assoc]
    refine JsonSyntax.endsNumeral_append (l.blank_lineBreak level) ?_
    exact endsNumeral_cons.2 (by decide)
  | cons f fs => exact endsNumeral_cons.2 (by decide)

/-- A written value begins with a character that is no blank and closes no list. -/
theorem exists_chars_cons (l : Layout) (level : Nat) {v : Json} {room : Nat} (hv : v.Plain room) :
    ∃ c cs, l.chars level v = c :: cs ∧ JsonSyntax.isSpace c = false ∧ c ≠ ']' := by
  cases hv with
  | null => exact ⟨_, _, rfl, rfl, by decide⟩
  | bool b => cases b <;> exact ⟨_, _, rfl, rfl, by decide⟩
  | @integer _ n h =>
    obtain ⟨c, cs, hcs, hc⟩ := Numeral.exists_integerChars_cons n
    refine ⟨c, cs, hcs, JsonSyntax.isSpace_of_numeral hc, ?_⟩
    rintro rfl
    exact absurd hc (by decide)
  | string s => exact ⟨_, _, rfl, rfl, by decide⟩
  | @array _ items h => cases items <;> exact ⟨_, _, rfl, rfl, by decide⟩
  | @object _ fields h => cases fields <;> exact ⟨_, _, rfl, rfl, by decide⟩

/-- A written value is read, whatever follows that does not go on with a numeral. -/
def Reads (l : Layout) (v : Json) : Prop :=
  ∀ level fuel rest, EndsNumeral rest → 2 * (l.chars level v).length ≤ fuel + 1 →
    ∃ t, JsonSyntax.read? (fuel + 1) (l.chars level v ++ rest) = some (t, rest) ∧ t.Says v

theorem reads_integer {n : Int} (h : IsInteger64 n) : l.Reads (.number (.integer n)) := by
  intro level fuel rest hrest _
  obtain ⟨m, hread, hvalue⟩ := Numeral.read?_integerChars h hrest
  -- The first character decides that a numeral is read.
  obtain ⟨c, cs, hcs, hc⟩ := Numeral.exists_integerChars_cons n
  refine ⟨.number m, ?_, .number hvalue⟩
  have hchars : l.chars level (.number (.integer n)) = integerChars n := rfl
  rw [hcs, List.cons_append] at hread
  rw [hchars, hcs, List.cons_append, JsonSyntax.read?_numeral hc, hread]

theorem reads_string (s : String) : l.Reads (.string s) :=
  fun _ fuel rest _ _ => ⟨_, JsonSyntax.read?_quote fuel s rest, .string s⟩

/-- The items of a list are read one after the other. -/
theorem readItems?_items {x : Json} {xs : List Json} (h : ∀ y ∈ x :: xs, l.Reads y)
    (level fuel : Nat) (seen : List JsonSyntax) (rest : List Char)
    (hfuel : 2 * ((l.chars (level + 1) x).length + (l.items level xs).length) < fuel) :
    ∃ ts, JsonSyntax.readItems? fuel seen
        (l.chars (level + 1) x ++ (l.items level xs ++ rest)) =
          some (.array (seen.reverse ++ ts), rest) ∧
      List.Forall₂ JsonSyntax.Says ts (x :: xs) := by
  -- An item takes one step; the comma after it, or the bracket, is a character that pays for it.
  induction xs generalizing x seen fuel with
  | nil =>
    obtain ⟨fuel, rfl⟩ : ∃ f, fuel = f + 2 := ⟨fuel - 2, by simp [items] at hfuel; omega⟩
    obtain ⟨t, hread, hsaid⟩ := h x List.mem_cons_self (level + 1) fuel (l.items level [] ++ rest)
      (l.endsNumeral_items level [] rest) (by omega)
    refine ⟨[t], ?_, .cons hsaid .nil⟩
    rw [JsonSyntax.readItems?, hread]
    simp only [items, List.append_assoc, skipSpace_lineBreak]
    rw [List.singleton_append, JsonSyntax.skipSpace_cons (by rfl)]
    simp
  | cons y ys ih =>
    simp only [items, List.length_cons, List.length_append] at hfuel
    obtain ⟨fuel, rfl⟩ : ∃ f, fuel = f + 2 := ⟨fuel - 2, by omega⟩
    obtain ⟨t, hread, hsaid⟩ := h x List.mem_cons_self (level + 1) fuel
      (l.items level (y :: ys) ++ rest) (l.endsNumeral_items level (y :: ys) rest) (by omega)
    obtain ⟨ts, hreads, hall⟩ := ih (fun z hz => h z (List.mem_cons_of_mem x hz)) (fuel + 1)
      (t :: seen) (by omega)
    refine ⟨t :: ts, ?_, .cons hsaid hall⟩
    rw [JsonSyntax.readItems?, hread]
    simp only [items, List.cons_append, List.append_assoc]
    rw [JsonSyntax.skipSpace_cons (by rfl)]
    simp only [JsonSyntax.readItems?_append (l.blank_lineBreak (level + 1)), hreads]
    simp

theorem reads_array {room : Nat} {xs : List Json} (hplain : ∀ x ∈ xs, x.Plain room)
    (h : ∀ x ∈ xs, l.Reads x) : l.Reads (.array xs) := by
  intro level fuel rest _ hfuel
  cases xs with
  | nil =>
    refine ⟨.array [], ?_, .array .nil⟩
    simp only [chars, List.cons_append]
    rw [JsonSyntax.read?, JsonSyntax.skipSpace_cons (by rfl)]
    simp only [JsonSyntax.skipSpace_cons (by rfl : JsonSyntax.isSpace ']' = false)]
    simp
  | cons x xs =>
    simp only [chars, List.length_cons, List.length_append] at hfuel
    obtain ⟨ts, hreads, hall⟩ := readItems?_items h level fuel [] rest (by omega)
    refine ⟨.array ts, ?_, .array hall⟩
    -- The first item is not the closing bracket, so the list is not taken for an empty one.
    obtain ⟨c, cs, hcs, hspace, hc⟩ := l.exists_chars_cons (level + 1) (hplain x List.mem_cons_self)
    simp only [chars, List.cons_append, List.append_assoc]
    rw [hcs, List.cons_append] at hreads ⊢
    rw [JsonSyntax.read?_list (l.blank_lineBreak (level + 1)) hspace hc, hreads]
    simp

/-- The fields of an object are read one after the other. -/
theorem readFields?_fields {k : String} {v : Json} {fs : List (String × Json)}
    (h : ∀ f ∈ (k, v) :: fs, l.Reads f.2) (level fuel : Nat)
    (seen : List (Option String × JsonSyntax)) (rest : List Char)
    (hfuel : 2 * ((l.chars (level + 1) v).length + (l.fields level fs).length) < fuel) :
    ∃ ts, JsonSyntax.readFields? fuel seen (Json.quote k ++ ':' :: (l.gap ++
        (l.chars (level + 1) v ++ (l.fields level fs ++ rest)))) =
          some (.object (seen.reverse ++ ts), rest) ∧
      ts.map (·.1) = ((k, v) :: fs).map (some ·.1) ∧
      List.Forall₂ JsonSyntax.Says (ts.map (·.2)) (((k, v) :: fs).map (·.2)) := by
  -- As with items: a field takes one step, and the comma or the brace after it pays for it.
  induction fs generalizing k v seen fuel with
  | nil =>
    obtain ⟨fuel, rfl⟩ : ∃ f, fuel = f + 2 := ⟨fuel - 2, by simp [fields] at hfuel; omega⟩
    have hv : l.Reads v := h (k, v) List.mem_cons_self
    obtain ⟨t, hread, hsaid⟩ := hv (level + 1) fuel (l.fields level [] ++ rest)
      (l.endsNumeral_fields level [] rest) (by omega)
    refine ⟨[(some k, t)], ?_, rfl, .cons hsaid .nil⟩
    have hbrace : JsonSyntax.skipSpace (l.fields level [] ++ rest) = '\x7d' :: rest := by
      rw [fields, List.append_assoc, skipSpace_lineBreak]
      exact JsonSyntax.skipSpace_cons (by rfl) rest
    rw [JsonSyntax.readFields?_brace l.blank_gap (fuel + 1) seen k hread hbrace, List.reverse_cons]
  | cons f fs ih =>
    obtain ⟨k', v'⟩ := f
    simp only [fields, List.length_cons, List.length_append] at hfuel
    obtain ⟨fuel, rfl⟩ : ∃ f, fuel = f + 2 := ⟨fuel - 2, by omega⟩
    have hv : l.Reads v := h (k, v) List.mem_cons_self
    obtain ⟨t, hread, hsaid⟩ := hv (level + 1) fuel (l.fields level ((k', v') :: fs) ++ rest)
      (l.endsNumeral_fields level _ rest) (by omega)
    obtain ⟨ts, hreads, hkeys, hall⟩ := ih (fun g hg => h g (List.mem_cons_of_mem _ hg)) (fuel + 1)
      ((some k, t) :: seen) (by omega)
    refine ⟨(some k, t) :: ts, ?_, congrArg _ hkeys, .cons hsaid hall⟩
    have hcomma : JsonSyntax.skipSpace (l.fields level ((k', v') :: fs) ++ rest) =
        ',' :: (l.lineBreak (level + 1) ++ (Json.quote k' ++ ':' :: (l.gap ++
          (l.chars (level + 1) v' ++ (l.fields level fs ++ rest))))) := by
      simp only [fields, List.cons_append, List.append_assoc]
      exact JsonSyntax.skipSpace_cons (by rfl) _
    rw [JsonSyntax.readFields?_comma l.blank_gap (fuel + 1) seen k hread hcomma,
      JsonSyntax.readFields?_append (l.blank_lineBreak (level + 1)), hreads]
    simp

theorem reads_object {fs : List (String × Json)} (h : ∀ f ∈ fs, l.Reads f.2) :
    l.Reads (.object fs) := by
  intro level fuel rest _ hfuel
  cases fs with
  | nil =>
    refine ⟨.object [], ?_, .object rfl .nil⟩
    simp only [chars, List.cons_append]
    rw [JsonSyntax.read?, JsonSyntax.skipSpace_cons (by rfl)]
    simp only [JsonSyntax.skipSpace_cons (by rfl : JsonSyntax.isSpace '\x7d' = false)]
    simp
  | cons f fs =>
    obtain ⟨k, v⟩ := f
    simp only [chars, List.length_cons, List.length_append] at hfuel
    obtain ⟨ts, hreads, hkeys, hall⟩ := readFields?_fields h level fuel [] rest (by omega)
    refine ⟨.object ts, ?_, .object hkeys hall⟩
    simp only [chars, Json.quote, List.cons_append, List.append_assoc] at hreads ⊢
    rw [JsonSyntax.read?_object (l.blank_lineBreak (level + 1)), hreads]
    simp

theorem reads_of_plain {room : Nat} {v : Json} (hv : v.Plain room) : l.Reads v := by
  induction hv with
  | null =>
    intro level fuel rest _ _
    exact ⟨.null, rfl, .null⟩
  | bool b =>
    intro level fuel rest _ _
    refine ⟨.bool b, ?_, .bool b⟩
    cases b <;> rfl
  | integer h => exact reads_integer h
  | string s => exact reads_string s
  | array h ih => exact reads_array h ih
  | object h ih => exact reads_object ih

/-- A text that is written for a plain value is read as a tree that says it. -/
theorem ofText?_chars (l : Layout) {room : Nat} {v : Json} (hv : v.Plain room) :
    ∃ t, JsonSyntax.ofText? (String.ofList (l.chars 0 v)) = some t ∧ t.Says v := by
  obtain ⟨t, hread, hsaid⟩ := l.reads_of_plain hv 0 (2 * (l.chars 0 v).length + 1) []
    endsNumeral_nil (by omega)
  rw [List.append_nil] at hread
  refine ⟨t, ?_, hsaid⟩
  simp [JsonSyntax.ofText?, hread, JsonSyntax.skipSpace]

end Layout

end ComponentViews
