import ComponentViews.Proofs.Json.Faithful

/-!
# Streams of JSON values

A stream is a text of values one after the other, with white space between them. Values that are
written each with a line break after it make a stream of these values.

## Main definitions

* `readJsonValues?`, `readJsonStream?`: read all values of a stream.

## Main results

* `readJsonStream?_pretty`: what is written with line breaks is read back.
-/

namespace ComponentViews

variable {α : Type}

/-- Read values that are separated by white space until the text ends. Each takes a character, so
there are fewer of them than the fuel. -/
def readJsonValues? (read : JsonText → Option α) : Nat → List Char → Option (List α)
  | 0, _ => none
  | fuel + 1, cs =>
    let cs := JsonSyntax.skipSpace cs
    if cs = [] then some []
    else do
      let (tree, rest) ← JsonSyntax.read? (2 * cs.length + 2) cs
      if rest.head?.all JsonSyntax.isSpace then
        let a ← read ⟨tree, JsonSyntax.maxDepth⟩
        let more ← readJsonValues? read fuel rest
        pure (a :: more)
      else none

/-- Read all values of a stream. -/
def readJsonStream? (read : JsonText → Option α) (s : String) : Option (List α) :=
  readJsonValues? read (s.length + 1) s.toList

variable {read : JsonText → Option α}

theorem readJsonValues?_lineBreak (fuel : Nat) (cs : List Char) :
    readJsonValues? read fuel ('\n' :: cs) = readJsonValues? read fuel cs := by
  cases fuel with
  | zero => rfl
  | succ fuel =>
    have hskip : JsonSyntax.skipSpace ('\n' :: cs) = JsonSyntax.skipSpace cs := rfl
    rw [readJsonValues?, readJsonValues?, hskip]

/-- A value that is written before a line break is the first of a stream. -/
theorem readJsonValues?_chars {v : Json} {a : α} (hread : Recovers JsonText.Shows read v a)
    (hplain : v.Plain JsonSyntax.maxDepth) (l : Layout) (fuel : Nat) (rest : List Char) :
    readJsonValues? read (fuel + 1) (l.chars 0 v ++ '\n' :: rest) =
      (readJsonValues? read fuel rest).map (a :: ·) := by
  have hends : EndsNumeral ('\n' :: rest) := endsNumeral_cons.2 (by decide)
  obtain ⟨tree, htree, hsaid⟩ := l.reads_of_plain hplain 0
    (2 * (l.chars 0 v ++ '\n' :: rest).length + 1) ('\n' :: rest) hends
    (by rw [List.length_append]; omega)
  obtain ⟨c, cs, hcs, hc, -⟩ := l.exists_chars_cons 0 hplain
  have hskip : JsonSyntax.skipSpace (l.chars 0 v ++ '\n' :: rest) = l.chars 0 v ++ '\n' :: rest := by
    rw [hcs, List.cons_append, JsonSyntax.skipSpace_cons hc]
  rw [readJsonValues?]
  dsimp only
  rw [hskip, if_neg (by simp [hcs]), htree]
  simp only [Option.bind_eq_bind, Option.bind_some]
  rw [if_pos (by rfl), hread _ ⟨hsaid, hplain⟩, readJsonValues?_lineBreak, Option.map_eq_bind]
  rfl

/-- **Streams are read back.** Things that are written as plain values, each with a line break after
it, are read back in their order. -/
theorem readJsonStream?_pretty {write : α → Json} {xs : List α}
    (hread : ∀ x ∈ xs, Recovers JsonText.Shows read (write x) x)
    (hplain : ∀ x ∈ xs, (write x).Plain JsonSyntax.maxDepth) :
    readJsonStream? read (String.join (xs.map fun x => (write x).pretty ++ "\n")) = some xs := by
  have hvalues : ∀ (xs : List α), (∀ x ∈ xs, Recovers JsonText.Shows read (write x) x) →
      (∀ x ∈ xs, (write x).Plain JsonSyntax.maxDepth) → ∀ fuel, xs.length < fuel →
        readJsonValues? read fuel
          (xs.flatMap fun x => Layout.pretty.chars 0 (write x) ++ ['\n']) = some xs := by
    intro xs
    induction xs with
    | nil =>
      intro _ _ fuel hfuel
      obtain ⟨fuel, rfl⟩ := Nat.exists_eq_add_of_lt hfuel
      rw [List.length_nil, Nat.zero_add]
      rfl
    | cons x xs ih =>
      intro hread hplain fuel hfuel
      obtain ⟨hx, hxs⟩ := List.forall_mem_cons.1 hread
      obtain ⟨hpx, hpxs⟩ := List.forall_mem_cons.1 hplain
      cases fuel with
      | zero => cases hfuel
      | succ fuel =>
        rw [List.flatMap_cons, List.append_assoc, List.singleton_append,
          readJsonValues?_chars hx hpx, ih hxs hpxs fuel (Nat.lt_of_succ_lt_succ hfuel)]
        rfl
  have htext : (String.join (xs.map fun x => (write x).pretty ++ "\n")).toList =
      xs.flatMap fun x => Layout.pretty.chars 0 (write x) ++ ['\n'] := by
    rw [String.toList_join, List.flatMap_map]
    refine List.flatMap_congr fun x _ => ?_
    rw [String.toList_append, Json.pretty, String.toList_ofList, Layout.chars_pretty]
    rfl
  rw [readJsonStream?, ← String.length_toList, htext]
  refine hvalues xs hread hplain _ (Nat.lt_succ_of_le ?_)
  -- Each value has its line break at least.
  clear hread hplain htext hvalues
  induction xs with
  | nil => exact Nat.zero_le _
  | cons x xs ih =>
    rw [List.flatMap_cons, List.length_append, List.length_append, List.length_singleton,
      List.length_cons]
    omega

end ComponentViews
