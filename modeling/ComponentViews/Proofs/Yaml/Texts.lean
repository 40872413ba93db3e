import ComponentViews.Proofs.Yaml.Structure

/-!
# The tokens of a text are found

All that is written for a value may stand in a text, whatever its strings consist of: what may not is
escaped. So the tokens of the text of an object are those of the node that is written for it, also if
there are empty lines at the end.

## Main definitions

* `Readable`: characters that may stand in a text.

## Main results

* `readableValue_of_textual`: the lines of a value may stand in a text.
* `tokens?_yamlLines`: the tokens of a text are found.
-/

namespace ComponentViews.Yaml

/-! ## Characters -/

/-- All characters may stand in a text. -/
def Readable (cs : List Char) : Prop := ∀ c ∈ cs, isReadable c

instance (cs : List Char) : Decidable (Readable cs) := List.decidableBAll _ _

theorem readable_spaces (n : Nat) : Readable (spaces n) := fun c hc => by
  rw [List.eq_of_mem_replicate hc]
  rfl

theorem Readable.append {cs ds : List Char} (hcs : Readable cs) (hds : Readable ds) :
    Readable (cs ++ ds) :=
  List.forall_mem_append.2 ⟨hcs, hds⟩

theorem Readable.cons {c : Char} {cs : List Char} (hc : isReadable c) (hcs : Readable cs) :
    Readable (c :: cs) :=
  List.forall_mem_cons.2 ⟨hc, hcs⟩

theorem readable_nil : Readable [] := List.forall_mem_nil _

theorem readable_endLine {cs : List Char} (h : Readable cs) : Readable (endLine cs) := by
  rw [endLine]
  split
  · exact h
  · exact h.append (.cons rfl readable_nil)

theorem readable_indentLines {write : Char → List Char}
    (hwrite : ∀ c, isReadable c → Readable (write c)) (indent : Nat) (broken : Bool)
    {cs : List Char} (h : Readable cs) :
    Readable (indentLines write indent broken cs) := by
  induction cs generalizing broken with
  | nil => exact h
  | cons c cs ih =>
    obtain ⟨hc, hcs⟩ := List.forall_mem_cons.1 h
    rw [indentLines]
    split
    · exact .cons hc (ih true hcs)
    · have hrest := (hwrite c hc).append (ih false hcs)
      cases broken with
      | false => exact hrest
      | true => exact (readable_spaces indent).append hrest

theorem readable_of_printable {cs : List Char} (h : ∀ c ∈ cs, isPrintable c) : Readable cs :=
  fun c hc => isReadable_of_isPrintable (h c hc)

theorem readable_of_needsEscapes {cs : List Char} (h : needsEscapes cs = false) : Readable cs := by
  rw [needsEscapes, Bool.or_eq_false_iff, Bool.not_eq_false', List.all_eq_true] at h
  exact readable_of_printable h.1

/-- Whatever a string consists of, it is written with characters that may stand in a text. -/
theorem readable_stringChars (indent : Nat) (s : String) : Readable (stringChars indent s) := by
  rw [stringChars]
  cases hs : spelling s.toList with
  | plain =>
    exact readable_of_needsEscapes (needsEscapes_of_allowsPlain (spelling_eq_plain hs).1)
  | single =>
    have hallowed := (spelling_eq_single hs).2
    simp only [allowsSingle, Bool.and_eq_true, Bool.not_eq_true'] at hallowed
    have hmark : Readable ['\''] := .cons rfl readable_nil
    have hwrite : ∀ c, isReadable c → Readable (singleChar c) := fun c hc => by
      rw [singleChar]
      split
      · exact .cons rfl hmark
      · exact .cons hc readable_nil
    refine .cons rfl ((readable_indentLines hwrite _ _ (readable_of_needsEscapes hallowed.1)).append ?_)
    split
    · exact (readable_spaces indent).append hmark
    · exact hmark
  | double =>
    refine .cons rfl (Readable.append (fun d hd => ?_) (.cons rfl readable_nil))
    obtain ⟨c, -, hd⟩ := List.mem_flatMap.1 hd
    exact isReadable_of_mem_doubleChar hd
  | block =>
    -- A block is written only where nothing needs an escape.
    have hprintable := isPrintable_of_allowsBlock (spelling_eq_block hs).2
    have hchomping : Readable (chompingChars s.toList) := by
      rw [chompingChars_eq]
      cases chompingOf s.toList <;> decide
    have hhint : Readable (hintChars s.toList) := by
      rw [hintChars]
      split <;> decide
    have hlines := readable_indentLines (fun c hc => .cons hc readable_nil) indent true
      (readable_of_printable hprintable)
    exact .cons rfl (hhint.append (hchomping.append (.cons rfl hlines)))

/-- The lines of a value may stand in a text. -/
def ReadableValue (v : Json) : Prop :=
  ∀ indent, Readable (v.yamlLines indent) ∧ Readable (v.yamlValue indent)

section Parts

variable {indent : Nat}

theorem readable_yamlItems {xs : List Json} (h : ∀ x ∈ xs, ReadableValue x) :
    Readable (Json.yamlItems indent xs) := by
  induction xs with
  | nil => exact readable_nil
  | cons x xs ih =>
    obtain ⟨hx, hxs⟩ := List.forall_mem_cons.1 h
    exact (readable_spaces indent).append (.cons rfl (.cons rfl ((hx _).1.append (ih hxs))))

theorem readable_fieldName {k : String} (hk : IsFieldName k) : Readable (keyChars k) := by
  rw [keyChars_of_isFieldName hk]
  exact readable_of_needsEscapes (needsEscapes_of_allowsPlain (spelling_eq_plain hk.1).1)

theorem readable_yamlFields {fields : List (String × Json)} (hkeys : ∀ f ∈ fields, IsFieldName f.1)
    (h : ∀ f ∈ fields, ReadableValue f.2) : Readable (Json.yamlFields indent fields) := by
  induction fields with
  | nil => exact readable_nil
  | cons f fields ih =>
    obtain ⟨hk, hkeys⟩ := List.forall_mem_cons.1 hkeys
    obtain ⟨hf, h⟩ := List.forall_mem_cons.1 h
    exact (readable_spaces indent).append
      ((readable_fieldName hk).append (.cons rfl ((hf indent).2.append (ih hkeys h))))

end Parts

theorem readableValue_of_textual {v : Json} (h : v.Textual) : ReadableValue v := by
  have hscalar : ∀ cs, Readable cs → Readable (endLine cs) ∧ Readable (' ' :: endLine cs) :=
    fun cs h => ⟨readable_endLine h, .cons rfl (readable_endLine h)⟩
  intro indent
  induction h generalizing indent with
  | bool b =>
    cases b with
    | true => exact hscalar ['t', 'r', 'u', 'e'] (by decide)
    | false => exact hscalar ['f', 'a', 'l', 's', 'e'] (by decide)
  | string s =>
    exact ⟨(hscalar _ (readable_stringChars indent s)).1,
      (hscalar _ (readable_stringChars (indent + 2) s)).2⟩
  | @array items _ ih =>
    cases items with
    | nil => exact hscalar ['[', ']'] (by decide)
    | cons x xs =>
      obtain ⟨hx, hxs⟩ := List.forall_mem_cons.1 ih
      have hlines : ∀ indent, Readable
          ('-' :: ' ' :: (x.yamlLines (indent + 2) ++ Json.yamlItems indent xs)) := fun indent =>
        .cons rfl (.cons rfl ((hx (indent + 2)).1.append (readable_yamlItems hxs)))
      exact ⟨hlines indent, .cons rfl ((readable_spaces indent).append (hlines indent))⟩
  | @object fields hkeys _ ih =>
    cases fields with
    | nil => exact hscalar ['\x7b', '\x7d'] (by decide)
    | cons f fields =>
      obtain ⟨hk, hkeys⟩ := List.forall_mem_cons.1 hkeys
      obtain ⟨hf, hfields⟩ := List.forall_mem_cons.1 ih
      have hlines : ∀ indent, Readable
          (keyChars f.1 ++ ':' :: (f.2.yamlValue indent ++ Json.yamlFields indent fields)) :=
        fun indent => (readable_fieldName hk).append
          (.cons rfl ((hf indent).2.append (readable_yamlFields hkeys hfields)))
      exact ⟨hlines indent, .cons rfl ((readable_spaces (indent + 2)).append (hlines (indent + 2)))⟩

/-! ## Tokens of a text -/

/-- **Tokens.** The tokens of an object with fields are found, with empty lines after its text. -/
theorem tokens?_yamlLines {k : String} {v : Json} {fields : List (String × Json)}
    (h : (Json.object ((k, v) :: fields)).Textual) (n : Nat) :
    tokens? ((Json.object ((k, v) :: fields)).yamlLines 0 ++ List.replicate n '\n') =
      some ((writtenNode n (.object ((k, v) :: fields)) : NamedNode).tokens .block) := by
  have hreadable : ((Json.object ((k, v) :: fields)).yamlLines 0 ++ List.replicate n '\n').all
      isReadable = true := by
    refine List.all_eq_true.2 ((readableValue_of_textual h 0).1.append fun c hc => ?_)
    rw [List.eq_of_mem_replicate hc]
    rfl
  cases h with
  | object hkeys h =>
    obtain ⟨hk : IsFieldName k, hkeys⟩ := List.forall_mem_cons.1 hkeys
    obtain ⟨hv, hfields⟩ := List.forall_mem_cons.1 h
    -- The text begins outside of the outermost column, and ends at that column.
    let final : Tail := ⟨n, 0, []⟩
    have htext : (Json.object ((k, v) :: fields)).yamlLines 0 ++ List.replicate n '\n' =
        k.toList ++ ':' :: (v.yamlValue 0 ++ (Json.yamlFields 0 fields ++ final.chars)) := by
      simp [final, Json.yamlLines, keyChars_of_isFieldName hk, Tail.chars, Tail.blanks, spaces]
    have hkey : (Lexer.clear [] (-1) [] true ⟨k.toList ++ ':' :: _, {}⟩).LeadsTo
        (Lexer.clear [.value, .scalar .plain k.toList, .key, .blockMappingStart] (0 : Nat) [-1] false
          ⟨v.yamlValue 0 ++ (Json.yamlFields 0 fields ++ final.chars), _⟩) :=
      Lexer.leadsTo_firstKey hk (startsGap_yamlValue 0 v _) (by decide) rfl
    obtain ⟨m, -, hlead⟩ := hkey.reaches (reaches_fields startsText_nil (Nat.le_refl 0)
      (readsValue_of_textual hv) hkeys (fun f hf => readsValue_of_textual (hfields f hf))
      (lt_column_pass_name hk (Nat.zero_le _)))
    obtain ⟨fuel, hfuel, hall⟩ := hlead _ (Nat.lt_succ_self _)
    have hfound := hall.trans (Lexer.all?_clear_nil (Nat.zero_lt_of_lt hfuel))
    have htokens : (writtenNode n (.object ((k, v) :: fields)) : NamedNode).tokens .block =
        .blockMappingStart :: (entryTokens (writtenEntries n ((k, v) :: fields)) ++ [.blockEnd]) := rfl
    rw [tokens?, hreadable, if_pos rfl, htext, htokens]
    refine (congrArg (Option.map List.reverse) hfound).trans ?_
    simp [final]

end ComponentViews.Yaml
