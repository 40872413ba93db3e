import ComponentViews.Proofs.Yaml.Block
import ComponentViews.Proofs.Yaml.Lexing
import ComponentViews.Proofs.Yaml.Quoted

/-!
# Strings are read back as tokens

Whatever its spelling, a string on the rest of a line is read back as one scalar, up to the place where
the next line has its first sign. Only a block that keeps its line breaks takes the empty lines after it
for its own.

## Main definitions

* `Spelling.style`: what a reader is told about the spelling of a string.
* `readBefore`: a string as it is read if empty lines follow it.

## Main results

* `Lexer.leadsTo_string`: a string is read back.
-/

namespace ComponentViews.Yaml

/-! ## Spellings -/

/-- What a reader is told about a spelling. -/
def Spelling.style : Spelling → ScalarStyle
  | .plain => .plain
  | .block => .literal
  | .single | .double => .other

/-- A string as it is read if empty lines follow it. -/
def readBefore (n : Nat) (cs : List Char) : List Char :=
  if spelling cs = .block then withBreaks n cs else cs

/-- A string is written as a block that takes empty lines after it for its own. -/
def KeepsBreaks (cs : List Char) : Prop := spelling cs = .block ∧ chompingOf cs = .keep

instance (cs : List Char) : Decidable (KeepsBreaks cs) := inferInstanceAs (Decidable (_ ∧ _))

theorem readBefore_zero (cs : List Char) : readBefore 0 cs = cs := by
  rw [readBefore, withBreaks, List.replicate_zero, List.append_nil, ite_self, ite_self]

/-- A string is read as it is unless it keeps line breaks. -/
theorem readBefore_eq_self_iff {n : Nat} (hn : 0 < n) {cs : List Char} :
    readBefore n cs = cs ↔ ¬ KeepsBreaks cs := by
  rw [readBefore, withBreaks, KeepsBreaks]
  by_cases hblock : spelling cs = .block <;> by_cases hkeep : chompingOf cs = .keep <;>
    simp [hblock, hkeep, Nat.ne_of_gt hn]

/-- A block keeps its line breaks if it ends with more than one. -/
example : KeepsBreaks "Use text.\n\n".toList ∧ ¬ KeepsBreaks "Use text.\n".toList := by decide +kernel

/-- The token of a string that empty lines follow. -/
def stringToken (n : Nat) (cs : List Char) : Token :=
  .scalar (spelling cs).style (readBefore n cs)

section Spellings

variable {cs : List Char}

theorem spelling_eq_single (h : spelling cs = .single) : '\n' ∉ cs ∧ allowsSingle cs := by
  rw [spelling] at h
  split_ifs at h with hlines hblock hplain hsingle
  exact ⟨by simpa using hlines, hsingle⟩

theorem spelling_eq_block (h : spelling cs = .block) : '\n' ∈ cs ∧ allowsBlock cs := by
  rw [spelling] at h
  split_ifs at h with hlines hblock hplain hsingle
  exact ⟨by simpa using hlines, hblock⟩

/-- The empty string would be read as the null value. -/
theorem ne_nil_of_spelling_plain (h : spelling cs = .plain) : cs ≠ [] := by
  rintro rfl
  exact absurd (spelling_eq_plain h).2 (by decide)

theorem isPrintable_of_allowsBlock (h : allowsBlock cs) : ∀ c ∈ cs, isPrintable c := by
  simp only [allowsBlock, needsEscapes, Bool.and_eq_true, Bool.not_eq_true', Bool.or_eq_false_iff,
    Bool.not_eq_false', List.all_eq_true] at h
  exact h.1.1

/-! ## Lengths and ends -/

theorem length_le_indentLines {write : Char → List Char} (hwrite : ∀ c, 1 ≤ (write c).length)
    (indent : Nat) (broken : Bool) (cs : List Char) :
    cs.length ≤ (indentLines write indent broken cs).length := by
  induction cs generalizing broken with
  | nil => exact Nat.le_refl 0
  | cons c cs ih =>
    have hc := hwrite c
    rw [indentLines]
    split
    · exact Nat.succ_le_succ (ih true)
    · have hle := ih false
      simp only [List.length_cons, List.length_append]
      omega

theorem length_le_flatMap {write : Char → List Char} (hwrite : ∀ c, 1 ≤ (write c).length)
    (cs : List Char) : cs.length ≤ (cs.flatMap write).length := by
  induction cs with
  | nil => exact Nat.le_refl 0
  | cons c cs ih =>
    have hc := hwrite c
    rw [List.flatMap_cons, List.length_append, List.length_cons]
    omega

/-- The last character of a text is that of its lines. -/
theorem getLast?_indentLines (indent : Nat) (broken : Bool) (hne : cs ≠ []) :
    (indentLines (fun c => [c]) indent broken cs).getLast? = cs.getLast? := by
  induction cs generalizing broken with
  | nil => exact absurd rfl hne
  | cons c cs ih =>
    have hrest : ∀ broken, (c :: indentLines (fun c => [c]) indent broken cs).getLast? =
        (c :: cs).getLast? := by
      intro broken
      cases cs with
      | nil => rfl
      | cons d ds =>
        have hd := ih broken (List.cons_ne_nil d ds)
        rw [List.getLast?_cons, hd, ← List.getLast?_cons]
    rw [indentLines]
    split
    · exact hrest true
    · rw [List.getLast?_append_of_ne_nil _ (by simp)]
      exact hrest false

theorem endLine_append (h : cs.getLast?.any isBreak = false) (more : List Char) :
    endLine cs ++ more = cs ++ '\n' :: more := by
  rw [endLine, h, if_neg Bool.false_ne_true, List.append_assoc]
  rfl

theorem any_getLast?_singleChars (indent : Nat) (cs : List Char) :
    (singleChars indent cs).getLast?.any isBreak = false := by
  rw [singleChars, List.getLast?_cons, List.getLast?_append_of_ne_nil _ (by simp),
    List.getLast?_append_of_ne_nil _ (by simp)]
  rfl

/-- A block consists of its header and its lines. -/
theorem endLine_blockChars_append (hne : cs ≠ []) {i : Nat} (more : List Char) :
    endLine (blockChars (i + 2) cs) ++ more = '|' :: (blockHead cs ++ blockText i cs more) := by
  have hchars : blockChars (i + 2) cs =
      '|' :: blockHead cs ++ indentLines (fun c => [c]) (i + 2) true cs := by
    rw [blockChars, chompingChars_eq, blockHead, hintChars]
    simp
  have hindented : indentLines (fun c => [c]) (i + 2) true cs ≠ [] := by
    have hle := length_le_indentLines (fun c => Nat.le_refl [c].length) (i + 2) true cs
    exact List.ne_nil_of_length_pos (Nat.lt_of_lt_of_le (List.length_pos_iff.2 hne) hle)
  have hend : endLine (blockChars (i + 2) cs) = blockChars (i + 2) cs ++ lastBreak cs := by
    rw [endLine, lastBreak, hchars, any_getLast?_append hindented, getLast?_indentLines _ _ hne]
    split
    · rw [List.append_nil]
    · rfl
  rw [hend, hchars, blockText]
  simp

end Spellings

/-! ## Tokens of scalars -/

namespace Lexer

variable {ts : List Token} {i : Int} {outer : List Int} {b : Bool} {m : Mark} {cs : List Char}
  {t : Tail}

/-- What may turn out to be a key at a place. -/
def startedKey (ts : List Token) (i : Int) (b : Bool) (m : Mark) : Option PossibleKey :=
  if b then some ⟨decide (i = m.column), ts.length, m⟩ else none

theorem startKey?_clear (c : Cursor) :
    (clear ts i outer b c).startKey? =
      some { clear ts i outer b c with key := startedKey ts i b c.mark } := by
  cases b <;> rfl

/-- What is further right than its level need not be a key. -/
theorem required_eq_false (hi : i < m.column) : ∀ k ∈ startedKey ts i b m,
    k.required = false ∧ k.mark = m := by
  intro k hk
  cases b with
  | false => cases hk
  | true =>
    obtain rfl := Option.some.inj hk
    exact ⟨decide_eq_false (Int.ne_of_lt hi), rfl⟩

/-- A text that may be written without quotation marks is looked for as such. -/
theorem token?_plain {x : Char} {xs : List Char}
    (hmarker : (⟨x :: xs, m⟩ : Cursor).atDocumentMarker = false) (hstarts : StartsText (x :: xs))
    (hsign : startsWithSign (x :: xs) = false) (fuel : Nat) :
    (clear ts i outer b ⟨x :: xs, m⟩).token? fuel x xs =
      (clear ts i outer b ⟨x :: xs, m⟩).plain? fuel := by
  obtain ⟨⟨hgap, hbreak⟩, -⟩ := startsText_cons.1 hstarts
  simp only [startsWithSign, Bool.or_eq_false_iff, List.contains_eq_mem, List.mem_cons,
    List.not_mem_nil, or_false, decide_eq_false_iff_not, not_or, Bool.and_eq_false_iff] at hsign
  obtain ⟨hsigns, hstructure⟩ := hsign
  -- A sign for structure begins a text only if there is no white space after it.
  have hplain : startsPlain false x xs = true := by
    rcases hstructure with hstructure | hgap'
    · simp [startsPlain, hgap, hbreak, hsigns, hstructure]
    · have hhyphen : startsWithAny [' ', '\t'] xs = false := by
        cases xs with
        | nil => cases hgap'
        | cons d ds =>
          simp only [startsGap, isGap, Bool.or_eq_false_iff, decide_eq_false_iff_not] at hgap'
          simp [startsWithAny, hgap'.1]
      simp only [startsPlain, hgap, hbreak, hgap', hhyphen]
      by_cases hx : x = '-' ∨ x = '?' ∨ x = ':'
      · simp [or_assoc, hx]
      · simp only [not_or] at hx
        simp [hsigns, hx]
  have hstructural : ∀ c, c = '?' ∨ c = ':' ∨ c = '-' → (decide (x = c) && startsGap xs) = false := by
    rintro c hc
    rcases hstructure with hstructure | hgap'
    · have hne : x ≠ c := by
        rintro rfl
        exact not_or.2 ⟨hstructure.1, not_or.2 hstructure.2⟩ hc
      rw [decide_eq_false hne, Bool.false_and]
    · rw [hgap', Bool.and_false]
  simp [token?, clear, inFlow, hmarker, hplain, hsigns, hstructural]

section Found

variable {c c' : Cursor} {fuel : Nat} {text : List Char}

theorem plain?_clear {broken : Bool}
    (h : plainScalar? fuel false (i + 1) c = some (text, broken, c')) :
    (clear ts i outer b c).plain? fuel =
      some { clear (.scalar .plain text :: ts) i outer broken c' with
        key := startedKey ts i b c.mark } := by
  rw [plain?, startKey?_clear]
  change (plainScalar? fuel false (i + 1) c).bind _ = _
  rw [h]
  rfl

theorem content?_clear {scan : Cursor → Option (Token × Cursor)} {token : Token}
    (h : scan c = some (token, c')) :
    (clear ts i outer b c).content? scan =
      some { clear (token :: ts) i outer false c' with key := startedKey ts i b c.mark } := by
  rw [content?, startKey?_clear]
  change (scan c).bind _ = _
  rw [h]
  rfl

theorem block?_clear (h : blockScalar? fuel true i (c.skip 1) = some (text, c')) :
    (clear ts i outer b c).block? fuel true =
      some (clear (.scalar .literal text :: ts) i outer true c') := by
  change (blockScalar? fuel true i (c.skip 1)).bind _ = _
  rw [h]
  rfl

end Found

/-! ## Plain scalars -/

section Strings

variable {i : Nat}

/-- A text without quotation marks is read back. -/
theorem leadsTo_plain (hallowed : allowsPlain cs) (hne : cs ≠ []) (hi : i < m.column)
    (ht : StartsText t.rest) (hcolumn : t.column ≤ i) :
    LeadsTo (clear ts i outer b ⟨cs ++ '\n' :: t.chars, m⟩)
      (clear (.scalar .plain cs :: ts) i outer true ⟨t.rest, m.pass (cs ++ '\n' :: t.blanks)⟩) := by
  have hrun := IsRun.of_allowsPlain hallowed hne
  have hsign := startsWithSign_append hallowed hne ('\n' :: t.chars)
  have hstarts := hrun.starts.append hne ('\n' :: t.chars)
  have hread : ∀ fuel, (cs ++ '\n' :: t.chars).length < fuel →
      plainScalar? fuel false (i + 1) ⟨cs ++ '\n' :: t.chars, m⟩ =
        some (cs, true, ⟨t.rest, m.pass (cs ++ '\n' :: t.blanks)⟩) := fun fuel hfuel =>
    hrun.plainScalar?_append ht.1 (by omega) (by rw [List.length_append] at hfuel; omega) (by omega)
  have hcolumn' : 0 < m.column := Nat.zero_lt_of_lt hi
  have hline : m.line < (m.pass (cs ++ '\n' :: t.blanks)).line := by
    rw [Mark.pass_append]
    exact Nat.lt_of_le_of_lt (m.line_le_pass cs) (t.line_lt_pass _)
  have hshorter : t.rest.length < (cs ++ '\n' :: t.chars).length := by
    simp only [List.length_append, List.length_cons, Tail.chars]
    omega
  obtain ⟨x, xs, hx⟩ := List.exists_cons_of_ne_nil (List.append_ne_nil_of_left_ne_nil hne _)
  rw [hx] at hstarts hsign hread hshorter ⊢
  -- The scalar might have been a key, but its line has ended.
  have hpassed : LeadsTo
      { clear (.scalar .plain cs :: ts) i outer true ⟨t.rest, m.pass (cs ++ '\n' :: t.blanks)⟩ with
        key := startedKey ts i b m }
      (clear (.scalar .plain cs :: ts) i outer true ⟨t.rest, m.pass (cs ++ '\n' :: t.blanks)⟩) :=
    leadsTo_passed ht fun k hk => by
      obtain ⟨hrequired, rfl⟩ := required_eq_false (Int.ofNat_lt.2 hi) k hk
      exact ⟨hrequired, hline⟩
  refine (leadsTo_token hstarts (by omega) (fun fuel hfuel => ?_) hshorter).trans hpassed
  rw [token?_plain (atDocumentMarker_eq_false hcolumn') hstarts hsign, plain?_clear (hread fuel hfuel)]

/-! ## Quotation marks -/

theorem token?_quotationMark (double : Bool) (hm : 0 < m.column) (fuel : Nat) :
    (clear ts i outer b ⟨quotationMark double :: cs, m⟩).token? fuel (quotationMark double) cs =
      (clear ts i outer b ⟨quotationMark double :: cs, m⟩).content? fun c =>
        (quotedScalar? fuel double (c.skip 1)).map fun (text, c) => (.scalar .other text, c) := by
  have hmarker : (⟨quotationMark double :: cs, m⟩ : Cursor).atDocumentMarker = false :=
    atDocumentMarker_eq_false hm
  cases double <;> simp [token?, clear, inFlow, quotationMark] at hmarker ⊢ <;> simp [hmarker]

/-- What stands between quotation marks is read back. -/
theorem leadsTo_quoted (double : Bool) {body : List Char} (hi : i < m.column) (ht : StartsText t.rest)
    (hread : ∀ fuel, cs.length < fuel →
      quotedRest? double fuel ⟨body ++ '\n' :: t.chars, m.pass [quotationMark double]⟩ =
        some (cs, ⟨'\n' :: t.chars, m.pass (quotationMark double :: body)⟩))
    (hlength : cs.length ≤ body.length) :
    LeadsTo (clear ts i outer b ⟨quotationMark double :: (body ++ '\n' :: t.chars), m⟩)
      (clear (.scalar .other cs :: ts) i outer true
        ⟨t.rest, m.pass (quotationMark double :: (body ++ '\n' :: t.blanks))⟩) := by
  have hstarts : StartsText (quotationMark double :: (body ++ '\n' :: t.chars)) := by
    cases double <;> exact startsText_cons.2 (by decide)
  have hpass : m.pass (quotationMark double :: (body ++ '\n' :: t.blanks)) =
      (m.pass (quotationMark double :: body)).pass ('\n' :: t.blanks) := by
    rw [← List.cons_append, Mark.pass_append]
  have hlines : LeadsTo
      { clear (.scalar .other cs :: ts) i outer false
          ⟨'\n' :: t.chars, m.pass (quotationMark double :: body)⟩ with key := startedKey ts i b m }
      (clear (.scalar .other cs :: ts) i outer true
        ⟨t.rest, (m.pass (quotationMark double :: body)).pass ('\n' :: t.blanks)⟩) :=
    leadsTo_lines ht fun k hk => by
      obtain ⟨hrequired, rfl⟩ := required_eq_false (Int.ofNat_lt.2 hi) k hk
      exact ⟨hrequired, Mark.line_le_pass _ _⟩
  rw [hpass]
  refine (leadsTo_token hstarts (by omega) (fun fuel hfuel => ?_) ?_).trans hlines
  · rw [token?_quotationMark double (by omega)]
    refine content?_clear ?_
    have hskip : (⟨quotationMark double :: (body ++ '\n' :: t.chars), m⟩ : Cursor).skip 1 =
        ⟨body ++ '\n' :: t.chars, m.pass [quotationMark double]⟩ := by
      cases double <;> rfl
    have hfuel' : cs.length < fuel := by
      simp only [List.length_cons, List.length_append] at hfuel
      omega
    rw [hskip, quotedScalar?, hread fuel hfuel']
    rfl
  · simp only [clear, List.length_cons, List.length_append]
    omega

/-- A string between single quotation marks is read back. -/
theorem leadsTo_single (hcs : spelling cs = .single) (hi : i < m.column) (ht : StartsText t.rest) :
    LeadsTo (clear ts i outer b ⟨singleChars (i + 2) cs ++ '\n' :: t.chars, m⟩)
      (clear (.scalar .other cs :: ts) i outer true
        ⟨t.rest, m.pass (singleChars (i + 2) cs ++ '\n' :: t.blanks)⟩) := by
  obtain ⟨hlines, hallowed⟩ := spelling_eq_single hcs
  have hchar : ∀ c, 1 ≤ (singleChar c).length := fun c => by
    rw [singleChar]
    split <;> exact Nat.succ_pos _
  have hlength : cs.length ≤ (singleBody (i + 2) cs).length := by
    have hle := length_le_indentLines hchar (i + 2) false cs
    rw [singleBody, List.length_append]
    omega
  refine leadsTo_quoted false hi ht (fun fuel hfuel => ?_) hlength
  have hcolumn : 0 < (m.pass [quotationMark false]).column := Nat.succ_pos _
  have hmark : ('\n' :: t.chars).head? ≠ some '\'' := by simp
  have hread := quotedRest?_single hallowed hlines (Nat.succ_pos (i + 1)) hfuel hcolumn hmark
  rw [← Mark.pass_append] at hread
  exact hread

/-- A string between double quotation marks is read back. -/
theorem leadsTo_double (hi : i < m.column) (ht : StartsText t.rest) :
    LeadsTo (clear ts i outer b ⟨doubleChars cs ++ '\n' :: t.chars, m⟩)
      (clear (.scalar .other cs :: ts) i outer true
        ⟨t.rest, m.pass (doubleChars cs ++ '\n' :: t.blanks)⟩) := by
  have hlength : cs.length ≤ (cs.flatMap doubleChar ++ ['"']).length := by
    rw [List.length_append]
    exact Nat.le_add_right_of_le (length_le_flatMap (fun c => by
      obtain ⟨d, ds, hd, -⟩ := exists_doubleChar_cons c
      rw [hd]
      exact Nat.succ_pos _) cs)
  refine leadsTo_quoted true hi ht (fun fuel hfuel => ?_) hlength
  have hcolumn : 0 < (m.pass [quotationMark true]).column := Nat.succ_pos _
  have hread := quotedRest?_double hfuel hcolumn ('\n' :: t.chars)
  rw [← Mark.pass_append] at hread
  rw [List.append_assoc]
  exact hread

/-! ## Blocks -/

/-- A string as a block of lines is read back, with the line breaks that it keeps. -/
theorem leadsTo_block (hcs : spelling cs = .block) (hi : i < m.column) (ht : StartsText t.rest)
    (hcolumn : t.column ≤ i) :
    LeadsTo (clear ts i outer b ⟨endLine (blockChars (i + 2) cs) ++ t.chars, m⟩)
      (clear (.scalar .literal (withBreaks t.breaks cs) :: ts) i outer true
        ⟨t.rest, m.pass (endLine (blockChars (i + 2) cs) ++ t.blanks)⟩) := by
  obtain ⟨hlines, hallowed⟩ := spelling_eq_block hcs
  have hne : cs ≠ [] := List.ne_nil_of_mem hlines
  have htext := fun more => endLine_blockChars_append hne (i := i) more
  have hread : ∀ fuel, cs.length < fuel →
      blockScalar? fuel true i ⟨blockHead cs ++ blockText i cs t.chars, m.pass ['|']⟩ =
        some (withBreaks t.breaks cs,
          ⟨t.rest, m.pass ('|' :: (blockHead cs ++ blockText i cs t.blanks))⟩) := by
    intro fuel hfuel
    rw [blockScalar?_lines (isPrintable_of_allowsBlock hallowed) hne ht.1 (by omega) hfuel,
      ← Mark.pass_append]
    rfl
  -- All characters of the text are among its lines, so the fuel suffices for them.
  have hlength : cs.length + t.rest.length ≤ (blockText i cs t.chars).length := by
    have hle := length_le_indentLines (fun c => Nat.le_refl [c].length) (i + 2) true cs
    simp only [blockText, Tail.chars, List.length_append]
    omega
  rw [htext, htext]
  have hstarts : StartsText ('|' :: (blockHead cs ++ blockText i cs t.chars)) :=
    startsText_cons.2 (by decide)
  refine leadsTo_token hstarts (by omega) (fun fuel hfuel => ?_) ?_
  · have hmarker : (⟨'|' :: (blockHead cs ++ blockText i cs t.chars), m⟩ : Cursor).atDocumentMarker =
        false := atDocumentMarker_eq_false (by exact Nat.zero_lt_of_lt hi)
    have htoken : (clear ts i outer b ⟨'|' :: (blockHead cs ++ blockText i cs t.chars), m⟩).token? fuel
        '|' (blockHead cs ++ blockText i cs t.chars) =
        (clear ts i outer b ⟨'|' :: (blockHead cs ++ blockText i cs t.chars), m⟩).block? fuel true := by
      simp [token?, clear, inFlow] at hmarker ⊢
      simp [hmarker]
    rw [htoken]
    refine block?_clear (hread fuel ?_)
    simp only [List.length_cons, List.length_append] at hfuel
    omega
  · simp only [clear, List.length_cons, List.length_append]
    omega

/-! ## Strings -/

/-- **Strings.** Whatever its spelling, a string is read back. -/
theorem leadsTo_string (s : String) (hi : i < m.column) (ht : StartsText t.rest)
    (hcolumn : t.column ≤ i) :
    LeadsTo (clear ts i outer b ⟨endLine (stringChars (i + 2) s) ++ t.chars, m⟩)
      (clear (stringToken t.breaks s.toList :: ts) i outer true
        ⟨t.rest, m.pass (endLine (stringChars (i + 2) s) ++ t.blanks)⟩) := by
  rw [stringChars, stringToken, readBefore]
  cases hcs : spelling s.toList with
  | plain =>
    have htext := endLine_append (any_getLast?_eq_false (isBreak_of_spelling_plain hcs))
    dsimp only
    rw [htext, htext]
    exact leadsTo_plain (spelling_eq_plain hcs).1 (ne_nil_of_spelling_plain hcs) hi ht hcolumn
  | single =>
    have htext := endLine_append (any_getLast?_singleChars (i + 2) s.toList)
    dsimp only
    rw [htext, htext]
    exact leadsTo_single hcs hi ht
  | double =>
    have hline : ∀ c ∈ doubleChars s.toList, isBreak c = false := fun _ => isBreak_of_mem_doubleChars
    have htext := endLine_append (any_getLast?_eq_false hline)
    dsimp only
    rw [htext, htext]
    exact leadsTo_double hi ht
  | block => exact leadsTo_block hcs hi ht hcolumn

end Strings

end Lexer

end ComponentViews.Yaml
