import ComponentViews.Proofs.Yaml.Plain

/-!
# Block scalars are read back

A text of several lines is written line by line. It is read back, except that line breaks which
follow it are added if it ends with two of them, or is nothing but one.

## Main definitions

* `chompingOf`: what the header says about the line breaks at the end.
* `withBreaks`: a text as it is read if line breaks follow it.
* `blockHead`, `blockText`: the header and the lines of a text.
* `ReadsText`, `ReadsLines`: the lines of a text, or those after a header, are read back.

## Main results

* `indentation?_lines`: blank lines and indentation are found.
* `readsText`: the lines of a text are read back.
* `blockScalar?_lines`: a text of several lines is read back.
-/

namespace ComponentViews.Yaml

/-! ## Indentation -/

theorem indentation?_spaces {indent k : Nat} {m : Mark} (hk : indent = 0 ∨ m.column + k ≤ indent)
    (cs : List Char) :
    indentation? indent m (spaces k ++ cs) = indentation? indent (m.pass (spaces k)) cs := by
  induction k generalizing m with
  | zero => rfl
  | succ k ih =>
    -- Spaces are passed up to the indentation, or all of them if it is not known.
    have hwithin : (indent = 0 || m.column < indent) = true := by
      simp only [Bool.or_eq_true, decide_eq_true_eq]
      omega
    have hmore : indent = 0 ∨ (m.advance [' ']).column + k ≤ indent := by
      have hcolumn : (m.advance [' ']).column = m.column + 1 := rfl
      omega
    rw [spaces_succ, List.cons_append, indentation?, hwithin, Mark.pass_cons_of_not_break rfl,
      ← ih hmore]
    · rfl
    · intro ds h
      cases h

/-- A line that is not blank ends the indentation at its column. -/
theorem indentation?_stop {indent : Nat} {m : Mark} {cs : List Char}
    (h : ∀ c ∈ cs.head?, isBreak c = false)
    (hstop : StartsInk cs ∨ 0 < indent ∧ indent ≤ m.column) :
    indentation? indent m cs = some ([], m.column, ⟨cs, m⟩) := by
  cases cs with
  | nil => rw [indentation?]
  | cons c cs =>
    have hbreak := h c rfl
    have hreturn : c ≠ '\r' := by
      rintro rfl
      cases hbreak
    rw [indentation?]
    · obtain hstarts | ⟨hpos, hcolumn⟩ := hstop
      · have hgap := (startsInk_cons.1 hstarts).1
        simp only [isGap, Bool.or_eq_false_iff, decide_eq_false_iff_not] at hgap
        simp [hgap, hbreak]
      · have hwithin : (indent = 0 || m.column < indent) = false := by
          simp only [Bool.or_eq_false_iff, decide_eq_false_iff_not]
          omega
        simp [hwithin, hbreak]
    · rintro ds rfl
      exact absurd rfl hreturn

/-- Blank lines and indentation are found. -/
theorem indentation?_lines {indent k : Nat} {bs cs : List Char} (hbs : ∀ b ∈ bs, IsPlainBreak b)
    (hk : indent = 0 ∨ k ≤ indent) (h : ∀ c ∈ cs.head?, isBreak c = false)
    (hstop : StartsInk cs ∨ 0 < indent ∧ k = indent) {m : Mark} (hm : m.column = 0) :
    indentation? indent m (bs ++ (spaces k ++ cs)) = some (bs, k, ⟨cs, m.pass (bs ++ spaces k)⟩) := by
  induction bs generalizing m with
  | nil =>
    have hcolumn : (m.pass (spaces k)).column = k := by
      rw [Mark.column_pass fun c hc => isBreak_of_mem_spaces hc, hm, length_spaces, Nat.zero_add]
    have hstop : StartsInk cs ∨ 0 < indent ∧ indent ≤ (m.pass (spaces k)).column := by
      rw [hcolumn]
      exact hstop.imp_right fun h => ⟨h.1, Nat.le_of_eq h.2.symm⟩
    rw [List.nil_append, indentation?_spaces (by omega), indentation?_stop h hstop, hcolumn,
      List.nil_append]
  | cons b bs ih =>
    obtain ⟨hb, hbs⟩ := List.forall_mem_cons.1 hbs
    have hblank : b ≠ ' ' ∧ b ≠ '\t' := by
      constructor <;> rintro rfl <;> exact absurd hb.1 (by decide)
    -- The line is blank, and the next starts at the first column again.
    have hnewline : (m.newline [b]).column = 0 := rfl
    rw [List.cons_append, indentation?, List.cons_append, Mark.pass_cons_of_break hb.1]
    · simp [hblank, hb.1, ih hbs hnewline, hb.breakValue_eq, hm]
    · rintro ds rfl
      exact absurd rfl hb.ne_return

/-! ## Lines -/

/-- The line break at the end of a text that does not end with one. -/
def lastBreak (cs : List Char) : List Char := if cs.getLast?.any isBreak then [] else ['\n']

theorem lastBreak_append {cs ds : List Char} (h : ds ≠ []) : lastBreak (cs ++ ds) = lastBreak ds := by
  rw [lastBreak, lastBreak, any_getLast?_append h]

theorem lastBreak_line {cs : List Char} (h : ∀ c ∈ cs, isBreak c = false) : lastBreak cs = ['\n'] := by
  rw [lastBreak, any_getLast?_eq_false h]
  rfl

theorem lastBreak_breaks {cs : List Char} (h : ∀ c ∈ cs, isBreak c) (hne : cs ≠ []) :
    lastBreak cs = [] := by
  rw [lastBreak, any_getLast?_eq_true h hne]
  rfl

/-- The lines of a text, whose first is indented already. -/
def blockBody (indent : Nat) (cs : List Char) : List Char :=
  indentLines (fun c => [c]) indent false cs ++ lastBreak cs

variable {indent fuel : Nat} {afterGap : Bool} {final further : List Char} {m : Mark} {t : Tail}

/-- One line of a block, with the line breaks after it and the indentation of what follows. -/
theorem blockLines?_line {line bs more : List Char} {b : Char} {k : Nat}
    (hline : ∀ c ∈ line, isBreak c = false) (hne : line ≠ []) (hbs : ∀ c ∈ b :: bs, IsPlainBreak c)
    (hk : k ≤ indent) (hmore : ∀ c ∈ more.head?, isBreak c = false) (hindent : 0 < indent)
    (hstop : StartsInk more ∨ k = indent) (hm : m.column = indent) {lines : BlockLines} {last : Cursor}
    (hrest : blockLines? true indent fuel (startsWithAny [' ', '\t'] line) [b] bs
      ⟨more, m.pass (line ++ (b :: bs ++ spaces k))⟩ = some (lines, last)) :
    blockLines? true indent (fuel + 1) afterGap final further
      ⟨line ++ (b :: bs ++ (spaces k ++ more)), m⟩ =
        some ({ lines with text := final ++ further ++ (line ++ lines.text) }, last) := by
  have hb := hbs b List.mem_cons_self
  -- The line, its line break, and the empty lines after it are passed one by one.
  have hempty : (line ++ (b :: bs ++ (spaces k ++ more))).isEmpty = false := by
    cases line <;> rfl
  have hgap : startsWithAny [' ', '\t'] (line ++ (b :: bs ++ (spaces k ++ more))) =
      startsWithAny [' ', '\t'] line := by
    cases line with
    | nil => exact absurd rfl hne
    | cons c line => rfl
  have htake : (line ++ (b :: bs ++ (spaces k ++ more))).takeWhile (fun c => !isBreak c) = line := by
    rw [List.takeWhile_append_of_pos fun c hc => by rw [hline c hc]; rfl]
    simp [hb.1]
  have hskip : (⟨line ++ (b :: bs ++ (spaces k ++ more)), m⟩ : Cursor).skip line.length =
      ⟨b :: bs ++ (spaces k ++ more), m.pass line⟩ :=
    Mark.skip_append hline _ m
  have hbreak : (⟨b :: bs ++ (spaces k ++ more), m.pass line⟩ : Cursor).skipBreak =
      ⟨bs ++ (spaces k ++ more), (m.pass line).newline [b]⟩ := by
    rw [Cursor.skipBreak]
    split
    · rename_i heq
      exact absurd (List.cons.inj heq).1 hb.ne_return
    · rename_i heq
      obtain ⟨rfl, rfl⟩ := List.cons.inj heq
      rw [if_pos hb.1]
      rfl
    · rename_i heq
      cases heq
  have hvalue : breakText (b :: bs ++ (spaces k ++ more)) = [b] := by
    rw [List.cons_append, breakText, if_pos hb.1, hb.breakValue_eq]
  have hblank : indentation? indent ((m.pass line).newline [b]) (bs ++ (spaces k ++ more)) =
      some (bs, k, ⟨more, m.pass (line ++ (b :: bs ++ spaces k))⟩) := by
    rw [indentation?_lines (fun c hc => hbs c (List.mem_cons_of_mem _ hc)) (.inr hk) hmore
      (hstop.imp_right fun h => ⟨hindent, h⟩) rfl, Mark.pass_append m line, List.cons_append,
      Mark.pass_cons_of_break hb.1]
  rw [blockLines?]
  simp only [Cursor.column, hm, hempty, htake, hskip, hbreak, hblank, hgap, Option.bind_eq_bind,
    Option.bind_some]
  rw [hvalue, hrest]
  simp [joinLines]

theorem blockLines?_stop (hfuel : 0 < fuel) {c : Cursor} (hcolumn : c.column ≠ indent) :
    blockLines? true indent fuel afterGap final further c = some (⟨[], final, further⟩, c) := by
  obtain ⟨fuel, rfl⟩ := Nat.exists_eq_succ_of_ne_zero (Nat.ne_of_gt hfuel)
  rw [blockLines?]
  simp [hcolumn]

/-- The line breaks after the last line, of which the last may not be in the text. -/
theorem exists_lastBreaks {line trail : List Char} (hline : ∀ c ∈ line, isBreak c = false)
    (htrail : ∀ c ∈ trail, IsPlainBreak c) :
    ∃ b bs, trail ++ lastBreak (line ++ trail) = b :: bs ∧ ∀ c ∈ b :: bs, IsPlainBreak c := by
  cases trail with
  | nil =>
    rw [List.append_nil, lastBreak_line hline]
    exact ⟨'\n', [], rfl, List.forall_mem_singleton.2 isPlainBreak_lineFeed⟩
  | cons b trail =>
    rw [lastBreak_append (List.cons_ne_nil _ _),
      lastBreak_breaks (fun c hc => (htrail c hc).1) (List.cons_ne_nil _ _), List.append_nil]
    exact ⟨b, trail, rfl, htrail⟩

/-- The last line of a block. -/
theorem blockLines?_last {line bs : List Char} {b : Char} (hline : ∀ c ∈ line, isBreak c = false)
    (hne : line ≠ []) (hbs : ∀ c ∈ b :: bs, IsPlainBreak c) (ht : StartsInk t.rest)
    (hcolumn : t.column < indent) (hfuel : 0 < fuel) (hm : m.column = indent) :
    blockLines? true indent (fuel + 1) afterGap final further ⟨line ++ (b :: bs ++ t.chars), m⟩ =
      some (⟨final ++ further ++ line, [b], bs ++ List.replicate t.breaks '\n'⟩,
        ⟨t.rest, m.pass (line ++ (b :: bs ++ t.blanks))⟩) := by
  have hall : ∀ c ∈ b :: (bs ++ List.replicate t.breaks '\n'), IsPlainBreak c := fun c hc => by
    rw [← List.cons_append, List.mem_append] at hc
    exact hc.elim (hbs c) isPlainBreak_of_mem_replicate
  -- What follows is further left, so there is no other line.
  have hstop : blockLines? true indent fuel (startsWithAny [' ', '\t'] line) [b]
      (bs ++ List.replicate t.breaks '\n')
      ⟨t.rest, m.pass (line ++ (b :: (bs ++ List.replicate t.breaks '\n') ++ spaces t.column))⟩ =
      some (⟨[], _, _⟩, _) := blockLines?_stop hfuel (by
    rw [Cursor.column, Mark.pass_append,
      Mark.column_pass_indentation (fun c hc => (hall c hc).1) (List.cons_ne_nil _ _)]
    omega)
  have hread : blockLines? true indent (fuel + 1) afterGap final further
      ⟨line ++ (b :: (bs ++ List.replicate t.breaks '\n') ++ (spaces t.column ++ t.rest)), m⟩ = _ :=
    blockLines?_line hline hne hall (Nat.le_of_lt hcolumn) (fun c hc => (ht c hc).2) (by omega)
      (.inl ht) hm hstop
  rw [Tail.chars, Tail.blanks]
  simp only [List.cons_append, List.append_assoc, List.append_nil] at hread ⊢
  exact hread

theorem blockBody_last {line trail : List Char} (hline : ∀ c ∈ line, isBreak c = false)
    (htrail : ∀ c ∈ trail, isBreak c) (indent : Nat) :
    blockBody indent (line ++ trail) = line ++ (trail ++ lastBreak (line ++ trail)) := by
  rw [blockBody, indentLines_line hline, List.flatMap_singleton', List.append_assoc]
  cases trail with
  | nil => rfl
  | cons b trail =>
    have hbreaks : indentLines (fun c => [c]) indent false (b :: trail ++ []) = b :: trail ++ [] :=
      indentLines_breaks htrail (List.cons_ne_nil _ _) false []
    rw [List.append_nil] at hbreaks
    rw [hbreaks]

theorem blockBody_line {line bs more : List Char} (hline : ∀ c ∈ line, isBreak c = false)
    (hbs : ∀ c ∈ bs, isBreak c) (hne : bs ≠ []) (hmore : more ≠ [])
    (hhead : ∀ c ∈ more.head?, isBreak c = false) (indent : Nat) :
    blockBody indent (line ++ (bs ++ more)) =
      line ++ (bs ++ (spaces indent ++ blockBody indent more)) := by
  obtain ⟨c, more, rfl⟩ := List.exists_cons_of_ne_nil hmore
  have hlast : lastBreak (line ++ (bs ++ c :: more)) = lastBreak (c :: more) := by
    rw [← List.append_assoc, lastBreak_append hmore]
  rw [blockBody, indentLines_line hline, List.flatMap_singleton', indentLines_breaks hbs hne,
    indentLines_true (hhead c rfl), hlast, blockBody]
  simp only [List.append_assoc]

theorem head?_blockBody {cs : List Char} (hne : cs ≠ []) (hhead : ∀ c ∈ cs.head?, isBreak c = false)
    (more : List Char) : (blockBody indent cs ++ more).head? = cs.head? := by
  obtain ⟨c, cs, rfl⟩ := List.exists_cons_of_ne_nil hne
  rw [blockBody, indentLines, hhead c rfl]
  rfl

/-- The lines of a text are read back, whatever lines come before them. The line breaks at its end are
told apart from the rest, since the header says what becomes of them. -/
def ReadsText (indent fuel : Nat) (t : Tail) (cs : List Char) : Prop :=
  ∃ body trail b bs, cs = body ++ trail ∧ body ≠ [] ∧ body.getLast?.any isBreak = false ∧
    (∀ c ∈ trail, isBreak c) ∧ trail ++ lastBreak cs = b :: bs ∧
    ∀ (afterGap : Bool) (final further : List Char) (m : Mark), m.column = indent →
      blockLines? true indent fuel afterGap final further ⟨blockBody indent cs ++ t.chars, m⟩ =
        some (⟨final ++ further ++ body, [b], bs ++ List.replicate t.breaks '\n'⟩,
          ⟨t.rest, m.pass (blockBody indent cs ++ t.blanks)⟩)

/-- A text of a single line. -/
theorem readsText_last {line trail : List Char} (hline : ∀ c ∈ line, isBreak c = false)
    (hne : line ≠ []) (htrail : ∀ c ∈ trail, IsPlainBreak c) (ht : StartsInk t.rest)
    (hcolumn : t.column < indent) (hfuel : 0 < fuel) :
    ReadsText indent (fuel + 1) t (line ++ trail) := by
  have htrail' : ∀ c ∈ trail, isBreak c := fun c hc => (htrail c hc).1
  obtain ⟨b, bs, hbreaks, hplain⟩ := exists_lastBreaks hline htrail
  refine ⟨line, trail, b, bs, rfl, hne, any_getLast?_eq_false hline, htrail', hbreaks, ?_⟩
  intro afterGap final further m hm
  rw [blockBody_last hline htrail', hbreaks, List.append_assoc line, List.append_assoc line]
  exact blockLines?_last hline hne hplain ht hcolumn hfuel hm

/-- A line before a text that begins with another. -/
theorem readsText_line {line bs more : List Char} (hline : ∀ c ∈ line, isBreak c = false)
    (hne : line ≠ []) (hbs : ∀ c ∈ bs, IsPlainBreak c) (hbsne : bs ≠ []) (hmorene : more ≠ [])
    (hmore : ∀ c ∈ more.head?, isBreak c = false) (hindent : 0 < indent)
    (hread : ReadsText indent fuel t more) :
    ReadsText indent (fuel + 1) t (line ++ (bs ++ more)) := by
  have hbreaks : ∀ c ∈ bs, isBreak c := fun c hc => (hbs c hc).1
  have hstarts : ∀ c ∈ (blockBody indent more ++ t.chars).head?, isBreak c = false := by
    rwa [head?_blockBody hmorene hmore]
  obtain ⟨body, trail, b', bs', rfl, hbody, hlast, htrail, hend, hrest⟩ := hread
  obtain ⟨b, bs, rfl⟩ := List.exists_cons_of_ne_nil hbsne
  refine ⟨line ++ (b :: bs ++ body), trail, b', bs', ?_, ?_, ?_, htrail, ?_, ?_⟩
  · simp only [List.append_assoc]
  · simp
  · rw [← List.append_assoc, any_getLast?_append hbody, hlast]
  · rw [← List.append_assoc line, lastBreak_append hmorene, hend]
  · intro afterGap final further m hm
    have hcolumn : (m.pass (line ++ (b :: bs ++ spaces indent))).column = indent := by
      rw [Mark.pass_append, Mark.column_pass_indentation hbreaks hbsne]
    have hall : blockLines? true indent (fuel + 1) afterGap final further
        ⟨line ++ (b :: bs ++ (spaces indent ++ (blockBody indent (body ++ trail) ++ t.chars))), m⟩ = _ :=
      blockLines?_line hline hne hbs (Nat.le_refl indent) hstarts hindent (.inr rfl) hm
        (hrest _ _ _ _ hcolumn)
    rw [blockBody_line hline hbreaks hbsne hmorene hmore]
    simp only [List.append_assoc, ← Mark.pass_append] at hall ⊢
    exact hall

/-- A text begins with a line, and the line breaks after it. -/
theorem exists_line {cs : List Char} (hne : cs ≠ []) (hhead : ∀ c ∈ cs.head?, isBreak c = false) :
    ∃ line bs more, cs = line ++ (bs ++ more) ∧ (∀ c ∈ line, isBreak c = false) ∧ line ≠ [] ∧
      (∀ c ∈ bs, isBreak c) ∧ (more = [] ∨ bs ≠ []) ∧ ∀ c ∈ more.head?, isBreak c = false := by
  obtain ⟨line, rest, rfl, hline, hrest⟩ := exists_span (fun c => !isBreak c) cs
  have hrest : ∀ c ∈ rest.head?, isBreak c := fun c hc => by simpa using hrest c hc
  have hlinene : line ≠ [] := by
    rintro rfl
    obtain ⟨c, rest, rfl⟩ := List.exists_cons_of_ne_nil hne
    exact absurd (hrest c rfl) (by rw [hhead c rfl]; decide)
  obtain ⟨bs, more, rfl, hbs, hmore⟩ := exists_span isBreak rest
  refine ⟨line, bs, more, rfl, fun c hc => by simpa using hline c hc, hlinene, hbs, ?_, hmore⟩
  -- Without line breaks the line would go on.
  cases more with
  | nil => exact .inl rfl
  | cons d more =>
    right
    rintro rfl
    exact absurd (hrest d rfl) (by rw [hmore d rfl]; decide)

/-- The lines of a text are read back. -/
theorem readsText {cs : List Char} (hprintable : ∀ c ∈ cs, isPrintable c) (hne : cs ≠ [])
    (hhead : ∀ c ∈ cs.head?, isBreak c = false) (ht : StartsInk t.rest) (hcolumn : t.column < indent)
    (hfuel : cs.length < fuel) : ReadsText indent fuel t cs := by
  -- Each line takes a step, with the line breaks after it.
  induction fuel generalizing cs with
  | zero => cases hfuel
  | succ fuel ih =>
    obtain ⟨line, bs, more, rfl, hline, hlinene, hbs, hcases, hmore⟩ := exists_line hne hhead
    have hplain : ∀ c ∈ bs, IsPlainBreak c := fun c hc => ⟨hbs c hc, hprintable c (by simp [hc])⟩
    have hlength := List.length_pos_iff.2 hlinene
    rw [List.length_append, List.length_append] at hfuel
    by_cases hmorene : more = []
    · subst hmorene
      rw [List.append_nil]
      exact readsText_last hline hlinene hplain ht hcolumn (by omega)
    · have hrest : ReadsText indent fuel t more :=
        ih (fun c hc => hprintable c (by simp [hc])) hmorene hmore (by omega)
      exact readsText_line hline hlinene hplain (hcases.resolve_left hmorene) hmorene hmore (by omega)
        hrest

/-! ## Headers -/

/-- What becomes of the line breaks at the end of a text, so that it is read back. -/
def chompingOf (cs : List Char) : Chomping :=
  match cs.reverse with
  | [] => .strip
  | [c] => if isBreak c then .keep else .strip
  | c :: d :: _ => if !isBreak c then .strip else if isBreak d then .keep else .clip

/-- The sign for what becomes of line breaks. -/
def Chomping.chars : Chomping → List Char
  | .strip => ['-']
  | .clip => []
  | .keep => ['+']

theorem chompingChars_eq (cs : List Char) : chompingChars cs = (chompingOf cs).chars := by
  rw [chompingChars, chompingOf]
  rcases cs.reverse with _ | ⟨c, _ | ⟨d, more⟩⟩
  · rfl
  · dsimp only
    split_ifs <;> rfl
  · dsimp only
    split_ifs <;> rfl

theorem chompingOf_strip {cs : List Char} {d : Char} (hd : isBreak d = false) :
    chompingOf (cs ++ [d]) = .strip := by
  rw [chompingOf, List.reverse_append, List.reverse_singleton, List.singleton_append]
  cases cs.reverse with
  | nil => simp [hd]
  | cons e es => simp [hd]

theorem chompingOf_clip {cs : List Char} {d b : Char} (hd : isBreak d = false) (hb : isBreak b) :
    chompingOf (cs ++ [d, b]) = .clip := by
  rw [chompingOf, List.reverse_append]
  simp [hd, hb]

theorem chompingOf_keep {cs bs : List Char} (hbs : ∀ b ∈ bs, isBreak b) (hlength : 1 < bs.length) :
    chompingOf (cs ++ bs) = .keep := by
  have hreverse : ∀ b ∈ bs.reverse, isBreak b := fun b hb => hbs b (List.mem_reverse.1 hb)
  rw [← List.length_reverse] at hlength
  rw [chompingOf, List.reverse_append]
  generalize bs.reverse = reversed at hreverse hlength
  match reversed, hlength with
  | c :: d :: more, _ =>
    simp [hreverse c List.mem_cons_self, hreverse d (List.mem_cons_of_mem _ List.mem_cons_self)]

theorem chompingOf_breaks {cs : List Char} (h : ∀ c ∈ cs, isBreak c) (hne : cs ≠ []) :
    chompingOf cs = .keep := by
  rw [chompingOf]
  split
  · rename_i hreverse
    exact absurd (List.reverse_eq_nil_iff.1 hreverse) hne
  · rename_i c hreverse
    rw [if_pos (h c (List.mem_reverse.1 (by simp [hreverse])))]
  · rename_i c d more hreverse
    rw [h c (List.mem_reverse.1 (by simp [hreverse])), h d (List.mem_reverse.1 (by simp [hreverse]))]
    rfl

/-- A text as it is read if line breaks follow it. -/
def withBreaks (n : Nat) (cs : List Char) : List Char :=
  if chompingOf cs = .keep then cs ++ List.replicate n '\n' else cs

/-- The lines of a text have the text as their value. -/
theorem value_lines {front body trail bs : List Char} {b : Char} {n : Nat} (hbody : body ≠ [])
    (hlast : body.getLast?.any isBreak = false) (htrail : ∀ c ∈ trail, isBreak c)
    (hbreaks : trail ++ lastBreak (front ++ (body ++ trail)) = b :: bs) :
    (⟨front ++ body, [b], bs ++ List.replicate n '\n'⟩ : BlockLines).value
      (chompingOf (front ++ (body ++ trail))) = withBreaks n (front ++ (body ++ trail)) := by
  obtain ⟨body, d, rfl⟩ := List.eq_nil_or_concat body |>.resolve_left hbody
  rw [List.concat_eq_append] at *
  have hd : isBreak d = false := by simpa using hlast
  cases trail with
  | nil =>
    have hchomping : chompingOf (front ++ ((body ++ [d]) ++ [])) = .strip := by
      rw [List.append_nil, ← List.append_assoc, chompingOf_strip hd]
    rw [withBreaks, hchomping]
    simp [BlockLines.value]
  | cons x trail =>
    have hx := htrail x List.mem_cons_self
    -- One line break at the end is what a header without a sign stands for.
    rw [lastBreak, any_getLast?_append (by simp), any_getLast?_append (List.cons_ne_nil _ _),
      any_getLast?_eq_true htrail (List.cons_ne_nil _ _), if_pos rfl, List.append_nil] at hbreaks
    obtain ⟨rfl, rfl⟩ := List.cons.inj hbreaks
    rcases trail with _ | ⟨y, trail⟩
    · have hchomping : chompingOf (front ++ ((body ++ [d]) ++ [x])) = .clip := by
        rw [List.append_assoc body, ← List.append_assoc]
        exact chompingOf_clip hd hx
      rw [withBreaks, hchomping]
      simp [BlockLines.value]
    · have hchomping : chompingOf (front ++ ((body ++ [d]) ++ x :: y :: trail)) = .keep := by
        rw [← List.append_assoc]
        exact chompingOf_keep htrail (Nat.succ_lt_succ (Nat.succ_pos _))
      rw [withBreaks, hchomping]
      simp [BlockLines.value]

/-! ## Scalars -/

/-- The sign for the indentation, where it cannot be seen at the first line. -/
def hintChars (cs : List Char) : List Char := if cs.head?.any isOuter then ['2'] else []

/-- The signs after the first, and the line break. -/
def blockHead (cs : List Char) : List Char := hintChars cs ++ ((chompingOf cs).chars ++ ['\n'])

theorem blockHeader?_head (cs rest : List Char) :
    blockHeader? (blockHead cs ++ rest) =
      some (⟨chompingOf cs, (hintChars cs).length * 2⟩,
        (hintChars cs ++ (chompingOf cs).chars).length) := by
  rw [blockHead, hintChars]
  split <;> cases chompingOf cs <;> rfl

/-- The header is passed. -/
theorem endHeader?_head (cs rest : List Char) (m : Mark) :
    endHeader? ((⟨blockHead cs ++ rest, m⟩ : Cursor).skip
      (hintChars cs ++ (chompingOf cs).chars).length) = some ⟨rest, m.pass (blockHead cs)⟩ := by
  have hline : ∀ c ∈ hintChars cs ++ (chompingOf cs).chars, isBreak c = false := by
    rw [hintChars]
    split <;> cases chompingOf cs <;> simp [Chomping.chars, isBreak]
  have hsplit : blockHead cs ++ rest = (hintChars cs ++ (chompingOf cs).chars) ++ '\n' :: rest := by
    rw [blockHead, List.append_assoc, List.append_assoc, List.append_assoc, List.singleton_append]
  have hend : ∀ m : Mark, endHeader? ⟨'\n' :: rest, m⟩ = some ⟨rest, m.newline ['\n']⟩ := fun m => by
    simp [endHeader?, Cursor.skipWhile, Cursor.skip, isGap, startsWithAny, startsBreak, isBreak,
      Cursor.skipBreak, Mark.advance, byteCount]
  rw [hsplit, Mark.skip_append hline, hend, blockHead, ← List.append_assoc, Mark.pass_append _ (_ ++ _)]
  rfl

/-- The indentation that the header tells, within indentation of a column. -/
def knownIndent (i : Nat) (cs : List Char) : Nat :=
  if (hintChars cs).length * 2 = 0 then 0 else (i : Int).toNat + (hintChars cs).length * 2

theorem knownIndent_of_outer {cs : List Char} (h : cs.head?.any isOuter) (i : Nat) :
    knownIndent i cs = i + 2 := by
  rw [knownIndent, hintChars, if_pos h]
  rfl

theorem knownIndent_of_not_outer {cs : List Char} (h : cs.head?.any isOuter = false) (i : Nat) :
    knownIndent i cs = 0 := by
  rw [knownIndent, hintChars, h]
  rfl

/-- The lines of a text after the header, and what follows them. -/
def blockText (i : Nat) (cs more : List Char) : List Char :=
  indentLines (fun c => [c]) (i + 2) true cs ++ (lastBreak cs ++ more)

/-- The lines after the header are read: the blank lines before the first, and the lines. -/
def ReadsLines (i fuel : Nat) (cs : List Char) (t : Tail) (m : Mark) : Prop :=
  ∃ breaks most next lines,
    indentation? (knownIndent i cs) m (blockText i cs t.chars) = some (breaks, most, next) ∧
    (knownIndent i cs = i + 2 ∨ knownIndent i cs = 0 ∧ most = i + 2) ∧
    blockLines? true (i + 2) fuel false [] breaks next =
      some (lines, ⟨t.rest, m.pass (blockText i cs t.blanks)⟩) ∧
    lines.value (chompingOf cs) = withBreaks t.breaks cs

/-- Lines that are all empty. -/
theorem readsLines_breaks {cs : List Char} (hcs : ∀ c ∈ cs, IsPlainBreak c) (hne : cs ≠ [])
    (ht : StartsInk t.rest) {i : Nat} (hcolumn : t.column < i + 2) (hfuel : 0 < fuel)
    (hm : m.column = 0) : ReadsLines i fuel cs t m := by
  have hbreaks : ∀ c ∈ cs, isBreak c := fun c hc => (hcs c hc).1
  have hall : ∀ c ∈ cs ++ List.replicate t.breaks '\n', IsPlainBreak c := fun c hc =>
    (List.mem_append.1 hc).elim (hcs c) isPlainBreak_of_mem_replicate
  have htext : ∀ more, blockText i cs more = cs ++ more := fun more => by
    have h : indentLines (fun c => [c]) (i + 2) true (cs ++ []) = cs ++ [] :=
      indentLines_breaks hbreaks hne true []
    rw [List.append_nil] at h
    rw [blockText, h, lastBreak_breaks hbreaks hne, List.nil_append]
  -- The first character is a line break, so the header tells the indentation.
  have houter : cs.head?.any isOuter := by
    obtain ⟨c, cs, rfl⟩ := List.exists_cons_of_ne_nil hne
    simp [isOuter, hbreaks c List.mem_cons_self]
  have hread : indentation? (knownIndent i cs) m (blockText i cs t.chars) =
      some (cs ++ List.replicate t.breaks '\n', t.column,
        ⟨t.rest, m.pass (blockText i cs t.blanks)⟩) := by
    rw [knownIndent_of_outer houter, htext, htext, Tail.chars, Tail.blanks, List.append_assoc,
      ← List.append_assoc cs, ← List.append_assoc cs]
    exact indentation?_lines hall (.inr (Nat.le_of_lt hcolumn)) (fun c hc => (ht c hc).2) (.inl ht) hm
  have hend : (m.pass (blockText i cs t.blanks)).column ≠ i + 2 := by
    rw [htext, Tail.blanks, ← List.append_assoc,
      Mark.column_pass_lines (fun c hc => (hall c hc).1) _ hm]
    exact Nat.ne_of_lt hcolumn
  refine ⟨_, _, _, _, hread, .inl (knownIndent_of_outer houter i), blockLines?_stop hfuel hend, ?_⟩
  rw [withBreaks, chompingOf_breaks hbreaks hne]
  rfl

theorem blockText_append {front core : List Char} (hfront : ∀ c ∈ front, isBreak c) (hne : core ≠ [])
    (hcore : ∀ c ∈ core.head?, isBreak c = false) (i : Nat) (more : List Char) :
    blockText i (front ++ core) more =
      front ++ (spaces (i + 2) ++ (blockBody (i + 2) core ++ more)) := by
  have hlines : indentLines (fun c => [c]) (i + 2) true (front ++ core) =
      front ++ (spaces (i + 2) ++ indentLines (fun c => [c]) (i + 2) false core) := by
    obtain ⟨d, core, rfl⟩ := List.exists_cons_of_ne_nil hne
    cases front with
    | nil => exact indentLines_true (hcore d rfl) core
    | cons b front =>
      rw [indentLines_breaks hfront (List.cons_ne_nil _ _), indentLines_true (hcore d rfl)]
  rw [blockText, hlines, lastBreak_append hne, blockBody]
  simp only [List.append_assoc]

/-- Either the header tells the indentation, or there are no empty lines before the first line, which
does not begin with a space. -/
theorem knownIndent_append {front core : List Char} (hprintable : ∀ c ∈ core, isPrintable c)
    (hfront : ∀ c ∈ front, isBreak c) (hcore : ∀ c ∈ core.head?, isBreak c = false) (i : Nat) :
    knownIndent i (front ++ core) = i + 2 ∨ knownIndent i (front ++ core) = 0 ∧ StartsInk core := by
  cases houter : (front ++ core).head?.any isOuter with
  | true => exact .inl (knownIndent_of_outer houter i)
  | false =>
    refine .inr ⟨knownIndent_of_not_outer houter i, fun c hc => ?_⟩
    obtain rfl : front = [] := by
      rcases front with _ | ⟨b, front⟩
      · rfl
      · simp [isOuter, hfront b List.mem_cons_self] at houter
    have hspace : c ≠ ' ' := by
      rintro rfl
      simp [Option.mem_def.1 hc, isOuter] at houter
    rw [isGap_of_isPrintable (hprintable c (List.mem_of_mem_head? hc)), decide_eq_false hspace]
    exact ⟨rfl, hcore c hc⟩

/-- Empty lines, and lines of which the first is not empty. -/
theorem readsLines_append {front core : List Char} (hprintable : ∀ c ∈ front ++ core, isPrintable c)
    (hfront : ∀ c ∈ front, isBreak c) (hne : core ≠ []) (hcore : ∀ c ∈ core.head?, isBreak c = false)
    (ht : StartsInk t.rest) {i : Nat} (hcolumn : t.column < i + 2)
    (hfuel : (front ++ core).length < fuel) (hm : m.column = 0) :
    ReadsLines i fuel (front ++ core) t m := by
  obtain ⟨hfrontprintable, hcoreprintable⟩ := List.forall_mem_append.1 hprintable
  have hplain : ∀ c ∈ front, IsPlainBreak c := fun c hc => ⟨hfront c hc, hfrontprintable c hc⟩
  have htext := blockText_append hfront hne hcore i
  have hhead : (blockBody (i + 2) core ++ t.chars).head? = core.head? := head?_blockBody hne hcore _
  have hknown := knownIndent_append hcoreprintable hfront hcore i
  have hstop : StartsInk (blockBody (i + 2) core ++ t.chars) ∨
      0 < knownIndent i (front ++ core) ∧ i + 2 = knownIndent i (front ++ core) := by
    rw [StartsInk, hhead]
    exact hknown.symm.imp (·.2) fun h => by omega
  have hread : indentation? (knownIndent i (front ++ core)) m
      (front ++ (spaces (i + 2) ++ (blockBody (i + 2) core ++ t.chars))) =
        some (front, i + 2, ⟨blockBody (i + 2) core ++ t.chars, m.pass (front ++ spaces (i + 2))⟩) :=
    indentation?_lines hplain (by omega) (by rwa [hhead]) hstop hm
  have hstart : (m.pass (front ++ spaces (i + 2))).column = i + 2 :=
    Mark.column_pass_lines hfront _ hm
  have hshorter : core.length < fuel := by
    rw [List.length_append] at hfuel
    omega
  obtain ⟨body, trail, b, bs, rfl, hbody, hlast, htrail, hbreaks, hrest⟩ :=
    readsText hcoreprintable hne hcore ht hcolumn hshorter
  rw [← lastBreak_append hne] at hbreaks
  refine ⟨front, i + 2, _, _, (htext _).symm ▸ hread, hknown.imp_right fun h => ⟨h.1, rfl⟩, ?_,
    value_lines hbody hlast htrail hbreaks⟩
  rw [htext, ← List.append_assoc front, Mark.pass_append m (front ++ _)]
  exact hrest false [] front _ hstart

/-- **Blocks.** A text of several lines is read back, with the line breaks that it keeps. -/
theorem blockScalar?_lines {cs : List Char} (hprintable : ∀ c ∈ cs, isPrintable c) (hne : cs ≠ [])
    (ht : StartsInk t.rest) {i : Nat} (hcolumn : t.column < i + 2) (hfuel : cs.length < fuel)
    (m : Mark) :
    blockScalar? fuel true i ⟨blockHead cs ++ blockText i cs t.chars, m⟩ =
      some (withBreaks t.breaks cs, ⟨t.rest, m.pass (blockHead cs ++ blockText i cs t.blanks)⟩) := by
  have hstart : (m.pass (blockHead cs)).column = 0 := by
    rw [blockHead, ← List.append_assoc, Mark.pass_append]
    rfl
  have hlines : ReadsLines i fuel cs t (m.pass (blockHead cs)) := by
    obtain ⟨front, core, rfl, hfront, hcore⟩ := exists_span isBreak cs
    by_cases hcorene : core = []
    · subst hcorene
      rw [List.append_nil] at *
      exact readsLines_breaks (fun c hc => ⟨hfront c hc, hprintable c hc⟩) hne ht hcolumn
        (Nat.zero_lt_of_lt hfuel) hstart
    · exact readsLines_append hprintable hfront hcorene hcore ht hcolumn hfuel hstart
  obtain ⟨breaks, most, next, lines, hread, hmost, hrest, hvalue⟩ := hlines
  rw [blockScalar?, blockHeader?_head, Mark.pass_append]
  simp only [Option.bind_eq_bind, Option.bind_some]
  rw [endHeader?_head, ← knownIndent]
  simp only [Option.bind_some]
  rw [hread]
  simp only [Option.bind_some]
  have hindent : (if knownIndent i cs = 0 then max (max most ((i : Int) + 1).toNat) 1
      else knownIndent i cs) = i + 2 := by
    split <;> omega
  rw [hindent, hrest]
  simp only [Option.bind_some]
  rw [hvalue]
  rfl

end ComponentViews.Yaml
