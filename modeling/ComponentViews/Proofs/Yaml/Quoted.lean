import ComponentViews.Proofs.Digits
import ComponentViews.Proofs.Yaml.Plain
import Mathlib.Algebra.Ring.Nat

/-!
# Quoted scalars are read back

Between single quotation marks a text is written with line breaks as they are, and with the mark
itself twice. Between double quotation marks it is written in one line, with escapes. Either way it
consists of parts with white space between them, and is read back part by part.

## Main definitions

* `EndsSingle`, `EndsDouble`: what ends a part.
* `ReadsWhite`: what is written for white space is read back.
* `ReadsSingle`: what is written for the rest of a text is read back.

## Main results

* `charOfHex?_upperHex`, `doublePart?_doubleChar`: escapes are read back.
* `singlePart_append`, `doublePart?_append`: parts are read back.
* `readsWhite_spaces`, `readsWhite_breaks`: spaces and line breaks are read back.
* `quotedRest?_single`, `quotedRest?_double`: texts between quotation marks are read back.
-/

namespace ComponentViews.Yaml

/-! ## Hexadecimal escapes -/

theorem length_hexDigits_le {width : Nat} (hwidth : 0 < width) {n : Nat} (h : n < 16 ^ width) :
    (hexDigits n).length ≤ width := by
  induction n using hexDigits.induct generalizing width with
  | case1 n hn =>
    rw [hexDigits, if_pos hn]
    exact hwidth
  | case2 n hn ih =>
    cases width with
    | zero => cases hwidth
    | succ width =>
      have hdiv : n / 16 < 16 ^ width := Nat.div_lt_of_lt_mul (by rwa [Nat.pow_succ'] at h)
      have hpos : 0 < width := by
        rcases Nat.eq_zero_or_pos width with rfl | hpos
        · exact absurd h hn
        · exact hpos
      rw [hexDigits, if_neg hn, List.length_append, List.length_singleton]
      exact Nat.succ_le_succ (ih hpos hdiv)

theorem length_upperHex {width : Nat} (hwidth : 0 < width) {n : Nat} (h : n < 16 ^ width) :
    (upperHex width n).length = width := by
  have hlength := length_hexDigits_le hwidth h
  simp only [upperHex, List.length_append, List.length_replicate, List.length_map]
  omega

theorem hexNumber?_map_toUpper (start : Nat) {cs : List Char} (h : ∀ c ∈ cs, ∃ d < 16, c = hexDigit d) :
    hexNumber? start (cs.map Char.toUpper) = hexNumber? start cs := by
  have hupper : ∀ d < 16, hexValue? (hexDigit d).toUpper = hexValue? (hexDigit d) := by decide
  induction cs generalizing start with
  | nil => rfl
  | cons c cs ih =>
    obtain ⟨⟨d, hd, rfl⟩, hcs⟩ := List.forall_mem_cons.1 h
    rw [List.map_cons, hexNumber?, hexNumber?, hupper d hd]
    simp only [ih _ hcs]

theorem hexNumber?_upperHex (width n : Nat) : hexNumber? 0 (upperHex width n) = some n := by
  have hzeros : ∀ k, hexNumber? 0 (List.replicate k '0') = some 0 := by
    intro k
    induction k with
    | zero => rfl
    | succ k ih => exact ih
  rw [upperHex, hexNumber?_append, hzeros, Option.bind_some,
    hexNumber?_map_toUpper 0 fun _ => exists_of_mem_hexDigits, hexNumber?_hexDigits]

/-- The number of a character stands for the character. -/
theorem charOfHex?_upperHex (width : Nat) (c : Char) :
    charOfHex? (upperHex width c.toNat) = some c := by
  rw [charOfHex?, hexNumber?_upperHex, Option.bind_eq_bind, Option.bind_some]
  have hvalid : c.toNat.isValidChar := c.valid
  rw [dif_pos hvalid]
  exact congrArg some (Char.ext (UInt32.toNat_inj.1 rfl))

/-! ## Parts -/

/-- What ends a part between single quotation marks: white space, or a mark that is not doubled. -/
inductive EndsSingle : List Char → Prop
  | blank {c : Char} {cs : List Char} (h : isGap c ∨ isBreak c) : EndsSingle (c :: cs)
  | mark {cs : List Char} (h : cs.head? ≠ some '\'') : EndsSingle ('\'' :: cs)

theorem singlePart_of_ends {cs : List Char} (h : EndsSingle cs) : singlePart cs = {} := by
  cases h with
  | blank h =>
    rw [singlePart]
    · rw [if_pos (by simpa [or_assoc] using .inr h)]
    · rintro ds rfl
      simp [isGap, isBreak] at h
  | mark h =>
    rw [singlePart]
    · rfl
    · rintro ds - rfl
      exact h rfl

/-- A part is read back between single quotation marks. -/
theorem singlePart_append {word rest : List Char}
    (hword : ∀ c ∈ word, isGap c = false ∧ isBreak c = false) (hrest : EndsSingle rest) :
    singlePart (word.flatMap singleChar ++ rest) = ⟨word, (word.flatMap singleChar).length⟩ := by
  induction word with
  | nil => exact singlePart_of_ends hrest
  | cons c word ih =>
    obtain ⟨⟨hgap, hbreak⟩, hmore⟩ := List.forall_mem_cons.1 hword
    rw [List.flatMap_cons, singleChar]
    split
    · rename_i hc
      subst hc
      rw [List.append_assoc, List.cons_append, List.cons_append, List.nil_append, singlePart, ih hmore]
      rfl
    · rename_i hc
      rw [List.append_assoc, List.singleton_append, singlePart]
      · rw [ih hmore]
        simp [hc, hgap, hbreak, QuotedPart.add]
      · rintro ds rfl
        exact absurd rfl hc

/-- What ends a part between double quotation marks: a space, or the mark. -/
inductive EndsDouble : List Char → Prop
  | blank {cs : List Char} : EndsDouble (' ' :: cs)
  | mark {cs : List Char} : EndsDouble ('"' :: cs)

theorem doublePart?_of_ends {cs : List Char} (h : EndsDouble cs) : doublePart? cs = some {} := by
  cases h <;> rfl

/-- A letter after a reversed solidus stands for its character. -/
theorem doublePart?_letter {c letter : Char} (h : (c, letter) ∈ escapeLetters) (cs : List Char) :
    doublePart? ('\\' :: letter :: cs) = (doublePart? cs).map (·.add c 2) := by
  have htable : ∀ e ∈ escapeLetters, (e.2 ≠ 'x' ∧ e.2 ≠ 'u' ∧ e.2 ≠ 'U') ∧ isBreak e.2 = false ∧
      (escapes.find? fun entry => entry.1 = e.2) = some (e.2, e.1) := by decide
  -- None of the letters announces a number.
  obtain ⟨⟨hx, hu, hU⟩, hbreak, hfind⟩ := htable _ h
  rw [doublePart?, hbreak]
  · simp only [hfind]
    rw [Option.map_eq_bind]
    rfl
  all_goals
    intros
    contradiction

/-- The digits of a number make as many characters as there is room for. -/
theorem exists_digits {width : Nat} (hwidth : 0 < width) {c : Char} (h : c.toNat < 16 ^ width) :
    ∃ digits : List Char, upperHex width c.toNat = digits ∧ digits.length = width ∧
      charOfHex? digits = some c :=
  ⟨_, rfl, length_upperHex hwidth h, charOfHex?_upperHex width c⟩

/-- An escape with a number stands for its character. -/
theorem doublePart?_number {c : Char} (h : escapeLetters.lookup c = none) (cs : List Char) :
    doublePart? (escapeChars c ++ cs) = (doublePart? cs).map (·.add c (escapeChars c).length) := by
  -- The number takes two, four or eight digits, and no more are read.
  simp only [escapeChars, h]
  split_ifs with hbyte hword
  · obtain ⟨digits, hdigits, hlength, hread⟩ :=
      exists_digits (by decide) (show c.toNat < 16 ^ 2 by omega)
    obtain ⟨x, y, rfl⟩ := List.length_eq_two.1 hlength
    rw [hdigits, Option.map_eq_bind]
    simp only [List.cons_append, List.nil_append, doublePart?, hread]
    rfl
  · obtain ⟨digits, hdigits, hlength, hread⟩ :=
      exists_digits (by decide) (show c.toNat < 16 ^ 4 by omega)
    match digits, hlength with
    | [w, x, y, z], _ =>
      rw [hdigits, Option.map_eq_bind]
      simp only [List.cons_append, List.nil_append, doublePart?, hread]
      rfl
  · have hvalid : c.toNat.isValidChar := c.valid
    have hbound : c.toNat < 16 ^ 8 := by
      rw [Nat.isValidChar] at hvalid
      omega
    obtain ⟨digits, hdigits, hlength, hread⟩ := exists_digits (by decide) hbound
    match digits, hlength with
    | [s, t, u, v, w, x, y, z], _ =>
      rw [hdigits, Option.map_eq_bind]
      simp only [List.cons_append, List.nil_append, doublePart?, hread]
      rfl

/-- A character other than the space is read back between double quotation marks. -/
theorem doublePart?_doubleChar {c : Char} (hc : c ≠ ' ') (cs : List Char) :
    doublePart? (doubleChar c ++ cs) = (doublePart? cs).map (·.add c (doubleChar c).length) := by
  rw [doubleChar]
  split
  · cases hletter : escapeLetters.lookup c with
    | none => exact doublePart?_number hletter cs
    | some letter =>
      obtain ⟨before, after, hsplit, -⟩ := List.lookup_eq_some_iff.1 hletter
      have hmem : (c, letter) ∈ escapeLetters := by simp [hsplit]
      simp only [escapeChars, hletter]
      exact doublePart?_letter hmem cs
  · rename_i hplain
    simp only [Bool.or_eq_true, not_or, Bool.not_eq_true, Bool.not_eq_false',
      decide_eq_true_eq] at hplain
    obtain ⟨⟨⟨hprintable, hbreak⟩, hmark⟩, hescape⟩ := hplain
    have hgap : isGap c = false := by
      rw [isGap_of_isPrintable (by simpa using hprintable), decide_eq_false hc]
    rw [List.singleton_append, doublePart?, if_neg (by simp [hmark, hgap, hbreak]), Option.map_eq_bind]
    · rfl
    all_goals
      intros
      contradiction

/-- A part is read back between double quotation marks. -/
theorem doublePart?_append {word rest : List Char} (hword : ∀ c ∈ word, c ≠ ' ')
    (hrest : EndsDouble rest) :
    doublePart? (word.flatMap doubleChar ++ rest) = some ⟨word, (word.flatMap doubleChar).length⟩ := by
  induction word with
  | nil => exact doublePart?_of_ends hrest
  | cons c word ih =>
    obtain ⟨hc, hword⟩ := List.forall_mem_cons.1 hword
    rw [List.flatMap_cons, List.append_assoc, doublePart?_doubleChar hc, ih hword, List.length_append,
      Option.map_some, QuotedPart.add, Nat.add_comm]

/-! ## Scalars -/

/-- The mark around a scalar. -/
def quotationMark (double : Bool) : Char := if double then '"' else '\''

/-- The part that comes first. -/
def quotedPart? (double : Bool) (cs : List Char) : Option QuotedPart :=
  if double then doublePart? cs else some (singlePart cs)

section Rest

variable {double : Bool} {part text rest : List Char} {m : Mark} {fuel : Nat}
  (hcolumn : 0 < m.column) (hline : ∀ c ∈ part, isBreak c = false)
  (hpart : quotedPart? double (part ++ rest) = some ⟨text, part.length⟩)
include hcolumn hline hpart

/-- A part before the mark at the end is the rest of a scalar. -/
theorem quotedRest?_mark {tail : List Char} (hrest : rest = quotationMark double :: tail) :
    quotedRest? double (fuel + 1) ⟨part ++ rest, m⟩ =
      some (text, ⟨tail, m.pass (part ++ [quotationMark double])⟩) := by
  have hmarker : (⟨part ++ rest, m⟩ : Cursor).atDocumentMarker = false :=
    atDocumentMarker_eq_false hcolumn
  have hskip : (⟨part ++ rest, m⟩ : Cursor).skip part.length = ⟨rest, m.pass part⟩ :=
    Mark.skip_append hline rest m
  rw [quotedRest?, hmarker]
  subst hrest
  have hafter : (⟨quotationMark double :: tail, m.pass part⟩ : Cursor).skip 1 =
      ⟨tail, m.pass (part ++ [quotationMark double])⟩ := by
    rw [Mark.pass_append]
    cases double <;> rfl
  cases double with
  | false =>
    have hsingle : singlePart (part ++ quotationMark false :: tail) = ⟨text, part.length⟩ :=
      Option.some.inj hpart
    simp only [hsingle, Option.bind_eq_bind, Option.bind_some]
    rw [hskip]
    exact congrArg (fun c => some (text, c)) hafter
  | true =>
    have hdouble : doublePart? (part ++ quotationMark true :: tail) = some ⟨text, part.length⟩ := hpart
    simp only [hdouble, Option.bind_eq_bind, Option.bind_some]
    rw [hskip]
    exact congrArg (fun c => some (text, c)) hafter

/-- A part before white space and the rest of a scalar. -/
theorem quotedRest?_blank {x : Char} {xs more written : List Char} {f : Folding} {c : Cursor}
    (hrest : rest = x :: xs) (hx : isGap x ∨ isBreak x)
    (hscan : Folding.scan? (-1) false (m.pass part) rest = some (f, ⟨more, m.pass written⟩))
    {value : List Char} (hmore : quotedRest? double fuel ⟨more, m.pass written⟩ = some (value, c)) :
    quotedRest? double (fuel + 1) ⟨part ++ rest, m⟩ = some (text ++ (f.text ++ value), c) := by
  have hmarker : (⟨part ++ rest, m⟩ : Cursor).atDocumentMarker = false :=
    atDocumentMarker_eq_false hcolumn
  have hskip : (⟨part ++ rest, m⟩ : Cursor).skip part.length = ⟨rest, m.pass part⟩ :=
    Mark.skip_append hline rest m
  -- The part ends at white space, so none of the signs is there.
  have hsigns : x ≠ '\\' ∧ x ≠ '"' ∧ x ≠ '\'' := by
    refine ⟨?_, ?_, ?_⟩ <;> rintro rfl <;> simp [isGap, isBreak] at hx
  subst hrest
  rw [quotedRest?, hmarker]
  cases double with
  | false =>
    have hsingle : singlePart (part ++ x :: xs) = ⟨text, part.length⟩ := Option.some.inj hpart
    simp only [hsingle, Option.bind_eq_bind, Option.bind_some]
    rw [hskip]
    simp [hsigns, Cursor.scanFolding, hscan, hmore]
  | true =>
    have hdouble : doublePart? (part ++ x :: xs) = some ⟨text, part.length⟩ := hpart
    simp only [hdouble, Option.bind_eq_bind, Option.bind_some]
    rw [hskip]
    simp [hsigns, Cursor.scanFolding, hscan, hmore]

end Rest

/-! ## Double quotation marks -/

/-- An escape consists of its signs, a letter, and digits. -/
theorem forall_mem_escapeChars (P : Char → Prop) (hsigns : ∀ d ∈ ['\\', 'x', 'u', 'U', '0'], P d)
    (hletters : ∀ e ∈ escapeLetters, P e.2) (hdigits : ∀ k < 16, P (hexDigit k).toUpper) (c : Char) :
    ∀ d ∈ escapeChars c, P d := by
  intro d h
  have hhex : ∀ width n, ∀ d ∈ upperHex width n, P d := by
    intro width n d hd
    rw [upperHex, List.mem_append, List.mem_map] at hd
    obtain hd | ⟨e, he, rfl⟩ := hd
    · rw [List.eq_of_mem_replicate hd]
      exact hsigns '0' (by simp)
    · obtain ⟨k, hk, rfl⟩ := exists_of_mem_hexDigits he
      exact hdigits k hk
  rw [escapeChars] at h
  split at h
  · rename_i letter hletter
    obtain ⟨before, after, hsplit, -⟩ := List.lookup_eq_some_iff.1 hletter
    simp only [List.mem_cons, List.not_mem_nil, or_false] at h
    obtain rfl | rfl := h
    · exact hsigns '\\' (by simp)
    · exact hletters (c, d) (by simp [hsplit])
  · simp only at h
    split_ifs at h <;> rw [List.mem_cons, List.mem_cons] at h <;> obtain rfl | rfl | h := h <;>
      first | exact hhex _ _ _ h | exact hsigns _ (by simp)

/-- Escapes take one line. -/
theorem isBreak_of_mem_escapeChars {c d : Char} (h : d ∈ escapeChars c) : isBreak d = false :=
  forall_mem_escapeChars (isBreak · = false) (by simp [isBreak]) (by decide) (by decide) c d h

/-- What is written between double quotation marks may stand in a text. -/
theorem isReadable_of_mem_doubleChar {c d : Char} (h : d ∈ doubleChar c) : isReadable d := by
  rw [doubleChar] at h
  split at h
  · exact forall_mem_escapeChars (isReadable ·) (by simp [isReadable]) (by decide) (by decide) c d h
  · rename_i hc
    rw [List.mem_singleton.1 h]
    simp only [Bool.or_eq_true, not_or, Bool.not_eq_true, Bool.not_eq_false'] at hc
    exact isReadable_of_isPrintable hc.1.1.1

theorem isBreak_of_mem_doubleChar {c d : Char} (h : d ∈ doubleChar c) : isBreak d = false := by
  rw [doubleChar] at h
  split at h
  · exact isBreak_of_mem_escapeChars h
  · rename_i hc
    rw [List.mem_singleton.1 h]
    simp only [Bool.or_eq_true, not_or, Bool.not_eq_true] at hc
    exact hc.1.1.2

/-- A text between double quotation marks takes one line. -/
theorem isBreak_of_mem_doubleChars {cs : List Char} {d : Char} (h : d ∈ doubleChars cs) :
    isBreak d = false := by
  simp only [doubleChars, List.mem_cons, List.mem_append, List.mem_flatMap, List.not_mem_nil,
    or_false] at h
  obtain rfl | ⟨c, -, hd⟩ | rfl := h
  · rfl
  · exact isBreak_of_mem_doubleChar hd
  · rfl

theorem exists_doubleChar_cons (c : Char) :
    ∃ d ds, doubleChar c = d :: ds ∧ (d = '\\' ∨ d = c ∧ isPrintable c) := by
  rw [doubleChar]
  split
  · rw [escapeChars]
    split
    · exact ⟨_, _, rfl, .inl rfl⟩
    · simp only
      split_ifs <;> exact ⟨_, _, rfl, .inl rfl⟩
  · rename_i hc
    simp only [Bool.or_eq_true, not_or, Bool.not_eq_true, Bool.not_eq_false'] at hc
    exact ⟨c, [], rfl, .inr ⟨rfl, by simpa using hc.1.1.1⟩⟩

theorem startsInk_doubleChars {cs : List Char} (h : ∀ c ∈ cs.head?, c ≠ ' ') (tail : List Char) :
    StartsInk (cs.flatMap doubleChar ++ '"' :: tail) := by
  cases cs with
  | nil => exact startsInk_cons.2 (by decide)
  | cons c cs =>
    obtain ⟨d, ds, hd, hcases⟩ := exists_doubleChar_cons c
    have hbreak : isBreak d = false := isBreak_of_mem_doubleChar (c := c) (by simp [hd])
    rw [List.flatMap_cons, hd]
    refine startsInk_cons.2 ⟨?_, hbreak⟩
    obtain rfl | ⟨rfl, hprintable⟩ := hcases
    · rfl
    · rw [isGap_of_isPrintable hprintable, decide_eq_false (h d rfl)]

/-- The rest of a text between double quotation marks is read back. -/
theorem quotedRest?_double {cs : List Char} {fuel : Nat} (hfuel : cs.length < fuel) {m : Mark}
    (hcolumn : 0 < m.column) (tail : List Char) :
    quotedRest? true fuel ⟨cs.flatMap doubleChar ++ '"' :: tail, m⟩ =
      some (cs, ⟨tail, m.pass (cs.flatMap doubleChar ++ ['"'])⟩) := by
  have hspace : doubleChar ' ' = [' '] := by decide
  induction fuel generalizing cs m with
  | zero => cases hfuel
  | succ fuel ih =>
    -- Spaces are all the white space there is: line breaks are escaped.
    obtain ⟨word, rest, rfl, hword, hrest⟩ := exists_span (fun c => !decide (c = ' ')) cs
    have hword : ∀ c ∈ word, c ≠ ' ' := fun c hc => by simpa using hword c hc
    have hstart : ∀ c ∈ rest.head?, c = ' ' := fun c hc => by simpa using hrest c hc
    have hline : ∀ c ∈ word.flatMap doubleChar, isBreak c = false := fun c hc => by
      obtain ⟨d, -, hd⟩ := List.mem_flatMap.1 hc
      exact isBreak_of_mem_doubleChar hd
    cases rest with
    | nil =>
      have hpart : quotedPart? true (word.flatMap doubleChar ++ '"' :: tail) = some ⟨word, _⟩ :=
        doublePart?_append hword .mark
      rw [List.append_nil]
      exact quotedRest?_mark hcolumn hline hpart rfl
    | cons c rest =>
      obtain rfl := hstart c rfl
      obtain ⟨n, more, rfl, hmore⟩ := exists_spaces rest
      have hpart : quotedPart? true (word.flatMap doubleChar ++
          (spaces (n + 1) ++ (more.flatMap doubleChar ++ '"' :: tail))) = some ⟨word, _⟩ :=
        doublePart?_append hword .blank
      have hscan : Folding.scan? (-1) false (m.pass (word.flatMap doubleChar))
          (spaces (n + 1) ++ (more.flatMap doubleChar ++ '"' :: tail)) = some (_, ⟨_, _⟩) :=
        Folding.scan?_within (startsInk_doubleChars hmore tail) _
      have hafter : 0 < (m.pass (word.flatMap doubleChar ++ spaces (n + 1))).column := by
        rw [Mark.pass_append, Mark.column_pass fun c hc => isBreak_of_mem_spaces hc,
          Mark.column_pass hline]
        omega
      have hshorter : more.length < fuel := by
        simp only [List.length_append, List.length_cons] at hfuel
        omega
      rw [← Mark.pass_append] at hscan
      have hread := quotedRest?_blank hcolumn hline hpart rfl (.inl rfl) hscan (ih hshorter hafter)
      rw [← List.cons_append, ← spaces_succ, List.flatMap_append, List.flatMap_append,
        flatMap_spaces hspace, List.append_assoc, List.append_assoc, hread]
      simp only [← Mark.pass_append, List.append_assoc]
      rfl

/-! ## Single quotation marks -/

/-- What ends a text between single quotation marks: the mark, on a line of its own if the text ends
with a line break. -/
def closing (indent : Nat) (cs : List Char) : List Char :=
  (if cs.getLast?.any isBreak then spaces indent else []) ++ ['\'']

theorem closing_append {indent : Nat} {cs ds : List Char} (h : ds ≠ []) :
    closing indent (cs ++ ds) = closing indent ds := by
  rw [closing, closing, any_getLast?_append h]

theorem closing_line {indent : Nat} {cs : List Char} (h : ∀ c ∈ cs, isBreak c = false) :
    closing indent cs = ['\''] := by
  rw [closing, any_getLast?_eq_false h]
  rfl

/-- A text without its first quotation mark. -/
def singleBody (indent : Nat) (cs : List Char) : List Char :=
  indentLines singleChar indent false cs ++ closing indent cs

theorem isBreak_of_mem_singleChar {c d : Char} (hc : isBreak c = false) (h : d ∈ singleChar c) :
    isBreak d = false := by
  rw [singleChar] at h
  split at h
  · simp only [List.mem_cons, List.not_mem_nil, or_false, or_self] at h
    rw [h]
    rfl
  · rwa [List.mem_singleton.1 h]

/-- What may stand between single quotation marks: characters that are written as they are, among which
no space is next to a line break. -/
theorem allowsSingle_iff {cs : List Char} :
    allowsSingle cs ↔ (∀ c ∈ cs, isPrintable c) ∧ hasPair (· = ' ') isBreak cs = false ∧
      hasPair isBreak (· = ' ') cs = false := by
  simp [allowsSingle, needsEscapes, and_assoc]

theorem allowsSingle_of_append {cs ds : List Char} (h : allowsSingle (cs ++ ds)) : allowsSingle ds := by
  obtain ⟨hprintable, hspace, hbreak⟩ := allowsSingle_iff.1 h
  refine allowsSingle_iff.2 ⟨fun c hc => hprintable c (List.mem_append_right _ hc), ?_, ?_⟩
  · exact hasPair_of_append hspace
  · exact hasPair_of_append hbreak

theorem singleBody_line {line : List Char} (h : ∀ c ∈ line, isBreak c = false) (indent : Nat)
    (cs : List Char) :
    singleBody indent (line ++ cs) = line.flatMap singleChar ++ singleBody indent cs := by
  rw [singleBody, singleBody, indentLines_line h, List.append_assoc]
  cases cs with
  | nil => rw [List.append_nil, closing_line h]; rfl
  | cons c cs => rw [closing_append (List.cons_ne_nil _ _)]

theorem singleBody_breaks {bs : List Char} (hbs : ∀ b ∈ bs, isBreak b) (hne : bs ≠ []) (indent : Nat)
    {cs : List Char} (hcs : ∀ c ∈ cs.head?, isBreak c = false) :
    singleBody indent (bs ++ cs) = bs ++ (spaces indent ++ singleBody indent cs) := by
  rw [singleBody, singleBody, indentLines_breaks hbs hne, List.append_assoc]
  cases cs with
  | nil =>
    rw [List.append_nil, closing, any_getLast?_eq_true hbs hne]
    rfl
  | cons c cs =>
    rw [closing_append (List.cons_ne_nil _ _), indentLines_true (hcs c rfl), List.append_assoc]

theorem startsInk_singleBody {cs : List Char} (h : StartsInk cs) (indent : Nat) (tail : List Char) :
    StartsInk (singleBody indent cs ++ tail) := by
  cases cs with
  | nil => exact startsInk_cons.2 (by decide)
  | cons c cs =>
    have hc := startsInk_cons.1 h
    rw [singleBody, indentLines, hc.2, if_neg Bool.false_ne_true, if_neg Bool.false_ne_true,
      List.nil_append, singleChar]
    split
    · exact startsInk_cons.2 (by decide)
    · exact startsInk_cons.2 hc

/-! ### White space between words -/

/-- What is written between single quotation marks for white space of a text that has more after it:
characters that begin with white space, lead to a place within a line, and are read as the white space
they stand for. -/
structure ReadsWhite (indent : Nat) (ws more written : List Char) : Prop where
  ne_nil : ws ≠ []
  body : singleBody indent (ws ++ more) = written ++ singleBody indent more
  starts : ∃ x xs, written = x :: xs ∧ (isGap x ∨ isBreak x)
  column : ∀ m : Mark, 0 < m.column → 0 < (m.pass written).column
  scan : ∀ (m : Mark) (tail : List Char), ∃ f : Folding, f.text = ws ∧
    Folding.scan? (-1) false m (written ++ (singleBody indent more ++ tail)) =
      some (f, ⟨singleBody indent more ++ tail, m.pass written⟩)

variable {indent : Nat} {more : List Char}

/-- Spaces are written as they are. -/
theorem readsWhite_spaces (n : Nat) (hmore : StartsInk more) :
    ReadsWhite indent (spaces (n + 1)) more (spaces (n + 1)) where
  ne_nil := List.cons_ne_nil _ _
  body := by
    rw [singleBody_line fun _ => isBreak_of_mem_spaces, flatMap_spaces (by decide)]
  starts := ⟨' ', spaces n, rfl, .inl rfl⟩
  column m hm := by
    rw [Mark.column_pass fun _ => isBreak_of_mem_spaces]
    omega
  scan m tail := ⟨{ blanks := spaces (n + 1) }, rfl,
    Folding.scan?_within (startsInk_singleBody hmore indent tail) m⟩

/-- Only a line feed is folded. -/
theorem Folding.text_breaks {bs : List Char} (hne : bs ≠ []) (hlf : '\n' ∉ bs) :
    ({ breaks := bs, broken := true } : Folding).text = bs := by
  obtain ⟨b, bs, rfl⟩ := List.exists_cons_of_ne_nil hne
  have hb : b ≠ '\n' := by
    rintro rfl
    exact hlf List.mem_cons_self
  rw [Folding.text]
  split <;> simp_all

/-- Line breaks are written with the indentation of the line after them. -/
theorem readsWhite_breaks (hindent : 0 < indent) {bs : List Char} (hbs : ∀ b ∈ bs, IsPlainBreak b)
    (hne : bs ≠ []) (hlf : '\n' ∉ bs) (hmore : StartsInk more) :
    ReadsWhite indent bs more (bs ++ spaces indent) where
  ne_nil := hne
  body := by
    have hhead : ∀ c ∈ more.head?, isBreak c = false := fun c hc => (hmore c hc).2
    rw [singleBody_breaks (fun b hb => (hbs b hb).1) hne indent hhead, List.append_assoc]
  starts := by
    obtain ⟨b, bs, rfl⟩ := List.exists_cons_of_ne_nil hne
    exact ⟨b, bs ++ spaces indent, rfl, .inr (hbs b List.mem_cons_self).1⟩
  column m _ := by
    rwa [Mark.column_pass_indentation (fun b hb => (hbs b hb).1) hne]
  scan m tail := by
    refine ⟨{ breaks := bs, broken := true }, Folding.text_breaks hne hlf, ?_⟩
    rw [List.append_assoc, Folding.scan?_across hbs hne (startsInk_singleBody hmore indent tail)]

/-- No line break comes after spaces. -/
theorem startsInk_of_spaces {n : Nat} (h : allowsSingle (spaces (n + 1) ++ more))
    (hmore : ∀ c ∈ more.head?, c ≠ ' ') : StartsInk more := by
  obtain ⟨hprintable, hpair, -⟩ := allowsSingle_iff.1 h
  have hspaces : ∀ b ∈ spaces (n + 1), b = ' ' := fun b => List.eq_of_mem_replicate
  intro d hd
  obtain ⟨ds, rfl⟩ := List.head?_eq_some_iff.1 hd
  rw [isGap_of_isPrintable (hprintable d (by simp)), decide_eq_false (hmore d rfl)]
  exact ⟨rfl, eq_false_of_hasPair hpair (List.cons_ne_nil ' ' (spaces n)) fun b hb =>
    decide_eq_true (hspaces b hb)⟩

/-- No space comes after line breaks. -/
theorem startsInk_of_breaks {bs : List Char} (h : allowsSingle (bs ++ more)) (hne : bs ≠ [])
    (hbs : ∀ b ∈ bs, isBreak b) (hmore : ∀ c ∈ more.head?, isBreak c = false) : StartsInk more := by
  obtain ⟨hprintable, -, hpair⟩ := allowsSingle_iff.1 h
  intro d hd
  obtain ⟨ds, rfl⟩ := List.head?_eq_some_iff.1 hd
  rw [isGap_of_isPrintable (hprintable d (by simp))]
  exact ⟨eq_false_of_hasPair hpair hne hbs, hmore d rfl⟩

/-- A text that begins with white space begins with all that there is before the next word. -/
theorem exists_readsWhite (hindent : 0 < indent) {c : Char} {cs : List Char}
    (h : allowsSingle (c :: cs)) (hlf : '\n' ∉ c :: cs) (hc : isOuter c) :
    ∃ ws more written, c :: cs = ws ++ more ∧ ReadsWhite indent ws more written := by
  cases hbreak : isBreak c with
  | false =>
    obtain rfl : c = ' ' := by simpa [isOuter, hbreak] using hc
    obtain ⟨n, more, rfl, hmore⟩ := exists_spaces cs
    exact ⟨_, more, _, rfl, readsWhite_spaces n (startsInk_of_spaces h hmore)⟩
  | true =>
    obtain ⟨bs, more, rfl, hbs, hmore⟩ := exists_span isBreak cs
    have hbs : ∀ b ∈ c :: bs, isBreak b := List.forall_mem_cons.2 ⟨hbreak, hbs⟩
    have hne : c :: bs ≠ [] := List.cons_ne_nil _ _
    rw [← List.cons_append] at h hlf
    have hplain : ∀ b ∈ c :: bs, IsPlainBreak b := fun b hb =>
      ⟨hbs b hb, (allowsSingle_iff.1 h).1 b (List.mem_append_left _ hb)⟩
    exact ⟨c :: bs, more, _, rfl, readsWhite_breaks hindent hplain hne
      (fun hmem => hlf (List.mem_append_left _ hmem)) (startsInk_of_breaks h hne hbs hmore)⟩

/-! ### Words -/

/-- The rest of a text between single quotation marks is read back, wherever in a line it begins. -/
def ReadsSingle (indent fuel : Nat) (tail cs : List Char) : Prop :=
  ∀ m : Mark, 0 < m.column → quotedRest? false fuel ⟨singleBody indent cs ++ tail, m⟩ =
    some (cs, ⟨tail, m.pass (singleBody indent cs)⟩)

/-- A text begins with a word, which ends at a space or at a line break. -/
theorem exists_word {cs : List Char} (h : ∀ c ∈ cs, isPrintable c) :
    ∃ word rest, cs = word ++ rest ∧ (∀ c ∈ word, isGap c = false ∧ isBreak c = false) ∧
      ∀ c ∈ rest.head?, isOuter c := by
  obtain ⟨word, rest, rfl, hword, hrest⟩ := exists_span (fun c => !isOuter c) cs
  refine ⟨word, rest, rfl, fun c hc => ?_, fun c hc => by simpa using hrest c hc⟩
  have houter := hword c hc
  simp only [isOuter, Bool.not_eq_true', Bool.or_eq_false_iff] at houter
  rwa [isGap_of_isPrintable (h c (List.mem_append_left _ hc))]

section Word

variable {word tail : List Char} {fuel : Nat}
  (hword : ∀ c ∈ word, isGap c = false ∧ isBreak c = false)
include hword

theorem isBreak_of_mem_singleWord : ∀ c ∈ word.flatMap singleChar, isBreak c = false := by
  intro c hc
  obtain ⟨d, hd, hc⟩ := List.mem_flatMap.1 hc
  exact isBreak_of_mem_singleChar (hword d hd).2 hc

/-- The last word is read up to the mark. -/
theorem readsSingle_word (htail : tail.head? ≠ some '\'') :
    ReadsSingle indent (fuel + 1) tail word := by
  intro m hcolumn
  have hbody : singleBody indent word = word.flatMap singleChar ++ ['\''] := by
    have hline := singleBody_line (fun c hc => (hword c hc).2) indent []
    rwa [List.append_nil] at hline
  have hpart : quotedPart? false (word.flatMap singleChar ++ '\'' :: tail) = some ⟨word, _⟩ :=
    congrArg some (singlePart_append hword (.mark htail))
  rw [hbody, List.append_assoc]
  exact quotedRest?_mark hcolumn (isBreak_of_mem_singleWord hword) hpart rfl

/-- Any other word is read up to the white space after it. -/
theorem readsSingle_append {ws written : List Char} (hwhite : ReadsWhite indent ws more written)
    (hmore : ReadsSingle indent fuel tail more) :
    ReadsSingle indent (fuel + 1) tail (word ++ (ws ++ more)) := by
  intro m hcolumn
  have hline := isBreak_of_mem_singleWord hword
  obtain ⟨x, xs, rfl, hx⟩ := hwhite.starts
  obtain ⟨f, htext, hscan⟩ := hwhite.scan (m.pass (word.flatMap singleChar)) tail
  have hpart : quotedPart? false (word.flatMap singleChar ++
      (x :: xs ++ (singleBody indent more ++ tail))) = some ⟨word, _⟩ :=
    congrArg some (singlePart_append hword (.blank hx))
  have hafter : 0 < (m.pass (word.flatMap singleChar)).column := by
    rw [Mark.column_pass hline]
    omega
  have hrest := hmore _ (hwhite.column _ hafter)
  rw [← Mark.pass_append] at hscan hrest
  rw [singleBody_line fun c hc => (hword c hc).2, hwhite.body, List.append_assoc, List.append_assoc,
    quotedRest?_blank hcolumn hline hpart rfl hx hscan hrest, htext]
  simp only [← Mark.pass_append, List.append_assoc]

end Word

/-- The rest of a text between single quotation marks is read back. -/
theorem quotedRest?_single {cs : List Char} (h : allowsSingle cs) (hlines : '\n' ∉ cs) {indent : Nat}
    (hindent : 0 < indent) {fuel : Nat} (hfuel : cs.length < fuel) {m : Mark} (hcolumn : 0 < m.column)
    {tail : List Char} (htail : tail.head? ≠ some '\'') :
    quotedRest? false fuel ⟨singleBody indent cs ++ tail, m⟩ =
      some (cs, ⟨tail, m.pass (singleBody indent cs)⟩) := by
  -- Each step reads a word and the white space after it, so that less of the text is left.
  have hreads : ReadsSingle indent fuel tail cs := by
    induction fuel generalizing cs with
    | zero => cases hfuel
    | succ fuel ih =>
      obtain ⟨word, rest, rfl, hword, hstarts⟩ := exists_word (allowsSingle_iff.1 h).1
      cases rest with
      | nil =>
        rw [List.append_nil]
        exact readsSingle_word hword htail
      | cons c rest =>
        have hafter := allowsSingle_of_append h
        have hlf : '\n' ∉ c :: rest := fun hmem => hlines (List.mem_append_right _ hmem)
        obtain ⟨ws, more, written, hrest, hwhite⟩ :=
          exists_readsWhite hindent hafter hlf (hstarts c rfl)
        rw [hrest] at hafter hlf hfuel ⊢
        have hshorter : more.length < fuel := by
          have hpos := List.length_pos_iff.2 hwhite.ne_nil
          rw [List.length_append, List.length_append] at hfuel
          omega
        refine readsSingle_append hword hwhite (ih (allowsSingle_of_append hafter) ?_ hshorter)
        exact fun hmem => hlf (List.mem_append_right _ hmem)
  exact hreads m hcolumn

end ComponentViews.Yaml
