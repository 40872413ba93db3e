import ComponentViews.Yaml.Lexer
import ComponentViews.Yaml.Writer
import Mathlib.Data.List.Basic

/-!
# Places and white space

The place after some characters depends on these alone. White space that is written between the
parts of a text is found there again: spaces within a line, line breaks with the indentation after
them, and what stands between two values.

## Main definitions

* `Mark.pass`: the place after some characters.
* `IsPlainBreak`: line breaks that are written as they are.
* `StartsInk`, `StartsText`: no white space follows, and no comment.
* `Tail`: what follows the lines of a value.

## Main results

* `Folding.scan?_spaces`, `Folding.scan?_breaks`: white space between the parts of a scalar.
* `Tail.scan?_chars`: white space after a scalar.
-/

namespace ComponentViews.Yaml

/-- The characters of a class at the start of a text. -/
theorem exists_span (p : Char → Bool) (cs : List Char) :
    ∃ as bs, cs = as ++ bs ∧ (∀ c ∈ as, p c) ∧ ∀ c ∈ bs.head?, p c = false := by
  induction cs with
  | nil => exact ⟨[], [], rfl, List.forall_mem_nil _, fun c hc => by cases hc⟩
  | cons c cs ih =>
    cases hc : p c with
    | false => exact ⟨[], c :: cs, rfl, List.forall_mem_nil _, fun d hd => by cases hd; exact hc⟩
    | true =>
      obtain ⟨as, bs, rfl, has, hbs⟩ := ih
      exact ⟨c :: as, bs, rfl, List.forall_mem_cons.2 ⟨hc, has⟩, hbs⟩

/-! ## Places -/

theorem byteCount_append (cs ds : List Char) :
    byteCount (cs ++ ds) = byteCount cs + byteCount ds := by
  have hfrom : ∀ (n : Nat) (cs : List Char),
      cs.foldl (fun n c => n + c.utf8Size) n = n + byteCount cs := by
    intro n cs
    induction cs generalizing n with
    | nil => rfl
    | cons c cs ih => rw [byteCount, List.foldl_cons, List.foldl_cons, ih, ih (0 + _)]; omega
  rw [byteCount, List.foldl_append, hfrom]
  rfl

namespace Mark

/-- The place after some characters, among which no two make one line break. -/
def pass (m : Mark) (cs : List Char) : Mark :=
  cs.foldl (fun m c => if isBreak c then m.newline [c] else m.advance [c]) m

theorem pass_cons_of_break {c : Char} (hc : isBreak c) (m : Mark) (cs : List Char) :
    m.pass (c :: cs) = (m.newline [c]).pass cs := by
  rw [pass, List.foldl_cons, if_pos hc]
  rfl

theorem pass_cons_of_not_break {c : Char} (hc : isBreak c = false) (m : Mark) (cs : List Char) :
    m.pass (c :: cs) = (m.advance [c]).pass cs := by
  rw [pass, List.foldl_cons, hc]
  rfl

theorem pass_append (m : Mark) (cs ds : List Char) : m.pass (cs ++ ds) = (m.pass cs).pass ds :=
  List.foldl_append

/-- Characters of one line. -/
theorem pass_eq_advance {cs : List Char} (h : ∀ c ∈ cs, isBreak c = false) (m : Mark) :
    m.pass cs = m.advance cs := by
  induction cs generalizing m with
  | nil => rfl
  | cons c cs ih =>
    obtain ⟨hc, hcs⟩ := List.forall_mem_cons.1 h
    have hbytes := byteCount_append [c] cs
    rw [List.singleton_append] at hbytes
    rw [pass_cons_of_not_break hc, ih hcs]
    simp only [advance, hbytes, List.length_cons, List.length_nil, mk.injEq]
    exact ⟨by omega, trivial, by omega⟩

/-- Characters of one line are passed. -/
theorem skip_append {cs : List Char} (h : ∀ c ∈ cs, isBreak c = false) (ds : List Char) (m : Mark) :
    (⟨cs ++ ds, m⟩ : Cursor).skip cs.length = ⟨ds, m.pass cs⟩ := by
  rw [Cursor.skip, List.drop_left, List.take_left, pass_eq_advance h]

theorem column_pass {cs : List Char} (h : ∀ c ∈ cs, isBreak c = false) (m : Mark) :
    (m.pass cs).column = m.column + cs.length := by
  rw [pass_eq_advance h]
  rfl

theorem line_pass (m : Mark) (cs : List Char) :
    (m.pass cs).line = m.line + cs.countP isBreak := by
  induction cs generalizing m with
  | nil => rfl
  | cons c cs ih =>
    cases hc : isBreak c with
    | true =>
      rw [pass_cons_of_break hc, ih, List.countP_cons_of_pos hc]
      simp only [newline]
      omega
    | false =>
      rw [pass_cons_of_not_break hc, ih, List.countP_cons_of_neg (by simp [hc])]
      rfl

theorem line_le_pass (m : Mark) (cs : List Char) : m.line ≤ (m.pass cs).line := by
  rw [line_pass]
  omega

/-- After line breaks a line starts. -/
theorem column_pass_breaks {bs : List Char} (hbs : ∀ b ∈ bs, isBreak b) (hne : bs ≠ []) (m : Mark) :
    (m.pass bs).column = 0 := by
  induction bs generalizing m with
  | nil => exact absurd rfl hne
  | cons b bs ih =>
    obtain ⟨hb, hbs⟩ := List.forall_mem_cons.1 hbs
    rw [pass_cons_of_break hb]
    -- The hypothesis is about lists that are not empty.
    cases bs with
    | nil => rfl
    | cons b' bs => exact ih hbs (List.cons_ne_nil _ _) _

end Mark

/-! ## White space -/

theorem isBreak_of_mem_spaces {n : Nat} {c : Char} (h : c ∈ spaces n) : isBreak c = false := by
  rw [List.eq_of_mem_replicate h]
  rfl

theorem length_spaces (n : Nat) : (spaces n).length = n := List.length_replicate

theorem spaces_succ (n : Nat) : spaces (n + 1) = ' ' :: spaces n := rfl

/-- Spaces that are written as they are. -/
theorem flatMap_spaces {write : Char → List Char} (h : write ' ' = [' ']) (n : Nat) :
    (spaces n).flatMap write = spaces n := by
  induction n with
  | zero => rfl
  | succ n ih =>
    rw [spaces_succ, List.flatMap_cons, ih, h]
    rfl

/-- Indentation leads to its column. -/
theorem Mark.column_pass_indentation {bs : List Char} (hbs : ∀ b ∈ bs, isBreak b) (hne : bs ≠ [])
    (n : Nat) (m : Mark) : (m.pass (bs ++ spaces n)).column = n := by
  rw [pass_append, column_pass fun c hc => isBreak_of_mem_spaces hc, column_pass_breaks hbs hne,
    length_spaces, Nat.zero_add]

/-- Empty lines and indentation lead to the column of the indentation. -/
theorem Mark.column_pass_lines {bs : List Char} (hbs : ∀ b ∈ bs, isBreak b) (n : Nat) {m : Mark}
    (hm : m.column = 0) : (m.pass (bs ++ spaces n)).column = n := by
  rcases bs with _ | ⟨b, bs⟩
  · rw [List.nil_append, column_pass fun c hc => isBreak_of_mem_spaces hc, hm, length_spaces,
      Nat.zero_add]
  · exact column_pass_indentation hbs (List.cons_ne_nil _ _) n m

/-- The spaces at the start of a text. -/
theorem exists_spaces (cs : List Char) :
    ∃ n more, cs = spaces n ++ more ∧ ∀ c ∈ more.head?, c ≠ ' ' := by
  obtain ⟨blanks, more, rfl, hblanks, hmore⟩ := exists_span (fun c => decide (c = ' ')) cs
  have hspaces : blanks = spaces blanks.length :=
    List.eq_replicate_iff.2 ⟨rfl, fun c hc => of_decide_eq_true (hblanks c hc)⟩
  exact ⟨blanks.length, more, by rw [← hspaces], fun c hc => of_decide_eq_false (hmore c hc)⟩

theorem isReadable_of_isPrintable {c : Char} (h : isPrintable c) : isReadable c := by
  simp only [isPrintable, isReadable, Bool.or_eq_true, Bool.and_eq_true, decide_eq_true_eq] at h ⊢
  omega

/-- A line break that is written as it is. -/
def IsPlainBreak (c : Char) : Prop := isBreak c ∧ isPrintable c

theorem IsPlainBreak.ne_return {c : Char} (h : IsPlainBreak c) : c ≠ '\r' := by
  rintro rfl
  exact absurd h.2 (by decide)

/-- A line break that is written as it is contributes itself. -/
theorem IsPlainBreak.breakValue_eq {c : Char} (h : IsPlainBreak c) : breakValue c = c := by
  obtain ⟨hbreak, hprintable⟩ := h
  simp only [isBreak, Bool.or_eq_true, decide_eq_true_eq] at hbreak
  -- Of the line breaks, those that are read as another one are not printable.
  obtain (((rfl | rfl) | rfl) | rfl) | rfl := hbreak
  · rfl
  · exact absurd hprintable (by decide)
  · exact absurd hprintable (by decide)
  · rfl
  · rfl

theorem isPlainBreak_lineFeed : IsPlainBreak '\n' := ⟨rfl, rfl⟩

theorem isPlainBreak_of_mem_replicate {n : Nat} {c : Char} (h : c ∈ List.replicate n '\n') :
    IsPlainBreak c := by
  rw [List.eq_of_mem_replicate h]
  exact isPlainBreak_lineFeed

/-- A text does not begin with white space. -/
def StartsInk (cs : List Char) : Prop := ∀ c ∈ cs.head?, isGap c = false ∧ isBreak c = false

/-- A text begins with neither white space nor a comment. -/
def StartsText (cs : List Char) : Prop := StartsInk cs ∧ ∀ c ∈ cs.head?, c ≠ '#' ∧ c ≠ '\ufeff'

theorem startsInk_cons {c : Char} {cs : List Char} :
    StartsInk (c :: cs) ↔ isGap c = false ∧ isBreak c = false := by
  simp [StartsInk]

theorem startsText_nil : StartsText [] := by simp [StartsText, StartsInk]

theorem startsText_cons {c : Char} {cs : List Char} :
    StartsText (c :: cs) ↔ (isGap c = false ∧ isBreak c = false) ∧ c ≠ '#' ∧ c ≠ '\ufeff' := by
  simp [StartsText, StartsInk]

theorem StartsText.append {cs : List Char} (h : StartsText cs) (hne : cs ≠ []) (ds : List Char) :
    StartsText (cs ++ ds) := by
  obtain ⟨c, cs, rfl⟩ := List.exists_cons_of_ne_nil hne
  exact startsText_cons.2 (startsText_cons.1 h)

namespace Folding

variable {limit : Int} {broken : Bool}

theorem scan?_of_startsInk {cs : List Char} (h : StartsInk cs) (m : Mark) :
    scan? limit broken m cs = some ({ broken }, ⟨cs, m⟩) := by
  cases cs with
  | nil => rw [scan?]
  | cons c cs =>
    obtain ⟨hgap, hbreak⟩ := startsInk_cons.1 h
    have hreturn : c ≠ '\r' := by
      rintro rfl
      cases hbreak
    rw [scan?]
    · rw [hgap, hbreak]
      rfl
    · rintro cs rfl
      exact absurd rfl hreturn

/-- Spaces at the start of a line say nothing. -/
theorem scan?_spaces_of_broken (n : Nat) (m : Mark) (cs : List Char) :
    scan? limit true m (spaces n ++ cs) = scan? limit true (m.pass (spaces n)) cs := by
  induction n generalizing m with
  | zero => rfl
  | succ n ih =>
    rw [spaces_succ, List.cons_append, scan?, Mark.pass_cons_of_not_break rfl, ← ih]
    · rfl
    · intro cs h
      cases h

/-- Spaces within a line are kept. -/
theorem scan?_spaces (n : Nat) (m : Mark) (cs : List Char) :
    scan? limit false m (spaces n ++ cs) =
      (scan? limit false (m.pass (spaces n)) cs).map fun e =>
        (⟨spaces n ++ e.1.blanks, e.1.breaks, e.1.broken⟩, e.2) := by
  induction n generalizing m with
  | zero =>
    change scan? limit false m cs = (scan? limit false m cs).map _
    cases scan? limit false m cs <;> rfl
  | succ n ih =>
    have hspace : scan? limit false m (' ' :: (spaces n ++ cs)) =
        (scan? limit false (m.advance [' ']) (spaces n ++ cs)).map fun e =>
          (e.1.addBlank ' ', e.2) := by
      rw [scan?]
      · rw [Option.map_eq_bind]
        rfl
      · intro cs h
        cases h
    rw [spaces_succ, List.cons_append, hspace, Mark.pass_cons_of_not_break rfl, ih, Option.map_map]
    rfl

/-- Line breaks are kept, and what follows them is the start of a line. -/
theorem scan?_breaks {bs : List Char} (hbs : ∀ b ∈ bs, IsPlainBreak b) (hne : bs ≠ []) (m : Mark)
    (cs : List Char) :
    scan? limit broken m (bs ++ cs) = (scan? limit true (m.pass bs) cs).map fun e =>
      (⟨e.1.blanks, bs ++ e.1.breaks, e.1.broken⟩, e.2) := by
  -- From the second line break on, the line is broken already.
  induction bs generalizing broken m with
  | nil => exact absurd rfl hne
  | cons b bs ih =>
    obtain ⟨hb, hbs⟩ := List.forall_mem_cons.1 hbs
    have hgap : isGap b = false := by
      rw [← Bool.not_eq_true, isGap, Bool.or_eq_true, decide_eq_true_eq, decide_eq_true_eq]
      rintro (rfl | rfl) <;> exact absurd hb.1 (by decide)
    have hbreak : scan? limit broken m (b :: (bs ++ cs)) =
        (scan? limit true (m.newline [b]) (bs ++ cs)).map fun e => (e.1.addBreak b, e.2) := by
      rw [scan?]
      · rw [hgap, hb.1, hb.breakValue_eq, Option.map_eq_bind]
        rfl
      · rintro ds rfl
        exact absurd rfl hb.ne_return
    rw [List.cons_append, hbreak, Mark.pass_cons_of_break hb.1]
    cases bs with
    | nil => rfl
    | cons b' bs =>
      rw [ih hbs (List.cons_ne_nil _ _), Option.map_map]
      rfl

/-- Spaces between two parts of a line. -/
theorem scan?_within {n : Nat} {cs : List Char} (h : StartsInk cs) (m : Mark) :
    scan? limit false m (spaces n ++ cs) = some ({ blanks := spaces n }, ⟨cs, m.pass (spaces n)⟩) := by
  rw [scan?_spaces, scan?_of_startsInk h, Option.map_some, List.append_nil]

/-- Line breaks between two parts, with the indentation of the second. -/
theorem scan?_across {n : Nat} {bs cs : List Char} (hbs : ∀ b ∈ bs, IsPlainBreak b) (hne : bs ≠ [])
    (h : StartsInk cs) (m : Mark) :
    scan? limit broken m (bs ++ (spaces n ++ cs)) =
      some ({ breaks := bs, broken := true }, ⟨cs, m.pass (bs ++ spaces n)⟩) := by
  rw [scan?_breaks hbs hne, scan?_spaces_of_broken, scan?_of_startsInk h, Option.map_some,
    List.append_nil, Mark.pass_append]

end Folding

/-! ## Lines of a string -/

theorem any_getLast?_append {p : Char → Bool} {cs ds : List Char} (h : ds ≠ []) :
    (cs ++ ds).getLast?.any p = ds.getLast?.any p := by
  rw [List.getLast?_append_of_ne_nil _ h]

theorem any_getLast?_eq_false {p : Char → Bool} {cs : List Char} (h : ∀ c ∈ cs, p c = false) :
    cs.getLast?.any p = false := by
  cases hcs : cs.getLast? with
  | none => rfl
  | some c => exact h c (List.mem_of_getLast? hcs)

theorem any_getLast?_eq_true {p : Char → Bool} {cs : List Char} (h : ∀ c ∈ cs, p c) (hne : cs ≠ []) :
    cs.getLast?.any p = true := by
  rw [List.getLast?_eq_some_getLast hne, Option.any_some, h _ (List.getLast_mem hne)]

section Lines

variable {write : Char → List Char} {indent : Nat}

theorem indentLines_line {line : List Char} (h : ∀ c ∈ line, isBreak c = false) (cs : List Char) :
    indentLines write indent false (line ++ cs) =
      line.flatMap write ++ indentLines write indent false cs := by
  induction line with
  | nil => rfl
  | cons c line ih =>
    obtain ⟨hc, hline⟩ := List.forall_mem_cons.1 h
    rw [List.cons_append, indentLines, hc, ih hline, List.flatMap_cons, List.append_assoc]
    rfl

theorem indentLines_breaks {bs : List Char} (hbs : ∀ b ∈ bs, isBreak b) (hne : bs ≠ [])
    (broken : Bool) (cs : List Char) :
    indentLines write indent broken (bs ++ cs) = bs ++ indentLines write indent true cs := by
  induction bs generalizing broken with
  | nil => exact absurd rfl hne
  | cons b bs ih =>
    obtain ⟨hb, hbs⟩ := List.forall_mem_cons.1 hbs
    rw [List.cons_append, indentLines, if_pos hb]
    cases bs with
    | nil => rfl
    | cons b' bs => rw [ih hbs (List.cons_ne_nil _ _)]; rfl

/-- A line after a line break is indented. -/
theorem indentLines_true {c : Char} (hc : isBreak c = false) (cs : List Char) :
    indentLines write indent true (c :: cs) =
      spaces indent ++ indentLines write indent false (c :: cs) := by
  rw [indentLines, indentLines, hc]
  rfl

end Lines

/-! ## White space between tokens -/

namespace Lexer

theorem blankEnd_of_startsText {cs : List Char} (h : StartsText cs) (inFlow keyAllowed : Bool)
    (m : Mark) : blankEnd inFlow false keyAllowed m cs = (⟨cs, m⟩, keyAllowed) := by
  cases cs with
  | nil => rw [blankEnd]
  | cons c cs =>
    obtain ⟨⟨hgap, hbreak⟩, hcomment, hmark⟩ := startsText_cons.1 h
    simp only [isGap, Bool.or_eq_false_iff, decide_eq_false_iff_not] at hgap
    have hreturn : c ≠ '\r' := by
      rintro rfl
      cases hbreak
    rw [blankEnd]
    · simp [hbreak, hgap, hcomment, hmark]
    · rintro ds rfl
      exact absurd rfl hreturn

theorem blankEnd_spaces (n : Nat) (inFlow keyAllowed : Bool) (m : Mark) (cs : List Char) :
    blankEnd inFlow false keyAllowed m (spaces n ++ cs) =
      blankEnd inFlow false keyAllowed (m.pass (spaces n)) cs := by
  induction n generalizing m with
  | zero => rfl
  | succ n ih =>
    rw [spaces_succ, List.cons_append, Mark.pass_cons_of_not_break rfl, ← ih, blankEnd]
    · rfl
    · intro ds h
      cases h

/-- After line breaks a key may start. -/
theorem blankEnd_breaks {bs : List Char} (hbs : ∀ b ∈ bs, IsPlainBreak b) (hne : bs ≠ [])
    (keyAllowed : Bool) (m : Mark) (cs : List Char) :
    blankEnd false false keyAllowed m (bs ++ cs) = blankEnd false false true (m.pass bs) cs := by
  induction bs generalizing m keyAllowed with
  | nil => exact absurd rfl hne
  | cons b bs ih =>
    obtain ⟨hb, hbs⟩ := List.forall_mem_cons.1 hbs
    have hbreak : blankEnd false false keyAllowed m (b :: (bs ++ cs)) =
        blankEnd false false true (m.newline [b]) (bs ++ cs) := by
      rw [blankEnd]
      · rw [if_pos hb.1, Bool.not_false, Bool.or_true]
      · rintro ds rfl
        exact absurd rfl hb.ne_return
    rw [List.cons_append, hbreak, Mark.pass_cons_of_break hb.1]
    cases bs with
    | nil => rfl
    | cons b' bs => exact ih hbs (List.cons_ne_nil _ _) _ _

/-- White space that ends lines is passed. -/
theorem blankEnd_across {n : Nat} {bs cs : List Char} (hbs : ∀ b ∈ bs, IsPlainBreak b) (hne : bs ≠ [])
    (h : StartsText cs) (keyAllowed : Bool) (m : Mark) :
    blankEnd false false keyAllowed m (bs ++ (spaces n ++ cs)) =
      (⟨cs, m.pass (bs ++ spaces n)⟩, true) := by
  rw [blankEnd_breaks hbs hne, blankEnd_spaces, blankEnd_of_startsText h, Mark.pass_append]

/-- Spaces within a line are passed. -/
theorem blankEnd_within {n : Nat} {cs : List Char} (h : StartsText cs) (inFlow keyAllowed : Bool)
    (m : Mark) : blankEnd inFlow false keyAllowed m (spaces n ++ cs) =
      (⟨cs, m.pass (spaces n)⟩, keyAllowed) := by
  rw [blankEnd_spaces, blankEnd_of_startsText h]

end Lexer

/-! ## What follows a value -/

/-- What follows the lines of a value: empty lines, and a text at a column of the line after them. -/
structure Tail where
  /-- How many empty lines there are. -/
  breaks : Nat
  /-- The column. -/
  column : Nat
  /-- The text. -/
  rest : List Char

namespace Tail

/-- The empty lines and the indentation of the text. -/
def blanks (t : Tail) : List Char := List.replicate t.breaks '\n' ++ spaces t.column

/-- The characters that follow the line break at the end of a value. -/
def chars (t : Tail) : List Char := t.blanks ++ t.rest

variable {t : Tail}

theorem replicate_succ_ne_nil (n : Nat) : List.replicate (n + 1) '\n' ≠ [] :=
  List.cons_ne_nil _ _

theorem lineBreak_chars (t : Tail) :
    '\n' :: t.chars = List.replicate (t.breaks + 1) '\n' ++ (spaces t.column ++ t.rest) := by
  rw [chars, blanks, List.append_assoc]
  rfl

/-- The text is at its column. -/
theorem column_pass (t : Tail) (m : Mark) : (m.pass ('\n' :: t.blanks)).column = t.column :=
  Mark.column_pass_indentation (fun _ hb => (isPlainBreak_of_mem_replicate hb).1)
    (replicate_succ_ne_nil t.breaks) t.column m

theorem line_lt_pass (t : Tail) (m : Mark) : m.line < (m.pass ('\n' :: t.blanks)).line := by
  rw [Mark.line_pass, List.countP_cons_of_pos rfl]
  omega

/-- After a scalar, what follows is passed. -/
theorem scan?_chars (ht : StartsInk t.rest) (limit : Int) (broken : Bool) (m : Mark) :
    Folding.scan? limit broken m ('\n' :: t.chars) =
      some ({ breaks := List.replicate (t.breaks + 1) '\n', broken := true },
        ⟨t.rest, m.pass ('\n' :: t.blanks)⟩) := by
  rw [lineBreak_chars]
  exact Folding.scan?_across (fun _ => isPlainBreak_of_mem_replicate) (replicate_succ_ne_nil _) ht m

theorem blankEnd_chars (ht : StartsText t.rest) (keyAllowed : Bool) (m : Mark) :
    Lexer.blankEnd false false keyAllowed m ('\n' :: t.chars) =
      (⟨t.rest, m.pass ('\n' :: t.blanks)⟩, true) := by
  rw [lineBreak_chars]
  exact Lexer.blankEnd_across (fun _ => isPlainBreak_of_mem_replicate) (replicate_succ_ne_nil _) ht
    keyAllowed m

end Tail

end ComponentViews.Yaml
