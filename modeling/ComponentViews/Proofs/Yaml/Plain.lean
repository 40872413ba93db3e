import ComponentViews.Proofs.Yaml.Lines
import Mathlib.Tactic.SplitIfs

/-!
# Plain scalars are read back

A text that may be written without quotation marks consists of words with spaces between them. It is
read up to the end of its line, with the white space that follows.

## Main definitions

* `IsRun`: words of a line with spaces between them.

## Main results

* `IsRun.cases_word`: a run is a word, or a word before another run.
* `IsRun.of_allowsPlain`: texts that may be written without quotation marks are runs.
* `IsRun.plainScalar?_append`: runs are read back.
-/

namespace ComponentViews.Yaml

/-! ## Words -/

theorem hasValueSign_of_append {cs ds : List Char} (h : hasValueSign (cs ++ ds) = false)
    (hgap : startsGap ds) : hasValueSign cs = false := by
  induction cs with
  | nil => rfl
  | cons c cs ih =>
    rw [List.cons_append, hasValueSign, Bool.or_eq_false_iff] at h
    rw [hasValueSign, ih h.2, Bool.or_false]
    cases cs with
    | nil =>
      rw [List.nil_append, hgap] at h
      exact h.1
    | cons d cs => exact h.1

theorem hasValueSign_of_append_left {cs ds : List Char} (h : hasValueSign (cs ++ ds) = false) :
    hasValueSign ds = false := by
  induction cs with
  | nil => exact h
  | cons c cs ih =>
    rw [List.cons_append, hasValueSign, Bool.or_eq_false_iff] at h
    exact ih h.2

theorem hasPair_of_append {p q : Char → Bool} {cs ds : List Char}
    (h : hasPair p q (cs ++ ds) = false) : hasPair p q ds = false := by
  induction cs with
  | nil => exact h
  | cons c cs ih =>
    refine ih ?_
    rw [List.cons_append] at h
    cases hrest : cs ++ ds with
    | nil => rfl
    | cons d rest =>
      rw [hrest, hasPair, Bool.or_eq_false_iff] at h
      exact h.2

/-- Characters of the first class are not followed by one of the second. -/
theorem eq_false_of_hasPair {p q : Char → Bool} {as ds : List Char} {d : Char}
    (h : hasPair p q (as ++ d :: ds) = false) (hne : as ≠ []) (has : ∀ a ∈ as, p a) : q d = false := by
  obtain ⟨as, a, rfl⟩ := List.eq_nil_or_concat as |>.resolve_left hne
  rw [List.concat_eq_append] at has
  rw [List.concat_eq_append, List.append_assoc] at h
  have hpair := hasPair_of_append h
  rw [List.singleton_append, hasPair, Bool.or_eq_false_iff, has a (by simp), Bool.true_and] at hpair
  exact hpair.1

/-- A word is read up to white space, or up to the colon after a key. -/
theorem plainPart?_append {word rest : List Char}
    (hword : ∀ c ∈ word, isGap c = false ∧ isBreak c = false) (hsign : hasValueSign word = false)
    (hrest : startsGap rest ∨ ∃ cs, rest = ':' :: cs ∧ startsGap cs) :
    plainPart? false (word ++ rest) = some (word, rest) := by
  induction word with
  | nil =>
    obtain hgap | ⟨cs, rfl, hgap⟩ := hrest
    · cases rest with
      | nil => rfl
      | cons c rest =>
        have hc : (isGap c || isBreak c) = true := hgap
        rw [List.nil_append, plainPart?, if_pos hc]
    · simp [plainPart?, endsPlain, hgap, isGap, isBreak]
  | cons c word ih =>
    obtain ⟨⟨hgap, hbreak⟩, hword⟩ := List.forall_mem_cons.1 hword
    rw [hasValueSign, Bool.or_eq_false_iff] at hsign
    -- A colon at the end of the word would count as a sign, whatever follows it.
    have hcolon : (decide (c = ':') && startsGap (word ++ rest)) = false := by
      cases word with
      | nil =>
        have hc : decide (c = ':') = false := by simpa [startsGap] using hsign.1
        rw [hc, Bool.false_and]
      | cons d word => exact hsign.1
    have hends : endsPlain false c (word ++ rest) = false := by
      rw [endsPlain, hcolon, Bool.false_and, Bool.or_false]
    rw [List.cons_append, plainPart?, hgap, hbreak, hends, ih hword hsign.2]
    rfl

/-! ## Runs of words -/

/-- Words of a line with spaces between them, among which nothing ends a scalar. -/
structure IsRun (cs : List Char) : Prop where
  ne_nil : cs ≠ []
  starts : StartsText cs
  line : ∀ c ∈ cs, isPrintable c ∧ isBreak c = false
  last : cs.getLast? ≠ some ' '
  value : hasValueSign cs = false
  comment : hasComment cs = false

theorem isGap_of_isPrintable {c : Char} (h : isPrintable c) : isGap c = decide (c = ' ') := by
  have htab : c ≠ '\t' := by
    rintro rfl
    exact absurd h (by decide)
  rw [isGap, decide_eq_false htab, Bool.or_false]

/-- A text that is written without quotation marks is a run. -/
theorem IsRun.of_allowsPlain {cs : List Char} (h : allowsPlain cs) (hne : cs ≠ []) : IsRun cs := by
  simp only [allowsPlain, needsEscapes, hasMeaning, Bool.and_eq_true, Bool.not_eq_true',
    Bool.or_eq_false_iff, Bool.not_eq_false', List.all_eq_true, List.any_eq_false] at h
  obtain ⟨⟨⟨⟨hprintable, -⟩, hbreak⟩, hhead, hlast⟩, ⟨⟨-, hsign⟩, hvalue⟩, hcomment⟩ := h
  have hline : ∀ c ∈ cs, isPrintable c ∧ isBreak c = false := fun c hc =>
    ⟨hprintable c hc, Bool.eq_false_iff.2 (hbreak c hc)⟩
  refine ⟨hne, ?_, hline, fun hspace => ?_, hvalue, hcomment⟩
  · obtain ⟨c, cs, rfl⟩ := List.exists_cons_of_ne_nil hne
    obtain ⟨hc, hcbreak⟩ := hline c List.mem_cons_self
    have hspace : c ≠ ' ' := by
      rintro rfl
      cases hhead
    have hcomment : c ≠ '#' := by
      rintro rfl
      cases hsign
    have hmark : c ≠ '\ufeff' := by
      rintro rfl
      exact absurd hc (by decide)
    have hcgap : isGap c = false := by rw [isGap_of_isPrintable hc, decide_eq_false hspace]
    exact startsText_cons.2 ⟨⟨hcgap, hcbreak⟩, hcomment, hmark⟩
  · rw [hspace] at hlast
    exact absurd hlast (by decide)

/-- What comes after the spaces within a run is a run. -/
theorem IsRun.of_append {word more : List Char} {n : Nat} (h : IsRun (word ++ (spaces (n + 1) ++ more)))
    (hmore : ∀ c ∈ more.head?, c ≠ ' ') : IsRun more := by
  obtain ⟨-, -, hline, hlast, hvalue, hcomment⟩ := h
  -- With the last space split off, what is excluded of pairs applies to what follows it.
  have hshift : spaces (n + 1) ++ more = spaces n ++ ' ' :: more := by
    rw [spaces, List.replicate_succ', List.append_assoc]
    rfl
  rw [hshift] at hlast hcomment hvalue
  have hmorene : more ≠ [] := by
    rintro rfl
    rw [List.getLast?_append_of_ne_nil _ (by simp), List.getLast?_append_cons] at hlast
    exact hlast rfl
  obtain ⟨d, ds, rfl⟩ := List.exists_cons_of_ne_nil hmorene
  have hmem : ∀ c ∈ d :: ds, isPrintable c ∧ isBreak c = false := fun c hc =>
    hline c (List.mem_append_right _ (List.mem_append_right _ hc))
  obtain ⟨hd, hdbreak⟩ := hmem d List.mem_cons_self
  have hnext : hasComment (' ' :: d :: ds) = false := hasPair_of_append (hasPair_of_append hcomment)
  rw [hasComment, hasPair, Bool.or_eq_false_iff] at hnext
  have hsign : d ≠ '#' := by simpa [isGap] using hnext.1
  have hmark : d ≠ '\ufeff' := by
    rintro rfl
    exact absurd hd (by decide)
  have hdgap : isGap d = false := by rw [isGap_of_isPrintable hd, decide_eq_false (hmore d rfl)]
  refine ⟨hmorene, startsText_cons.2 ⟨⟨hdgap, hdbreak⟩, hsign, hmark⟩, hmem, ?_, ?_, hnext.2⟩
  · rwa [List.getLast?_append_of_ne_nil _ (by simp), List.getLast?_append_of_ne_nil _ (by simp),
      List.getLast?_cons_cons] at hlast
  · have hvalue' := hasValueSign_of_append_left (hasValueSign_of_append_left hvalue)
    rw [hasValueSign, Bool.or_eq_false_iff] at hvalue'
    exact hvalue'.2

/-- A run is a word, or a word before another run. -/
theorem IsRun.cases_word {cs : List Char} (h : IsRun cs) :
    ∃ word, word ≠ [] ∧ (∀ c ∈ word, isGap c = false ∧ isBreak c = false) ∧
      hasValueSign word = false ∧
      (cs = word ∨ ∃ n more, cs = word ++ (spaces (n + 1) ++ more) ∧ IsRun more) := by
  -- The word ends at the first space, since a line has no other white space.
  obtain ⟨word, rest, rfl, hword, hrest⟩ := exists_span (fun c => !decide (c = ' ')) cs
  have hgap : ∀ c ∈ word, isGap c = false ∧ isBreak c = false := fun c hc => by
    obtain ⟨hprintable, hbreak⟩ := h.line c (List.mem_append_left _ hc)
    exact ⟨by simpa [isGap_of_isPrintable hprintable] using hword c hc, hbreak⟩
  have hspace : ∀ c ∈ rest.head?, c = ' ' := fun c hc => by simpa using hrest c hc
  have hwordne : word ≠ [] := by
    rintro rfl
    obtain ⟨c, rest, rfl⟩ := List.exists_cons_of_ne_nil h.ne_nil
    have hgap := (startsText_cons.1 h.starts).1.1
    rw [hspace c rfl] at hgap
    cases hgap
  cases rest with
  | nil =>
    rw [List.append_nil] at h ⊢
    exact ⟨word, hwordne, hgap, h.value, .inl rfl⟩
  | cons c rest =>
    obtain rfl := hspace c rfl
    obtain ⟨n, more, rfl, hmore⟩ := exists_spaces rest
    exact ⟨word, hwordne, hgap, hasValueSign_of_append h.value rfl,
      .inr ⟨n, more, rfl, h.of_append hmore⟩⟩

/-! ## Scalars -/

/-- Within a line there is no sign between documents. -/
theorem atDocumentMarker_eq_false {c : Cursor} (h : 0 < c.column) : c.atDocumentMarker = false := by
  rw [Cursor.atDocumentMarker, decide_eq_false (Nat.ne_of_gt h), Bool.false_and]

theorem startsWithAny_comment_eq_false {cs : List Char} (h : StartsText cs) :
    startsWithAny ['#'] cs = false := by
  cases cs with
  | nil => rfl
  | cons c cs => simp [startsWithAny, (startsText_cons.1 h).2.1]

variable {cs : List Char} {t : Tail} {limit : Int}

/-- The rest of a scalar is read up to what follows its line. -/
theorem IsRun.plainRest?_append (h : IsRun cs) (ht : StartsInk t.rest)
    (hcolumn : (t.column : Int) < limit) {fuel : Nat} (hfuel : cs.length < fuel) (f : Folding)
    {m : Mark} (hm : limit ≤ m.column) :
    plainRest? false limit fuel f ⟨cs ++ '\n' :: t.chars, m⟩ =
      some (f.text ++ cs, true, ⟨t.rest, m.pass (cs ++ '\n' :: t.blanks)⟩) := by
  -- White space that is not yet known to be within the scalar is kept in `f`.
  induction fuel generalizing cs f m with
  | zero => cases hfuel
  | succ fuel ih =>
    have hmarker : (⟨cs ++ '\n' :: t.chars, m⟩ : Cursor).atDocumentMarker = false :=
      atDocumentMarker_eq_false (show 0 < m.column by omega)
    have hcomment : startsWithAny ['#'] (cs ++ '\n' :: t.chars) = false :=
      startsWithAny_comment_eq_false (h.starts.append h.ne_nil _)
    obtain ⟨word, hne, hword, hsign, hcases⟩ := h.cases_word
    have hpass : m.advance word = m.pass word :=
      (Mark.pass_eq_advance (fun c hc => (hword c hc).2) m).symm
    have hempty : word.isEmpty = false := by simpa using hne
    rw [plainRest?, hmarker, hcomment]
    obtain rfl | ⟨n, more, rfl, hmore⟩ := hcases
    · -- The last word is followed by the line break.
      have hend : (m.pass (cs ++ '\n' :: t.blanks)).column < limit := by
        rwa [Mark.pass_append, t.column_pass]
      rw [plainPart?_append hword hsign (.inl rfl)]
      simp only [Option.bind_eq_bind, Option.bind_some, Cursor.column]
      rw [hempty, hpass, t.scan?_chars ht, ← Mark.pass_append]
      simp [startsGap, isGap, isBreak, hend]
    · -- Spaces and another run follow the word.
      have hstarts : StartsInk (more ++ '\n' :: t.chars) := (hmore.starts.append hmore.ne_nil _).1
      have hlimit : limit ≤ ((m.pass (word ++ spaces (n + 1))).column : Int) := by
        rw [Mark.pass_append, Mark.column_pass fun c hc => isBreak_of_mem_spaces hc,
          Mark.column_pass fun c hc => (hword c hc).2]
        omega
      have hshorter : more.length < fuel := by
        simp only [List.length_append, length_spaces] at hfuel
        omega
      have hrest := ih hmore hshorter { blanks := spaces (n + 1) } hlimit
      have hindent : ¬ ((m.pass (word ++ spaces (n + 1))).column : Int) < limit := Int.not_lt.2 hlimit
      have hgap : ∀ cs, ((spaces (n + 1) ++ cs).isEmpty || !startsGap (spaces (n + 1) ++ cs)) =
        false := fun _ => rfl
      have hblanks : ({ blanks := spaces (n + 1) } : Folding).text = spaces (n + 1) := rfl
      rw [List.append_assoc, List.append_assoc, plainPart?_append hword hsign (.inl rfl)]
      simp only [Option.bind_eq_bind, Option.bind_some]
      rw [hempty, hpass, Folding.scan?_within hstarts, ← Mark.pass_append]
      simp only [Option.bind_some]
      rw [hrest, hblanks, ← Mark.pass_append, hgap]
      simp [Cursor.column, hindent]

/-- **Plain scalars.** A text without quotation marks is read back. -/
theorem IsRun.plainScalar?_append (h : IsRun cs) (ht : StartsInk t.rest)
    (hcolumn : (t.column : Int) < limit) {fuel : Nat} (hfuel : cs.length < fuel) {m : Mark}
    (hm : limit ≤ m.column) :
    plainScalar? fuel false limit ⟨cs ++ '\n' :: t.chars, m⟩ =
      some (cs, true, ⟨t.rest, m.pass (cs ++ '\n' :: t.blanks)⟩) :=
  h.plainRest?_append ht hcolumn hfuel {} hm

/-! ## Spellings -/

theorem spelling_eq_plain (h : spelling cs = .plain) : allowsPlain cs ∧ readsAsOther cs = false := by
  rw [spelling] at h
  split_ifs at h with hlines hblock hplain hsingle
  simpa using hplain

theorem needsEscapes_of_allowsPlain (h : allowsPlain cs) : needsEscapes cs = false := by
  simp only [allowsPlain, Bool.and_eq_true, Bool.not_eq_true'] at h
  exact h.1.1.1

/-- A string without quotation marks does not begin with a sign, whatever comes after it. -/
theorem startsWithSign_append (h : allowsPlain cs) (hne : cs ≠ []) (more : List Char) :
    startsWithSign (cs ++ more) = false := by
  have hsign : startsWithSign cs = false := by
    simp only [allowsPlain, hasMeaning, Bool.and_eq_true, Bool.not_eq_true', Bool.or_eq_false_iff] at h
    exact h.2.1.1.2
  obtain ⟨c, cs, rfl⟩ := List.exists_cons_of_ne_nil hne
  cases cs with
  | nil =>
    -- What makes some characters signs is the white space after them, and the end counts as such.
    rw [startsWithSign, Bool.or_eq_false_iff, startsGap, Bool.and_true] at hsign
    rw [List.singleton_append, startsWithSign, hsign.1, hsign.2]
    rfl
  | cons d cs => exact hsign

/-- A string without quotation marks takes one line. -/
theorem isBreak_of_spelling_plain (h : spelling cs = .plain) : ∀ c ∈ cs, isBreak c = false := by
  have hplain := (spelling_eq_plain h).1
  simp only [allowsPlain, Bool.and_eq_true, Bool.not_eq_true', List.any_eq_false] at hplain
  exact fun c hc => Bool.eq_false_iff.2 (hplain.1.1.2 c hc)

end ComponentViews.Yaml
