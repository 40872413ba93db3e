import ComponentViews.Proofs.TypeName

/-!
# References to named types

What a rendering must look like to have a base name: a path of identifiers, perhaps with type arguments,
between white space. Where there are no arguments, the white space at the end can be divided in several
ways; apart from this, a text is a reference in one way only, as no identifier has a point in it and no
character of a path is white space or a bracket.

## Main definitions

* `IsIdentifier`: identifiers.
* `TypeReference`: the parts of a reference, and `TypeReference.text` its text.

## Main results

* `isIdentifier_iff`, `isArguments_iff`: what the readers of identifiers and arguments accept.
* `TypeReference.pathName?_text`, `exists_typeReference`: what has a path is a reference.
* `TypeReference.parts_eq`: texts determine the parts of references.
* `baseTypeName?_reads_references`: base names are those of references.
-/

namespace ComponentViews

/-! ## Characters -/

/-- No range of one set meets a range of another. -/
def CodeRanges.Apart (r s : CodeRanges) : Prop :=
  ∀ p ∈ r.ranges, ∀ q ∈ s.ranges, p.2 < q.1 ∨ q.2 < p.1

theorem CodeRanges.Apart.contains_eq_false {r s : CodeRanges} (h : r.Apart s) {c : Char}
    (hc : r.contains c) : s.contains c = false := by
  rw [← Bool.not_eq_true, s.contains_iff]
  rintro ⟨q, hq, hfirst, hlast⟩
  obtain ⟨p, hp, hfirst', hlast'⟩ := (r.contains_iff c).1 hc
  rcases h p hp q hq with hlt | hlt <;> omega

theorem apart_wordRanges : wordRanges.Apart blankRanges := by
  unfold CodeRanges.Apart
  decide +kernel

/-- No character of a path is white space. -/
theorem isBlank_of_isPathChar {c : Char} (h : isPathChar c) : isBlank c = false := by
  have hsigns : isBlank '$' = false ∧ isBlank '.' = false := by decide
  simp only [isPathChar, isIdentifierChar, Bool.or_eq_true, decide_eq_true_eq] at h
  rcases h with (h | rfl) | rfl
  · exact apart_wordRanges.contains_eq_false h
  · exact hsigns.1
  · exact hsigns.2

theorem isPathChar_of_isBlank {c : Char} (h : isBlank c) : isPathChar c = false := by
  cases hc : isPathChar c with
  | false => rfl
  | true => exact absurd (h.symm.trans (isBlank_of_isPathChar hc)) Bool.noConfusion

theorem isWordChar_of_isAlpha {c : Char} (h : c.isAlpha) : isWordChar c := by
  have hranges : (65, 90) ∈ wordRanges.ranges ∧ (97, 122) ∈ wordRanges.ranges := by decide +kernel
  rw [isWordChar, CodeRanges.contains_iff]
  rcases Bool.or_eq_true_iff.1 h with h | h
  · exact ⟨_, hranges.1, of_decide_eq_true h⟩
  · obtain ⟨hfirst, hlast⟩ := Bool.and_eq_true_iff.1 h
    exact ⟨_, hranges.2, of_decide_eq_true hfirst, of_decide_eq_true hlast⟩

/-! ## Identifiers -/

/-- An identifier starts with an ASCII letter, a low line or a dollar sign and goes on with word
characters and dollar signs. -/
inductive IsIdentifier : List Char → Prop
  | intro {c : Char} {cs : List Char} (start : c.isAlpha ∨ c = '_' ∨ c = '$')
      (more : ∀ x ∈ cs, isWordChar x ∨ x = '$') : IsIdentifier (c :: cs)

theorem isIdentifier_iff {cs : List Char} : isIdentifier cs ↔ IsIdentifier cs := by
  cases cs with
  | nil => exact iff_of_false Bool.false_ne_true nofun
  | cons c cs =>
    simp only [isIdentifier, isIdentifierStart, isIdentifierChar, Bool.and_eq_true,
      Bool.or_eq_true, decide_eq_true_eq, List.all_eq_true, or_assoc]
    constructor
    · rintro ⟨hstart, hmore⟩
      exact .intro hstart hmore
    · rintro ⟨hstart, hmore⟩
      exact ⟨hstart, hmore⟩

namespace IsIdentifier

variable {cs : List Char} (h : IsIdentifier cs)
include h

theorem isIdentifierChar : ∀ c ∈ cs, isIdentifierChar c := by
  obtain ⟨hstart, hmore⟩ := h
  have hlow : isWordChar '_' := by decide +kernel
  simp only [ComponentViews.isIdentifierChar, Bool.or_eq_true, decide_eq_true_eq,
    List.forall_mem_cons]
  refine ⟨?_, hmore⟩
  rcases hstart with hc | rfl | rfl
  · exact .inl (isWordChar_of_isAlpha hc)
  · exact .inl hlow
  · exact .inr rfl

theorem isPathChar : ∀ c ∈ cs, isPathChar c := fun c hc => by
  rw [ComponentViews.isPathChar, h.isIdentifierChar c hc, Bool.true_or]

theorem point_notMem : '.' ∉ cs := by
  have hpoint : ComponentViews.isIdentifierChar '.' = false := by decide +kernel
  exact fun hc => Bool.false_ne_true (hpoint.symm.trans (h.isIdentifierChar '.' hc))

theorem ne_nil : cs ≠ [] := by
  obtain ⟨-, -⟩ := h
  exact List.cons_ne_nil _ _

end IsIdentifier

/-! ## Paths and arguments -/

/-- Identifiers, each followed by a point. -/
def dotted (qualifiers : List (List Char)) : List Char := qualifiers.flatMap (· ++ ['.'])

theorem dotted_append (qualifiers : List (List Char)) (name : List Char) :
    dotted qualifiers ++ name = ['.'].intercalate (qualifiers ++ [name]) := by
  induction qualifiers with
  | nil => simp [dotted]
  | cons q qs ih =>
    obtain ⟨x, xs, hxs⟩ := List.exists_cons_of_ne_nil (l := qs ++ [name]) (by simp)
    rw [List.cons_append, hxs, List.intercalate_cons_cons, ← hxs, ← ih]
    simp [dotted]

/-- Type arguments between brackets, or nothing. -/
def argumentText : Option (List Char) → List Char
  | none => []
  | some inside => '<' :: (inside ++ ['>'])

theorem argumentText_injective : Function.Injective argumentText := by
  rintro (_ | t) (_ | u) h
  · rfl
  · exact absurd h.symm (List.cons_ne_nil _ _)
  · exact absurd h (List.cons_ne_nil _ _)
  · exact congrArg some (List.append_cancel_right (List.cons.inj h).2)

theorem isArguments_iff {cs : List Char} :
    isArguments cs ↔ ∃ args : Option (List Char), cs = argumentText args ∧
      ∀ inside ∈ args, '\n' ∉ inside := by
  cases cs with
  | nil => exact iff_of_true rfl ⟨none, rfl, nofun⟩
  | cons c cs =>
    rw [isArguments_cons_iff]
    constructor
    · rintro ⟨rfl, inside, rfl, hline⟩
      exact ⟨some inside, rfl, by simpa using hline⟩
    · rintro ⟨_ | inside, h, hline⟩
      · cases h
      · obtain ⟨rfl, rfl⟩ := List.cons.inj h
        exact ⟨rfl, inside, rfl, hline inside rfl⟩

/-! ## References -/

/-- A reference to a named type: identifiers with points after them, an identifier and perhaps type
arguments, with white space around them. -/
structure TypeReference where
  /-- The white space before the path. -/
  before : List Char
  /-- The identifiers before the last. -/
  qualifiers : List (List Char)
  /-- The last identifier. -/
  name : List Char
  /-- The white space after the path. -/
  middle : List Char
  /-- What stands between brackets, if there are any. -/
  arguments : Option (List Char)
  /-- The white space at the end. -/
  after : List Char
  blank_before : ∀ c ∈ before, isBlank c
  isIdentifier_qualifiers : ∀ q ∈ qualifiers, IsIdentifier q
  isIdentifier_name : IsIdentifier name
  blank_middle : ∀ c ∈ middle, isBlank c
  line_notMem : ∀ inside ∈ arguments, '\n' ∉ inside
  blank_after : ∀ c ∈ after, isBlank c

namespace TypeReference

/-- The identifiers with points between them. -/
def path (r : TypeReference) : List Char := dotted r.qualifiers ++ r.name

/-- What follows the path. -/
def rest (r : TypeReference) : List Char := r.middle ++ (argumentText r.arguments ++ r.after)

/-- The text of a reference. -/
def text (r : TypeReference) : List Char := r.before ++ (r.path ++ r.rest)

variable (r : TypeReference)

/-- The path is divided at its points. -/
theorem splitOn_path : r.path.splitOn '.' = r.qualifiers ++ [r.name] := by
  rw [path, dotted_append]
  refine List.splitOn_intercalate '.' (fun cs hcs => ?_) (by simp)
  rcases List.mem_append.1 hcs with hcs | hcs
  · exact (r.isIdentifier_qualifiers cs hcs).point_notMem
  · exact List.mem_singleton.1 hcs ▸ r.isIdentifier_name.point_notMem

theorem isPathChar_path : ∀ c ∈ r.path, isPathChar c := by
  have hpoint : isPathChar '.' := by decide +kernel
  intro c hc
  rcases List.mem_append.1 hc with hc | hc
  · obtain ⟨q, hq, hc⟩ := List.mem_flatMap.1 hc
    rcases List.mem_append.1 hc with hc | hc
    · exact (r.isIdentifier_qualifiers q hq).isPathChar c hc
    · exact List.mem_singleton.1 hc ▸ hpoint
  · exact r.isIdentifier_name.isPathChar c hc

theorem path_ne_nil : r.path ≠ [] := fun h =>
  r.isIdentifier_name.ne_nil (List.append_eq_nil_iff.1 h).2

/-- The path ends where white space or a bracket follows. -/
theorem isPathChar_head?_rest : ∀ c ∈ r.rest.head?, isPathChar c = false := by
  have hbracket : isPathChar '<' = false := by decide +kernel
  -- White space may be missing, and then it is the text behind it that has to end the path.
  have hblank : ∀ {cs more : List Char}, (∀ c ∈ cs, isBlank c) →
      (∀ c ∈ more.head?, isPathChar c = false) → ∀ c ∈ (cs ++ more).head?, isPathChar c = false := by
    rintro (_ | ⟨d, cs⟩) more hcs hmore c hc
    · exact hmore c hc
    · obtain rfl := Option.some.inj hc
      exact isPathChar_of_isBlank (hcs d List.mem_cons_self)
  refine hblank r.blank_middle ?_
  cases r.arguments with
  | none =>
    rw [argumentText, List.nil_append, ← List.append_nil r.after]
    exact hblank r.blank_after nofun
  | some inside =>
    intro c hc
    obtain rfl := Option.some.inj hc
    exact hbracket

/-- The text without the white space at its start is the path and what follows it. -/
theorem trimLeft_text : trimLeft r.text = r.path ++ r.rest := by
  obtain ⟨c, cs, hpath⟩ := List.exists_cons_of_ne_nil r.path_ne_nil
  have hc : isBlank c = false :=
    isBlank_of_isPathChar (r.isPathChar_path c (hpath ▸ List.mem_cons_self))
  rw [text, trimLeft_append, if_pos (trimLeft_eq_nil_iff.2 r.blank_before), hpath, List.cons_append,
    trimLeft_cons_of_not_blank hc]

theorem takeWhile_text : (trimLeft r.text).takeWhile isPathChar = r.path := by
  rw [trimLeft_text, List.takeWhile_append_of_pos r.isPathChar_path]
  cases h : r.rest with
  | nil => rw [List.takeWhile_nil, List.append_nil]
  | cons c cs =>
    have hc : isPathChar c = false := r.isPathChar_head?_rest c (by rw [h]; rfl)
    rw [List.takeWhile_cons_of_neg (by simp [hc]), List.append_nil]

theorem dropWhile_text : (trimLeft r.text).dropWhile isPathChar = r.rest := by
  have hsplit := List.takeWhile_append_dropWhile (p := isPathChar) (l := trimLeft r.text)
  rw [takeWhile_text, r.trimLeft_text] at hsplit
  rw [r.trimLeft_text]
  exact List.append_cancel_left hsplit

/-- What follows the path are the arguments between white space. -/
theorem trimBlanks_rest : trimBlanks r.rest = argumentText r.arguments := by
  cases h : r.arguments with
  | none =>
    rw [rest, h, argumentText, List.nil_append, trimBlanks_eq_nil_iff]
    intro c hc
    exact (List.mem_append.1 hc).elim (r.blank_middle c) (r.blank_after c)
  | some inside =>
    rw [rest, h]
    exact trimBlanks_append r.blank_middle (List.cons_ne_nil _ _)
      (trimLeft_cons_of_not_blank (by decide))
      (trimRight_concat_of_not_blank (c := '>') (by decide) ('<' :: inside)) r.blank_after

/-- **A text has the parts of one reference only**, apart from white space. -/
theorem parts_eq {r r' : TypeReference} (h : r.text = r'.text) :
    r.qualifiers = r'.qualifiers ∧ r.name = r'.name ∧ r.arguments = r'.arguments := by
  -- The reader takes each part from the text alone.
  have hpath : r.path = r'.path := by rw [← takeWhile_text, h, takeWhile_text]
  have hrest : r.rest = r'.rest := by rw [← dropWhile_text, h, dropWhile_text]
  have hparts : r.qualifiers ++ [r.name] = r'.qualifiers ++ [r'.name] := by
    rw [← splitOn_path, hpath, splitOn_path]
  obtain ⟨hqualifiers, hname⟩ := List.append_inj' hparts rfl
  refine ⟨hqualifiers, (List.cons.inj hname).1, argumentText_injective ?_⟩
  rw [← trimBlanks_rest, hrest, trimBlanks_rest]

/-- The path of a reference is found. -/
theorem pathName?_text : pathName? r.text = some (String.ofList r.name, trimLeft r.rest) := by
  unfold pathName?
  dsimp only
  rw [takeWhile_text, dropWhile_text, splitOn_path, List.getLast?_concat, if_pos]
  · rfl
  · simp only [List.all_append, List.all_cons, List.all_nil, Bool.and_true, Bool.and_eq_true,
      List.all_eq_true, isIdentifier_iff]
    exact ⟨r.isIdentifier_qualifiers, r.isIdentifier_name⟩

end TypeReference

/-- A path with arguments after it is that of a reference. -/
theorem exists_typeReference {text rest : List Char} {name : String}
    (hpath : pathName? text = some (name, rest)) (harguments : isArguments (trimRight rest)) :
    ∃ r : TypeReference, r.text = text ∧ r.name = name.toList := by
  unfold pathName? at hpath
  obtain ⟨hall, hpath⟩ := Option.ite_none_right_eq_some.1 hpath
  obtain ⟨last, hlast, hpath⟩ := Option.map_eq_some_iff.1 hpath
  obtain ⟨rfl, rfl⟩ := Prod.mk.inj hpath
  obtain ⟨qualifiers, hsplit⟩ := List.getLast?_eq_some_iff.1 hlast
  obtain ⟨args, hargs, hline⟩ := isArguments_iff.1 harguments
  -- What is not read at the end is the white space after the reference.
  obtain ⟨after, hafter, hrest⟩ :=
    exists_trimRight_append (trimLeft ((trimLeft text).dropWhile isPathChar))
  simp only [hsplit, List.all_append, List.all_cons, List.all_nil, Bool.and_true,
    Bool.and_eq_true, List.all_eq_true, isIdentifier_iff] at hall
  refine ⟨⟨text.takeWhile isBlank, qualifiers, last,
    ((trimLeft text).dropWhile isPathChar).takeWhile isBlank, args, after,
    fun c hc => List.mem_takeWhile_imp hc, hall.1, hall.2, fun c hc => List.mem_takeWhile_imp hc,
    hline, hafter⟩, ?_, String.toList_ofList.symm⟩
  have hpath : dotted qualifiers ++ last = (trimLeft text).takeWhile isPathChar := by
    rw [dotted_append, ← hsplit, List.intercalate_splitOn]
  rw [TypeReference.text, TypeReference.path, TypeReference.rest, hpath, ← hargs, ← hrest]
  simp only [trimLeft, List.takeWhile_append_dropWhile]

/-- **Base names are those of references.** A text has a base name exactly if it is that of a reference,
whose last identifier it is; the qualifiers, the last identifier and the arguments of a text are unique,
and a text of no reference has no base name. -/
theorem baseTypeName?_reads_references :
    (∀ s n : String, baseTypeName? s = some n ↔
      ∃ r : TypeReference, r.text = s.toList ∧ r.name = n.toList) ∧
    (∀ r r' : TypeReference, r.text = r'.text →
      r.qualifiers = r'.qualifiers ∧ r.name = r'.name ∧ r.arguments = r'.arguments) ∧
    (∀ s : String, baseTypeName? s = none ↔ ∀ r : TypeReference, r.text ≠ s.toList) ∧
    ∀ r : TypeReference, baseTypeName? (String.ofList r.text) = some (String.ofList r.name) := by
  have htext : ∀ r : TypeReference,
      baseTypeName? (String.ofList r.text) = some (String.ofList r.name) := by
    intro r
    refine baseTypeName?_eq_some_iff.2 ⟨trimLeft r.rest, ?_, ?_⟩
    · rw [String.toList_ofList, r.pathName?_text]
    · exact isArguments_iff.2 ⟨r.arguments, r.trimBlanks_rest, r.line_notMem⟩
  have hiff : ∀ s n : String, baseTypeName? s = some n ↔
      ∃ r : TypeReference, r.text = s.toList ∧ r.name = n.toList := by
    intro s n
    constructor
    · intro h
      obtain ⟨rest, hpath, harguments⟩ := baseTypeName?_eq_some_iff.1 h
      exact exists_typeReference hpath harguments
    · rintro ⟨r, hs, hn⟩
      -- A reference is read back from its text, so the name that is read is its name.
      have hread := htext r
      rwa [hs, hn, String.ofList_toList, String.ofList_toList] at hread
  refine ⟨hiff, fun r r' h => TypeReference.parts_eq h, fun s => ?_, htext⟩
  rw [Option.eq_none_iff_forall_ne_some]
  constructor
  · intro h r hr
    refine h (String.ofList r.name) ((hiff s _).2 ⟨r, hr, ?_⟩)
    rw [String.toList_ofList]
  · intro h n hn
    obtain ⟨r, hr, -⟩ := (hiff s n).1 hn
    exact h r hr

/-- The white space at the end can be divided in two ways, and the name is the same. -/
theorem baseTypeName?_reads_references_spaced :
    let react := ['R', 'e', 'a', 'c', 't']
    let props := ['S', 'x', 'P', 'r', 'o', 'p', 's']
    ∃ r r' : TypeReference, r.text = r'.text ∧ r.middle ≠ r'.middle ∧ r'.qualifiers = [react] ∧
      r'.name = props ∧ r.qualifiers = r'.qualifiers ∧ r.name = r'.name ∧
      r.text = "React.SxProps \n".toList ∧ baseTypeName? "React.SxProps \n" = some "SxProps" ∧
      baseTypeName? "string | number" = none ∧ ∀ t : TypeReference,
        t.text ≠ "string | number".toList := by
  intro react props
  have hreact : ∀ q ∈ [react], IsIdentifier q :=
    List.forall_mem_singleton.2 (isIdentifier_iff.1 (by decide +kernel))
  have hprops : IsIdentifier props := isIdentifier_iff.1 (by decide +kernel)
  have harguments : ∀ inside ∈ (none : Option (List Char)), '\n' ∉ inside := by simp
  -- The blanks at the end may be counted to either place.
  let r : TypeReference := ⟨[], [react], props, [' '], none, ['\n'], List.forall_mem_nil _, hreact,
    hprops, List.forall_mem_singleton.2 rfl, harguments, List.forall_mem_singleton.2 rfl⟩
  let r' : TypeReference := ⟨[], [react], props, [], none, [' ', '\n'], List.forall_mem_nil _,
    hreact, hprops, List.forall_mem_nil _, harguments,
    List.forall_mem_cons.2 ⟨rfl, List.forall_mem_singleton.2 rfl⟩⟩
  obtain ⟨hread, hunique, hrefused, -⟩ := baseTypeName?_reads_references
  have htext : r.text = r'.text := rfl
  have hspaced : r.text = "React.SxProps \n".toList := rfl
  have hnone : baseTypeName? "string | number" = none := by decide +kernel
  obtain ⟨hqualifiers, hname, -⟩ := hunique r r' htext
  exact ⟨r, r', htext, List.cons_ne_nil _ _, rfl, rfl, hqualifiers, hname, hspaced,
    (hread _ _).2 ⟨r, hspaced, rfl⟩, hnone, (hrefused _).1 hnone⟩

end ComponentViews
