import ComponentViews.Proofs.Trimming
import ComponentViews.TypeName

/-!
# Names of joined type references

Where texts are joined by a separator, what comes out may look like one reference to a named type:
then the first text opens the type arguments, the last one closes them, and all that stands between
is taken for arguments.

## Main definitions

* `pathName?`: the base name of the path at the start of a text, and what follows it.
* `OpensArguments`, `ClosesArguments`: a text begins a reference up to its first bracket, or ends one
  after its last.
* `JoinReference`: texts that make a reference when they are joined.

## Main results

* `pathName?_append`: the path at the start of a text that goes on with no path.
* `opensArguments_iff`, `closesArguments_iff`: both in terms of the readers.
* `baseTypeName?_intercalate_iff`: the base name of joined texts.
-/

namespace ComponentViews

/-! ## Paths -/

/-- The base name of the path at the start of a text, and what follows after white space. -/
def pathName? (text : List Char) : Option (String × List Char) :=
  let cs := trimLeft text
  let path := (cs.takeWhile isPathChar).splitOn '.'
  if path.all isIdentifier then
    path.getLast?.map fun name => (String.ofList name, trimLeft (cs.dropWhile isPathChar))
  else none

/-- A reference is a path that perhaps has arguments. -/
theorem baseTypeName?_eq_some_iff {rendered name : String} :
    baseTypeName? rendered = some name ↔
      ∃ rest, pathName? rendered.toList = some (name, rest) ∧ isArguments (trimRight rest) := by
  have hbind : baseTypeName? rendered = (pathName? rendered.toList).bind fun p =>
      if isArguments (trimRight p.2) then some p.1 else none := by
    unfold baseTypeName? pathName? trimBlanks
    dsimp only
    generalize (((trimLeft rendered.toList).takeWhile isPathChar).splitOn '.') = path
    generalize trimLeft ((trimLeft rendered.toList).dropWhile isPathChar) = rest
    cases path.all isIdentifier
    · rfl
    · cases path.getLast? <;> cases harguments : isArguments (trimRight rest) <;> simp [harguments]
  rw [hbind, Option.bind_eq_some_iff]
  constructor
  · rintro ⟨⟨n, rest⟩, hpath, hname⟩
    obtain ⟨harguments, hname⟩ := Option.ite_none_right_eq_some.1 hname
    obtain rfl : n = name := Option.some.inj hname
    exact ⟨rest, hpath, harguments⟩
  · rintro ⟨rest, hpath, harguments⟩
    exact ⟨(name, rest), hpath, if_pos harguments⟩

/-- Before what follows a path, there are only white space and the path. -/
theorem exists_of_pathName?_eq_some {text rest : List Char} {name : String}
    (h : pathName? text = some (name, rest)) :
    ∃ before, text = before ++ rest ∧ (∀ c ∈ before, isBlank c ∨ isPathChar c) ∧
      trimLeft rest = rest := by
  unfold pathName? at h
  obtain ⟨-, h⟩ := Option.ite_none_right_eq_some.1 h
  obtain ⟨_, -, h⟩ := Option.map_eq_some_iff.1 h
  obtain rfl := (Prod.mk.inj h).2
  refine ⟨text.takeWhile isBlank ++ ((trimLeft text).takeWhile isPathChar ++
    ((trimLeft text).dropWhile isPathChar).takeWhile isBlank), ?_, fun c hc => ?_, ?_⟩
  · simp only [trimLeft, List.append_assoc, List.takeWhile_append_dropWhile]
  · rcases List.mem_append.1 hc with hc | hc
    · exact .inl (List.mem_takeWhile_imp hc)
    · rcases List.mem_append.1 hc with hc | hc
      · exact .inr (List.mem_takeWhile_imp hc)
      · exact .inl (List.mem_takeWhile_imp hc)
  · exact List.dropWhile_idempotent _ _

/-- Where a text goes on with no path, its path is found in the same way. -/
theorem pathName?_append (a : List Char) {c : Char} {b : List Char} (hc : isPathChar c = false)
    (hb : ∀ x ∈ (trimLeft (c :: b)).head?, isPathChar x = false) :
    pathName? (a ++ c :: b) = (pathName? a).map fun (name, rest) =>
      (name, if rest = [] then trimLeft (c :: b) else rest ++ c :: b) := by
  unfold pathName?
  dsimp only
  rw [trimLeft_append]
  by_cases ha : trimLeft a = []
  · -- Without a path, nothing is found.
    have hnone : (trimLeft (c :: b)).takeWhile isPathChar = [] := by
      cases h : trimLeft (c :: b) with
      | nil => rfl
      | cons x xs => exact List.takeWhile_cons_of_neg (by simp [hb x (by simp [h])])
    rw [if_pos ha, hnone, ha]
    rfl
  · rw [if_neg ha]
    generalize trimLeft a = cs
    -- The first character of the rest ends a path that reaches it.
    have htake : (cs ++ c :: b).takeWhile isPathChar = cs.takeWhile isPathChar := by
      rw [List.takeWhile_append, List.takeWhile_cons_of_neg (by simp [hc]), List.append_nil]
      split
      · rename_i hlength
        exact (List.IsPrefix.eq_of_length (List.takeWhile_prefix _) hlength).symm
      · rfl
    have hdrop : trimLeft ((cs ++ c :: b).dropWhile isPathChar) =
        if trimLeft (cs.dropWhile isPathChar) = [] then trimLeft (c :: b)
        else trimLeft (cs.dropWhile isPathChar) ++ c :: b := by
      rw [List.dropWhile_append]
      split
      · rename_i hempty
        rw [List.isEmpty_iff.1 hempty, List.dropWhile_cons_of_neg (by simp [hc]),
          if_pos trimLeft_nil]
      · rw [trimLeft_append]
    rw [htake, hdrop]
    split
    · rw [Option.map_map]
      rfl
    · rfl

/-! ## Arguments -/

/-- A text begins a reference with its name and what follows the first bracket. -/
def OpensArguments (text name : String) (inside : List Char) : Prop :=
  ∃ head, text.toList = head ++ '<' :: inside ∧ '<' ∉ head ∧
    baseTypeName? (String.ofList head) = some name

/-- A text ends a reference with what comes before the last bracket. -/
def ClosesArguments (text : String) (inside : List Char) : Prop :=
  ∃ blanks, (∀ c ∈ blanks, isBlank c) ∧ text.toList = inside ++ '>' :: blanks

/-- Arguments begin and end with a bracket and have no line break between them. -/
theorem isArguments_cons_iff {c : Char} {cs : List Char} :
    isArguments (c :: cs) ↔ c = '<' ∧ ∃ inside, cs = inside ++ ['>'] ∧ '\n' ∉ inside := by
  unfold isArguments
  split
  · simp_all
  · rename_i h
    obtain ⟨rfl, rfl⟩ := List.cons.inj h
    rw [Bool.and_eq_true, decide_eq_true_eq, List.getLast?_eq_some_iff]
    constructor
    · rintro ⟨⟨inside, rfl⟩, hline⟩
      exact ⟨rfl, inside, rfl, by simpa using hline⟩
    · rintro ⟨-, inside, rfl, hline⟩
      exact ⟨⟨inside, rfl⟩, by simpa using hline⟩
  · rename_i hne h
    simp only [Bool.false_eq_true, false_iff]
    rintro ⟨rfl, -⟩
    exact h _ rfl

theorem pathName?_append_bracket (head inside : List Char) :
    pathName? (head ++ '<' :: inside) =
      (pathName? head).map fun (name, rest) => (name, rest ++ '<' :: inside) := by
  have hbracket : trimLeft ('<' :: inside) = '<' :: inside :=
    trimLeft_cons_of_not_blank (by decide)
  have hpath : isPathChar '<' = false := by decide +kernel
  rw [pathName?_append head hpath (by simpa [hbracket] using hpath), hbracket]
  refine Option.map_congr fun ⟨name, rest⟩ _ => ?_
  dsimp only
  split
  · rename_i hrest
    rw [hrest, List.nil_append]
  · rfl

/-- A text begins a reference if a bracket follows its path. -/
theorem opensArguments_iff {text name : String} {inside : List Char} :
    OpensArguments text name inside ↔ pathName? text.toList = some (name, '<' :: inside) := by
  constructor
  · rintro ⟨head, htext, hhead, hname⟩
    obtain ⟨rest, hpath, harguments⟩ := baseTypeName?_eq_some_iff.1 hname
    rw [String.toList_ofList] at hpath
    obtain ⟨before, hsplit, -, htrim⟩ := exists_of_pathName?_eq_some hpath
    -- Without a bracket, nothing but white space follows the path.
    have hrest : rest = [] := by
      rw [← htrim, trimLeft_eq_nil_iff, ← trimRight_eq_nil_iff]
      cases htail : trimRight rest with
      | nil => rfl
      | cons c cs =>
        rw [htail, isArguments_cons_iff] at harguments
        obtain ⟨blanks, -, hblanks⟩ := exists_trimRight_append rest
        refine absurd ?_ hhead
        rw [hsplit, hblanks, htail, harguments.1]
        simp
    rw [htext, pathName?_append_bracket, hpath, hrest]
    rfl
  · intro h
    obtain ⟨head, htext, hhead, -⟩ := exists_of_pathName?_eq_some h
    rw [htext, pathName?_append_bracket] at h
    obtain ⟨⟨n, rest⟩, hpath, h⟩ := Option.map_eq_some_iff.1 h
    obtain ⟨rfl, hrest⟩ := Prod.mk.inj h
    obtain rfl : rest = [] := List.append_cancel_right (hrest.trans (List.nil_append _).symm)
    refine ⟨head, htext, fun hbracket => ?_, baseTypeName?_eq_some_iff.2 ⟨[], ?_, rfl⟩⟩
    · exact absurd (hhead _ hbracket) (by decide +kernel)
    · rw [String.toList_ofList, hpath]

/-- A text ends a reference if its last character that is no white space is a bracket. -/
theorem closesArguments_iff {text : String} {inside : List Char} :
    ClosesArguments text inside ↔ trimRight text.toList = inside ++ ['>'] := by
  constructor
  · rintro ⟨blanks, hblanks, htext⟩
    rw [htext, trimRight_append, trimRight_cons_of_not_blank (by decide),
      trimRight_eq_nil_iff.2 hblanks]
    simp
  · intro h
    obtain ⟨blanks, hblanks, htext⟩ := exists_trimRight_append text.toList
    exact ⟨blanks, hblanks, by rw [htext, h, List.append_assoc, List.singleton_append]⟩

/-! ## Joined texts -/

/-- Texts make a reference when they are joined: the first opens its arguments, the last closes them,
and no line breaks in between. -/
def JoinReference (name first : String) (middle : List String) (last : String) : Prop :=
  ∃ u v, OpensArguments first name u ∧ ClosesArguments last v ∧
    '\n' ∉ u ∧ '\n' ∉ v ∧ ∀ m ∈ middle, '\n' ∉ m.toList

/-- A sign between spaces that is part of no path and begins no arguments. -/
structure IsSeparator (sep : String) (sign : Char) : Prop where
  toList : sep.toList = [' ', sign, ' ']
  not_blank : isBlank sign = false
  not_path : isPathChar sign = false
  not_bracket : sign ≠ '<' ∧ sign ≠ '>'
  not_break : sign ≠ '\n'

/-- What stands between the first and the last of joined texts. -/
def between (sep : String) (middle : List String) : List Char :=
  sep.toList ++ middle.flatMap fun m => m.toList ++ sep.toList

theorem toList_intercalate_cons_append (sep first : String) (middle : List String) (last : String) :
    (String.intercalate sep (first :: (middle ++ [last]))).toList =
      first.toList ++ (between sep middle ++ last.toList) := by
  rw [String.toList_intercalate]
  induction middle generalizing first with
  | nil => simp [between, List.intercalate]
  | cons m middle ih =>
    have hcons : ∀ x y : List Char, ∀ more, sep.toList.intercalate (x :: y :: more) =
        x ++ (sep.toList ++ sep.toList.intercalate (y :: more)) := by
      intro x y more
      simp [List.intercalate]
    rw [List.cons_append, List.map_cons, List.map_cons, hcons, ← List.map_cons, ih]
    simp [between]

section Joined

variable {sep : String} {sign : Char} (hsep : IsSeparator sep sign)
include hsep

theorem exists_between_eq_append (middle : List String) :
    ∃ front, between sep middle = front ++ [' ', sign, ' '] := by
  rcases List.eq_nil_or_concat middle with rfl | ⟨ms, m, rfl⟩
  · exact ⟨[], by simp [between, hsep.toList]⟩
  · exact ⟨sep.toList ++ (ms.flatMap (fun m => m.toList ++ sep.toList) ++ m.toList), by
      simp [between, hsep.toList]⟩

theorem line_notMem_between_iff {middle : List String} :
    '\n' ∉ between sep middle ↔ ∀ m ∈ middle, '\n' ∉ m.toList := by
  have hne := hsep.not_break.symm
  simp [between, hsep.toList, hne]

/-- What follows the first of joined texts begins no path. -/
theorem pathName?_append_between (first : List Char) (middle : List String) (last : List Char) :
    ∃ after, pathName? (first ++ (between sep middle ++ last)) =
      (pathName? first).map fun (name, rest) =>
        (name, if rest = [] then sign :: after else rest ++ (between sep middle ++ last)) := by
  have hstart : between sep middle ++ last = ' ' :: sign :: (' ' ::
      middle.flatMap (fun m => m.toList ++ sep.toList) ++ last) := by
    simp [between, hsep.toList]
  have htrim : ∀ cs, trimLeft (' ' :: sign :: cs) = sign :: cs := by
    intro cs
    have hspace : trimLeft (' ' :: sign :: cs) = trimLeft (sign :: cs) := rfl
    rw [hspace, trimLeft_cons_of_not_blank hsep.not_blank]
  rw [hstart]
  refine ⟨' ' :: middle.flatMap (fun m => m.toList ++ sep.toList) ++ last, ?_⟩
  rw [pathName?_append first (by decide +kernel) (by simp [htrim, hsep.not_path]), htrim]

/-- Where the last of joined texts is blank, they end in a separator. -/
theorem exists_trimRight_append_between (u : List Char) (middle : List String) {last : List Char}
    (h : trimRight last = []) :
    ∃ front, trimRight (u ++ (between sep middle ++ last)) = front ++ [sign] := by
  obtain ⟨front, hfront⟩ := exists_between_eq_append hsep middle
  have hsign : trimRight [' ', sign, ' '] = [' ', sign] := by
    simp [trimRight, hsep.not_blank, show isBlank ' ' = true from rfl]
  refine ⟨u ++ front ++ [' '], ?_⟩
  rw [← List.append_assoc, trimRight_append, if_pos h, hfront, ← List.append_assoc,
    trimRight_append, hsign]
  simp

/-- **Joined texts** have a base name exactly if the first opens arguments and the last closes them:
that of the first. -/
theorem baseTypeName?_intercalate_iff {name first : String} {middle : List String} {last : String} :
    baseTypeName? (String.intercalate sep (first :: (middle ++ [last]))) = some name ↔
      JoinReference name first middle last := by
  obtain ⟨after, hpath⟩ := pathName?_append_between hsep first.toList middle last.toList
  rw [baseTypeName?_eq_some_iff, toList_intercalate_cons_append, hpath]
  simp only [Option.map_eq_some_iff, Prod.mk.injEq, Prod.exists]
  constructor
  · rintro ⟨_, ⟨_, rest, hfirst, rfl, rfl⟩, harguments⟩
    cases rest with
    | nil =>
      -- Without arguments in the first text, the separator would have to begin them.
      rw [if_pos rfl, trimRight_cons_of_not_blank hsep.not_blank, isArguments_cons_iff] at harguments
      exact absurd harguments.1 hsep.not_bracket.1
    | cons c u =>
      obtain ⟨-, -, -, htrim⟩ := exists_of_pathName?_eq_some hfirst
      have hc : isBlank c = false := isBlank_of_trimLeft_cons htrim
      rw [if_neg (List.cons_ne_nil c u), List.cons_append, trimRight_cons_of_not_blank hc,
        isArguments_cons_iff] at harguments
      obtain ⟨rfl, inside, hinside, hline⟩ := harguments
      rcases List.eq_nil_or_concat (trimRight last.toList) with hlast | ⟨v, z, hlast⟩
      · obtain ⟨front, hfront⟩ := exists_trimRight_append_between hsep u middle hlast
        rw [hfront] at hinside
        exact absurd (List.append_inj_right' hinside rfl) (by simpa using hsep.not_bracket.2)
      · rw [List.concat_eq_append] at hlast
        rw [← List.append_assoc, trimRight_append, hlast, if_neg (by simp), List.append_assoc,
          ← List.append_assoc, ← List.append_assoc] at hinside
        obtain ⟨rfl, hz⟩ := List.append_inj' hinside rfl
        rw [hz] at hlast
        simp only [List.mem_append, not_or] at hline
        exact ⟨u, v, opensArguments_iff.2 hfirst, closesArguments_iff.2 hlast, hline.1.1, hline.2,
          (line_notMem_between_iff hsep).1 hline.1.2⟩
  · rintro ⟨u, v, hopens, hcloses, hu, hv, hmiddle⟩
    refine ⟨_, ⟨name, _, opensArguments_iff.1 hopens, rfl, rfl⟩, ?_⟩
    have hclosing := closesArguments_iff.1 hcloses
    rw [if_neg (List.cons_ne_nil _ _), List.cons_append, trimRight_cons_of_not_blank (by decide),
      isArguments_cons_iff, ← List.append_assoc, trimRight_append, hclosing, if_neg (by simp)]
    refine ⟨rfl, u ++ between sep middle ++ v, by simp, ?_⟩
    simp only [List.mem_append, not_or]
    exact ⟨⟨hu, (line_notMem_between_iff hsep).2 hmiddle⟩, hv⟩

end Joined

end ComponentViews
