import ComponentViews.Text.Blank
import Mathlib.Data.List.DropRight

/-!
# Trimming

A text is trimmed from both ends. What is taken off is white space and what is left neither begins nor
ends with it, so a text that is put between white space is found there again.

## Main results

* `trimLeft_append`, `trimRight_append`: the ends of a text of two parts.
* `exists_trimRight_append`: what is taken off is white space.
* `trimBlanks_append`: a trimmed text is found between white space.
-/

namespace ComponentViews

theorem trimLeft_append (a b : List Char) :
    trimLeft (a ++ b) = if trimLeft a = [] then trimLeft b else trimLeft a ++ b := by
  unfold trimLeft
  rw [List.dropWhile_append]
  simp only [List.isEmpty_iff]

theorem trimRight_append (a b : List Char) :
    trimRight (a ++ b) = if trimRight b = [] then trimRight a else a ++ trimRight b := by
  simp only [trimRight, List.reverse_append, List.dropWhile_append, List.isEmpty_iff,
    List.reverse_eq_nil_iff]
  split <;> simp

theorem trimLeft_eq_nil_iff {cs : List Char} : trimLeft cs = [] ↔ ∀ c ∈ cs, isBlank c :=
  List.dropWhile_eq_nil_iff

theorem trimRight_eq_nil_iff {cs : List Char} : trimRight cs = [] ↔ ∀ c ∈ cs, isBlank c := by
  simp [trimRight, List.dropWhile_eq_nil_iff]

theorem trimRight_cons_of_not_blank {c : Char} (h : isBlank c = false) (cs : List Char) :
    trimRight (c :: cs) = c :: trimRight cs := by
  have hc : trimRight [c] = [c] := by simp [trimRight, h]
  rw [← List.singleton_append, trimRight_append]
  split
  · rename_i hcs
    rw [hc, hcs]
  · rfl

/-- What is left does not end in white space. -/
theorem exists_trimRight_append (cs : List Char) :
    ∃ blanks, (∀ c ∈ blanks, isBlank c) ∧ cs = trimRight cs ++ blanks := by
  refine ⟨(cs.reverse.takeWhile isBlank).reverse, fun c hc => ?_, ?_⟩
  · exact List.mem_takeWhile_imp (List.mem_reverse.1 hc)
  · rw [trimRight, ← List.reverse_append, List.takeWhile_append_dropWhile, List.reverse_reverse]

/-- A text that ends in a character other than white space keeps its end. -/
theorem trimRight_concat_of_not_blank {c : Char} (h : isBlank c = false) (cs : List Char) :
    trimRight (cs ++ [c]) = cs ++ [c] := by
  simp [trimRight, h]

theorem trimBlanks_eq_nil_iff {cs : List Char} : trimBlanks cs = [] ↔ ∀ c ∈ cs, isBlank c := by
  constructor
  · intro h
    obtain ⟨blanks, hblanks, hsplit⟩ := exists_trimRight_append (trimLeft cs)
    have hleft : trimLeft cs = blanks := by rw [hsplit, ← trimBlanks, h, List.nil_append]
    intro c hc
    rw [← List.takeWhile_append_dropWhile (p := isBlank) (l := cs)] at hc
    rcases List.mem_append.1 hc with hc | hc
    · exact List.mem_takeWhile_imp hc
    · exact hblanks c (hleft ▸ hc)
  · intro h
    rw [trimBlanks, trimLeft_eq_nil_iff.2 h]
    rfl

/-- A text that starts with a character other than white space is not blank. -/
theorem trimBlanks_cons_ne_nil {c : Char} {cs : List Char} (hc : isBlank c = false) :
    trimBlanks (c :: cs) ≠ [] := fun h =>
  Bool.false_ne_true (hc.symm.trans (trimBlanks_eq_nil_iff.1 h c List.mem_cons_self))

/-- A text that is trimmed from the start does not begin with white space. -/
theorem isBlank_of_trimLeft_cons {c : Char} {cs : List Char} (h : trimLeft (c :: cs) = c :: cs) :
    isBlank c = false := by
  cases hc : isBlank c with
  | false => rfl
  | true =>
    have hlength := congrArg List.length h
    rw [trimLeft, List.dropWhile_cons_of_pos hc] at hlength
    have hle := List.length_dropWhile_le isBlank cs
    simp only [List.length_cons] at hlength
    omega

/-- A trimmed text is found between white space. -/
theorem trimBlanks_append {before w after : List Char} (hbefore : ∀ c ∈ before, isBlank c)
    (hw : w ≠ []) (hleft : trimLeft w = w) (hright : trimRight w = w)
    (hafter : ∀ c ∈ after, isBlank c) : trimBlanks (before ++ (w ++ after)) = w := by
  rw [trimBlanks, trimLeft_append, if_pos (trimLeft_eq_nil_iff.2 hbefore), trimLeft_append, hleft,
    if_neg hw, trimRight_append, if_pos (trimRight_eq_nil_iff.2 hafter), hright]

end ComponentViews
