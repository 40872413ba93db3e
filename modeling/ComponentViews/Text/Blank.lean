import ComponentViews.Text.CodeRanges

/-!
# White space

White space is the Unicode property of that name. Trimming takes it off both ends of a text.

## Main definitions

* `isBlank`: whether a character is white space.
* `trimBlanks`: a text without the white space at its ends.
-/

namespace ComponentViews

/-- Code points of white space. -/
def blankRanges : CodeRanges := ⟨[
  (9, 13), (32, 32), (133, 133), (160, 160), (5760, 5760), (8192, 8202), (8232, 8233),
  (8239, 8239), (8287, 8287), (12288, 12288)]⟩

/-- Whether a character is white space. -/
def isBlank (c : Char) : Bool :=
  blankRanges.contains c

/-- A text without the white space at its start. -/
def trimLeft (cs : List Char) : List Char :=
  cs.dropWhile isBlank

/-- A text without the white space at its end. -/
def trimRight (cs : List Char) : List Char :=
  (cs.reverse.dropWhile isBlank).reverse

/-- A text without the white space at its ends. -/
def trimBlanks (cs : List Char) : List Char :=
  trimRight (trimLeft cs)

@[simp] theorem trimLeft_nil : trimLeft [] = [] := rfl

/-- A text that starts with a character other than white space keeps its start. -/
theorem trimLeft_cons_of_not_blank {c : Char} {cs : List Char} (h : isBlank c = false) :
    trimLeft (c :: cs) = c :: cs := by
  simp [trimLeft, h]

end ComponentViews
