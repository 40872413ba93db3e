import ComponentViews.Yaml.Property
import ComponentViews.Yaml.Token

/-!
# Directives

A line that starts with a percent sign is a directive: either the version of YAML or an
abbreviation for tags.

## Main definitions

* `directive?`: the directive that follows.
-/

namespace ComponentViews.Yaml

/-- The decimal number that follows, of at most nine digits, and the place after it. -/
def versionNumber? (c : Cursor) : Option (Nat × Cursor) :=
  let digits := c.rest.takeWhile Char.isDigit
  if digits.isEmpty || 9 < digits.length then none
  else some (digits.foldl (fun n d => 10 * n + (d.toNat - 48)) 0, c.skip digits.length)

/-- The version that follows. -/
def versionDirective? (c : Cursor) : Option (Token × Cursor) := do
  let (major, c) ← versionNumber? (c.skipWhile isGap)
  if startsWithAny ['.'] c.rest then
    let (minor, c) ← versionNumber? (c.skip 1)
    some (.version major minor, c)
  else none

/-- The abbreviation for tags that follows, with what it stands for. -/
def tagDirective? (c : Cursor) : Option (Token × Cursor) := do
  let (handle, c) ← tagHandle? (c.skipWhile isGap)
  if handle ≠ ['!'] ∧ handle.getLast? ≠ some '!' then none
  else if !startsWithAny [' ', '\t'] c.rest then none
  else
    let (bytes, c) ← tagText? true (c.skipWhile isGap)
    if !bytes.isEmpty && startsGap c.rest then some (.tagDirective handle (.ofBytes bytes), c)
    else none

/-- The directive after its percent sign, and the place after its line, where only white space and
a comment may follow. -/
def directive? (c : Cursor) : Option (Token × Cursor) := do
  let name := c.rest.takeWhile isNameChar
  let c := c.skip name.length
  if !startsGap c.rest then none
  else
    let (token, c) ←
      if name = ['Y', 'A', 'M', 'L'] then versionDirective? c
      else if name = ['T', 'A', 'G'] then tagDirective? c
      else none
    let c := c.skipWhile isGap
    let c := if startsWithAny ['#'] c.rest then c.skipWhile fun x => !isBreak x else c
    if startsBreak c.rest then some (token, c.skipBreak) else none

end ComponentViews.Yaml
