import ComponentViews.Proofs.Graph.Flags
import Mathlib.Data.List.Forall2
import Mathlib.Data.Nat.Digits.Defs

/-!
# What texts of type flags say

A text of flags is read piece by piece. Each piece stands for the flags of a name or for the bits of a
hexadecimal number, and the text stands for the flags of all pieces together, so it only matters which
pieces there are. A text is refused for a piece that stands for nothing.

## Main definitions

* `IsHexNumber`, `TypeFlags.Denotes`: the number of some digits, the flags of a piece.
* `TypeFlags.textPieces`: the trimmed pieces of a text.
* `TypeFlags.IsUndeclared`, `TypeFlags.IsMalformed`: pieces that stand for nothing.
* `SpacedPiece`, `spacedText`: pieces with white space around them, and their text.

## Main results

* `ofPiece?_eq_some_iff`, `ofPiece?_eq_none_iff`: a piece is read as what it stands for, if anything.
* `ofText?_eq_some_iff`, `ofText?_eq_none_iff`: so is a text, and it is refused for one piece.
* `ofText?_congr`: it only matters which pieces there are.
* `textPieces_spacedText`: pieces are found between white space.
-/

namespace ComponentViews

/-! ## Hexadecimal numbers -/

/-- Hexadecimal digits, perhaps after a plus sign, are those of a number. -/
def IsHexNumber (cs : List Char) (n : Nat) : Prop :=
  ∃ (sign digits : List Char) (values : List Nat), cs = sign ++ digits ∧
    (sign = [] ∨ sign = ['+']) ∧ digits ≠ [] ∧ digits.map hexValue? = values.map some ∧
      Nat.ofDigits 16 values.reverse = n

theorem hexNumber?_eq_some_iff {start n : Nat} {cs : List Char} :
    hexNumber? start cs = some n ↔ ∃ values : List Nat, cs.map hexValue? = values.map some ∧
      16 ^ values.length * start + Nat.ofDigits 16 values.reverse = n := by
  induction cs generalizing start with
  | nil => simp [hexNumber?]
  | cons c cs ih =>
    rw [hexNumber?, Option.bind_eq_some_iff]
    simp only [ih, List.map_cons]
    -- The digits after the first stand for as much less as there are of them.
    have hvalue : ∀ (d : Nat) (values : List Nat), 16 ^ values.length * (16 * start + d) +
        Nat.ofDigits 16 values.reverse =
          16 ^ (d :: values).length * start + Nat.ofDigits 16 (d :: values).reverse := by
      intro d values
      rw [List.reverse_cons, Nat.ofDigits_append, Nat.ofDigits_singleton, List.length_reverse,
        List.length_cons, pow_succ]
      ring
    constructor
    · rintro ⟨d, hd, values, hvalues, rfl⟩
      exact ⟨d :: values, by rw [hd, hvalues, List.map_cons], (hvalue d values).symm⟩
    · rintro ⟨_ | ⟨d, values⟩, hvalues, rfl⟩
      · cases hvalues
      · obtain ⟨hd, hvalues⟩ := List.cons.inj hvalues
        exact ⟨d, hd, values, hvalues, hvalue d values⟩

namespace TypeFlags

/-! ## Pieces -/

/-- The trimmed pieces of a text between signs; a blank text has none. -/
def textPieces (s : String) : List (List Char) :=
  if trimBlanks s.toList = [] then [] else (s.toList.splitOn '|').map trimBlanks

/-- A text is read piece by piece. -/
theorem ofText?_eq (s : String) :
    ofText? s = ((textPieces s).mapM ofPiece?).map (·.foldl union empty) := by
  unfold ofText? textPieces
  split
  · rfl
  · rw [List.mapM_map]
    rfl

/-- The names for groups of flags. -/
def groupNames : List String := ["LITERAL", "STRING_LIKE", "NUMBER_LIKE"]

theorem names_named : named.map (·.1) = singleNames ++ groupNames := by decide

/-- A piece stands for the flags of a name or for the bits of a number. -/
inductive Denotes : List Char → TypeFlags → Prop
  | name {s : String} {f : TypeFlags} (h : (s, f) ∈ named) : Denotes s.toList f
  | number {cs : List Char} {f : TypeFlags} (h : IsHexNumber cs f.bits.toNat) :
      Denotes ('0' :: 'x' :: cs) f

/-- Which sign is dropped is the sign that there is. -/
theorem exists_sign (cs : List Char) :
    ∃ sign, cs = sign ++ dropPlus cs ∧ (sign = [] ∨ sign = ['+']) := by
  unfold dropPlus
  split
  · exact ⟨['+'], rfl, .inr rfl⟩
  · exact ⟨[], rfl, .inl rfl⟩

/-- Digits are left as they are: a plus sign is none. -/
theorem dropPlus_append {sign digits : List Char} {values : List Nat}
    (hsign : sign = [] ∨ sign = ['+']) (hvalues : digits.map hexValue? = values.map some) :
    dropPlus (sign ++ digits) = digits := by
  rcases hsign with rfl | rfl
  · unfold dropPlus
    split
    · rename_i ds h
      have hplus : hexValue? '+' = none := by decide
      rw [List.nil_append] at h
      rw [h, List.map_cons, hplus] at hvalues
      cases values with
      | nil => cases hvalues
      | cons d values => cases (List.cons.inj hvalues).1
    · rfl
  · rfl

theorem isHexNumber_iff {cs : List Char} {n : Nat} :
    IsHexNumber cs n ↔ dropPlus cs ≠ [] ∧ hexNumber? 0 (dropPlus cs) = some n := by
  simp only [hexNumber?_eq_some_iff, mul_zero, zero_add]
  constructor
  · rintro ⟨sign, digits, values, rfl, hsign, hne, hvalues, hvalue⟩
    rw [dropPlus_append hsign hvalues]
    exact ⟨hne, values, hvalues, hvalue⟩
  · rintro ⟨hne, values, hvalues, hvalue⟩
    obtain ⟨sign, hcs, hsign⟩ := exists_sign cs
    exact ⟨sign, dropPlus cs, values, hcs, hsign, hne, hvalues, hvalue⟩

theorem ofHex?_eq_some_iff {cs : List Char} {f : TypeFlags} :
    ofHex? cs = some f ↔ IsHexNumber cs f.bits.toNat := by
  rw [isHexNumber_iff, ofHex?]
  cases dropPlus cs with
  | nil => simp
  | cons c ds =>
    simp only [ne_eq, List.cons_ne_nil, not_false_eq_true, true_and, Option.bind_eq_some_iff,
      Option.ite_none_right_eq_some, Option.some.injEq]
    constructor
    · rintro ⟨n, hnumber, hn, rfl⟩
      rw [hnumber, BitVec.toNat_ofNat, Nat.mod_eq_of_lt hn]
    · intro hnumber
      refine ⟨_, hnumber, f.bits.isLt, ?_⟩
      rw [BitVec.ofNat_toNat, BitVec.setWidth_eq]

/-- A piece is read as what it stands for. -/
theorem ofPiece?_eq_some_iff {p : List Char} {f : TypeFlags} :
    ofPiece? p = some f ↔ Denotes p f := by
  constructor
  · intro h
    unfold ofPiece? at h
    split at h
    · exact .number (ofHex?_eq_some_iff.1 h)
    · obtain ⟨⟨s, g⟩, hfind, rfl⟩ := Option.map_eq_some_iff.1 h
      have hs : s.toList = p := by simpa using List.find?_some hfind
      exact hs ▸ .name (List.mem_of_find?_eq_some hfind)
  · intro h
    cases h with
    | name h =>
      have hnamed : ∀ e ∈ named, ofPiece? e.1.toList = some e.2 := by decide
      exact hnamed _ h
    | number h => exact ofHex?_eq_some_iff.2 h

/-- A piece is no number, and no name that is declared. -/
def IsUndeclared (p : List Char) : Prop :=
  (∀ cs, p ≠ '0' :: 'x' :: cs) ∧ ∀ e ∈ named, p ≠ e.1.toList

/-- A piece begins as a number, but it is none of 32 bits. -/
def IsMalformed (p : List Char) : Prop :=
  ∃ cs, p = '0' :: 'x' :: cs ∧ ¬ ∃ n < 2 ^ 32, IsHexNumber cs n

/-- A piece is refused if it is neither a name that is declared nor a number of 32 bits. -/
theorem ofPiece?_eq_none_iff {p : List Char} :
    ofPiece? p = none ↔ IsUndeclared p ∨ IsMalformed p := by
  rw [Option.eq_none_iff_forall_ne_some]
  simp only [ne_eq, ofPiece?_eq_some_iff]
  constructor
  · intro h
    -- A piece that begins like a number is never taken for a name.
    by_cases hnumber : ∃ cs, p = '0' :: 'x' :: cs
    · obtain ⟨cs, rfl⟩ := hnumber
      refine .inr ⟨cs, rfl, ?_⟩
      rintro ⟨n, hn, hcs⟩
      refine h ⟨BitVec.ofNat 32 n⟩ (.number ?_)
      rwa [BitVec.toNat_ofNat, Nat.mod_eq_of_lt hn]
    · refine .inl ⟨fun cs hcs => hnumber ⟨cs, hcs⟩, ?_⟩
      rintro e he rfl
      exact h e.2 (.name he)
  · rintro (⟨hnumber, hname⟩ | ⟨cs, rfl, hcs⟩) f hf
    · cases hf with
      | name hf => exact hname _ hf rfl
      | number hf => exact hnumber _ rfl
    · refine hcs ⟨_, f.bits.isLt, ofHex?_eq_some_iff.1 ?_⟩
      exact ofPiece?_eq_some_iff.2 hf

/-! ## Texts -/

section Lists

variable {α β : Type} {g : α → Option β}

theorem mapM_eq_some_iff {xs : List α} {ys : List β} :
    xs.mapM g = some ys ↔ List.Forall₂ (fun x y => g x = some y) xs ys := by
  induction xs generalizing ys with
  | nil => simp [eq_comm]
  | cons x xs ih =>
    simp only [List.mapM_cons, List.forall₂_cons_left_iff, Option.bind_eq_bind,
      Option.bind_eq_some_iff, Option.pure_def, Option.some.injEq, ih]
    constructor
    · rintro ⟨y, hy, ys, hys, rfl⟩
      exact ⟨y, ys, hy, hys, rfl⟩
    · rintro ⟨y, ys, hy, hys, rfl⟩
      exact ⟨y, hy, ys, hys, rfl⟩

/-- What a list is mapped to are the images of its elements. -/
theorem mem_iff_of_forall₂ {xs : List α} {ys : List β}
    (h : List.Forall₂ (fun x y => g x = some y) xs ys) {z : β} :
    z ∈ ys ↔ ∃ x ∈ xs, g x = some z := by
  induction h with
  | nil => simp
  | cons hxy _ ih => rw [List.mem_cons, ih, List.exists_mem_cons_iff, hxy, Option.some.injEq, eq_comm]

theorem mapM_eq_none_iff {xs : List α} : xs.mapM g = none ↔ ∃ x ∈ xs, g x = none := by
  induction xs with
  | nil => simp
  | cons x xs ih =>
    rw [List.mapM_cons, List.exists_mem_cons_iff, ← ih]
    cases hx : g x with
    | none => simp
    | some y => cases hxs : xs.mapM g <;> simp

end Lists

theorem ext_getLsbD {f g : TypeFlags} (h : ∀ i, f.bits.getLsbD i ↔ g.bits.getLsbD i) : f = g := by
  obtain ⟨a⟩ := f
  obtain ⟨b⟩ := g
  exact congrArg mk (BitVec.eq_of_getLsbD_eq fun i _ => Bool.eq_iff_iff.2 (h i))

theorem foldl_union_eq_iff {fs : List TypeFlags} {f : TypeFlags} :
    fs.foldl union empty = f ↔ ∀ i, f.bits.getLsbD i ↔ ∃ g ∈ fs, g.bits.getLsbD i := by
  have hfold : ∀ i, (fs.foldl union empty).bits.getLsbD i ↔ ∃ g ∈ fs, g.bits.getLsbD i := by
    intro i
    have hempty : empty.bits.getLsbD i = false := BitVec.getLsbD_zero
    rw [getLsbD_foldl_union, hempty, Bool.false_or, List.any_eq_true]
  constructor
  · rintro rfl
    exact hfold
  · intro h
    exact ext_getLsbD fun i => (hfold i).trans (h i).symm

/-- The flags of a text are those of all its pieces. -/
theorem ofText?_eq_some_iff {s : String} {f : TypeFlags} :
    ofText? s = some f ↔ ∃ fs, List.Forall₂ Denotes (textPieces s) fs ∧
      ∀ i, f.bits.getLsbD i ↔ ∃ g ∈ fs, g.bits.getLsbD i := by
  simp only [ofText?_eq, Option.map_eq_some_iff, mapM_eq_some_iff, ofPiece?_eq_some_iff,
    foldl_union_eq_iff]

/-- A text is refused for one of its pieces. -/
theorem ofText?_eq_none_iff {s : String} :
    ofText? s = none ↔ ∃ p ∈ textPieces s, IsUndeclared p ∨ IsMalformed p := by
  simp only [ofText?_eq, Option.map_eq_none_iff, mapM_eq_none_iff, ofPiece?_eq_none_iff]

/-- A flag of a text is one of some piece. -/
theorem getLsbD_of_ofText? {s : String} {f : TypeFlags} (h : ofText? s = some f) (i : Nat) :
    f.bits.getLsbD i ↔ ∃ p ∈ textPieces s, ∃ g, Denotes p g ∧ g.bits.getLsbD i := by
  obtain ⟨fs, hfs, hbits⟩ := ofText?_eq_some_iff.1 h
  have hread : List.Forall₂ (fun p g => ofPiece? p = some g) (textPieces s) fs :=
    hfs.imp fun _ _ => ofPiece?_eq_some_iff.2
  simp only [hbits, mem_iff_of_forall₂ hread, ofPiece?_eq_some_iff]
  constructor
  · rintro ⟨g, ⟨p, hp, hpg⟩, hi⟩
    exact ⟨p, hp, g, hpg, hi⟩
  · rintro ⟨p, hp, g, hpg, hi⟩
    exact ⟨g, ⟨p, hp, hpg⟩, hi⟩

/-- It only matters which pieces there are. -/
theorem ofText?_congr {s t : String} (h : ∀ p, p ∈ textPieces s ↔ p ∈ textPieces t) :
    ofText? s = ofText? t := by
  have hnone : ofText? s = none ↔ ofText? t = none := by
    simp only [ofText?_eq_none_iff, h]
  cases hs : ofText? s with
  | none => exact (hnone.1 hs).symm
  | some f =>
    cases ht : ofText? t with
    | none => rw [hnone.2 ht] at hs; cases hs
    | some g =>
      refine congrArg some (ext_getLsbD fun i => ?_)
      simp only [getLsbD_of_ofText? hs, getLsbD_of_ofText? ht, h]

end TypeFlags

/-! ## Pieces between white space -/

/-- A piece with white space around it. -/
structure SpacedPiece where
  /-- The white space before the piece. -/
  before : List Char
  /-- The piece, without white space at its ends. -/
  piece : List Char
  /-- The white space after the piece. -/
  after : List Char
  blank_before : ∀ c ∈ before, isBlank c
  blank_after : ∀ c ∈ after, isBlank c
  ne_nil : piece ≠ []
  trimLeft_piece : trimLeft piece = piece
  trimRight_piece : trimRight piece = piece
  sign_notMem : '|' ∉ piece

namespace SpacedPiece

/-- All that stands between two signs. -/
def chars (p : SpacedPiece) : List Char := p.before ++ (p.piece ++ p.after)

theorem trimBlanks_chars (p : SpacedPiece) : trimBlanks p.chars = p.piece :=
  trimBlanks_append p.blank_before p.ne_nil p.trimLeft_piece p.trimRight_piece p.blank_after

theorem sign_notMem_chars (p : SpacedPiece) : '|' ∉ p.chars := by
  have hsign : isBlank '|' = false := by decide
  have hblank : ∀ {cs : List Char}, (∀ c ∈ cs, isBlank c) → '|' ∉ cs := fun h hm =>
    Bool.false_ne_true (hsign.symm.trans (h '|' hm))
  simp only [chars, List.mem_append, not_or]
  exact ⟨hblank p.blank_before, p.sign_notMem, hblank p.blank_after⟩

end SpacedPiece

/-- The text of some pieces with signs between them. -/
def spacedText (ps : List SpacedPiece) : String :=
  String.ofList (['|'].intercalate (ps.map SpacedPiece.chars))

/-- Pieces are found again, whatever white space is around them. -/
theorem TypeFlags.textPieces_spacedText (ps : List SpacedPiece) :
    textPieces (spacedText ps) = ps.map (·.piece) := by
  cases ps with
  | nil => rfl
  | cons p ps =>
    have hchars : (spacedText (p :: ps)).toList.splitOn '|' =
        (p :: ps).map SpacedPiece.chars := by
      rw [spacedText, String.toList_ofList]
      refine List.splitOn_intercalate '|' (fun cs hcs => ?_) (List.cons_ne_nil _ _)
      obtain ⟨q, -, rfl⟩ := List.mem_map.1 hcs
      exact q.sign_notMem_chars
    -- The first character of a piece is no white space.
    have hblank : ¬ ∀ c ∈ (spacedText (p :: ps)).toList, isBlank c := by
      intro h
      obtain ⟨c, cs, hc⟩ := List.exists_cons_of_ne_nil p.ne_nil
      have hc' : isBlank c = false := isBlank_of_trimLeft_cons (hc ▸ p.trimLeft_piece)
      refine Bool.false_ne_true (hc'.symm.trans (h c ?_))
      have hmem : c ∈ p.chars := by simp [SpacedPiece.chars, hc]
      rw [spacedText, String.toList_ofList]
      cases ps with
      | nil => simpa using hmem
      | cons q qs =>
        rw [List.map_cons, List.map_cons, List.intercalate_cons_cons]
        exact List.mem_append_left _ (List.mem_append_left _ hmem)
    rw [textPieces, if_neg fun h => hblank (trimBlanks_eq_nil_iff.1 h), hchars, List.map_map]
    exact List.map_congr_left fun q _ => q.trimBlanks_chars

end ComponentViews
