import ComponentViews.Json.Syntax
import ComponentViews.Json.Writer
import Mathlib.Algebra.Ring.Int.Defs
import Mathlib.Algebra.Ring.Nat
import Mathlib.Tactic.SplitIfs

/-!
# Written numbers and strings

An integer of at most 64 bits that is written in decimal digits is read as that integer, whatever
follows that could not go on with the numeral. A string that is written between quotation marks is
read as that string: each character is read back from what is written for it, and a quotation mark
stands for itself only at the end.

## Main definitions

* `EndsNumeral`: a text that does not go on with a numeral.
* `IsInteger64`: the integers that are read as integers.

## Main results

* `Numeral.read?_integerChars`: written integers read back.
* `JsonSyntax.readString?_quote`: quoted strings read back.
-/

namespace ComponentViews

/-! ## Numbers -/

/-- A text does not go on with a numeral. -/
def EndsNumeral (rest : List Char) : Prop :=
  ∀ c ∈ rest.head?, c.isDigit = false ∧ c ≠ '.' ∧ c ≠ 'e' ∧ c ≠ 'E'

theorem endsNumeral_nil : EndsNumeral [] := by simp [EndsNumeral]

theorem endsNumeral_cons {c : Char} {rest : List Char} :
    EndsNumeral (c :: rest) ↔ c.isDigit = false ∧ c ≠ '.' ∧ c ≠ 'e' ∧ c ≠ 'E' := by
  simp [EndsNumeral]

/-- An integer needs at most 64 bits, with or without a sign. -/
def IsInteger64 (n : Int) : Prop := -(2 ^ 63) ≤ n ∧ n < 2 ^ 64

namespace Numeral

/-- The decimal digits of a natural number as numbers. -/
def decimalDigits (n : Nat) : List Nat := (decimalChars n).map fun c => c.toNat - 48

theorem ofDigits_decimalDigits (n : Nat) : ofDigits (decimalDigits n) = n := by
  have h := Nat.ofDigitChars_toDigits (b := 10) (n := n) (by decide) (by decide)
  rw [ofDigits, decimalDigits, List.foldl_map]
  exact h

theorem isDigit_of_mem_decimalChars {n : Nat} {c : Char} (h : c ∈ decimalChars n) :
    c.isDigit = true :=
  Nat.isDigit_of_mem_toDigits (by decide) (by decide) h

theorem decimalChars_ne_nil (n : Nat) : decimalChars n ≠ [] := Nat.toDigits_ne_nil

/-- The first digit of a number other than zero is not zero. -/
theorem exists_decimalDigits_cons {n : Nat} (hn : 0 < n) :
    ∃ d ds, decimalDigits n = d :: ds ∧ d ≠ 0 := by
  induction n using Nat.strongRecOn with
  | _ n ih =>
    rw [decimalDigits, decimalChars, Nat.toDigits_eq_if (by decide)]
    split
    · rename_i hlt
      refine ⟨n.digitChar.toNat - 48, [], rfl, ?_⟩
      rw [Nat.toNat_digitChar_of_lt_ten hlt]
      omega
    · obtain ⟨d, ds, hds, hd⟩ := ih (n / 10) (by omega) (by omega)
      rw [List.map_append]
      exact ⟨d, ds ++ _, congrArg (· ++ _) hds, hd⟩

/-- A number other than zero has no zero before its other digits. -/
theorem decimalDigits_ne_zero_cons (n d : Nat) (ds : List Nat) :
    decimalDigits n ≠ 0 :: d :: ds := by
  intro h
  rcases Nat.eq_zero_or_pos n with rfl | hn
  · have hzero : decimalDigits 0 = [0] := by decide
    rw [hzero] at h
    cases h
  · obtain ⟨d', ds', hds, hd⟩ := exists_decimalDigits_cons hn
    rw [hds] at h
    cases h
    exact hd rfl

theorem digits_decimalChars (n : Nat) {rest : List Char} (hrest : EndsNumeral rest) :
    digits (decimalChars n ++ rest) = (decimalDigits n, rest) := by
  have hall : ∀ c ∈ decimalChars n, c.isDigit = true := fun c => isDigit_of_mem_decimalChars
  unfold digits
  rw [List.takeWhile_append_of_pos hall, List.dropWhile_append_of_pos hall]
  cases rest with
  | nil => simp [decimalDigits]
  | cons c rest =>
    have hc := (endsNumeral_cons.1 hrest).1
    simp [decimalDigits, hc]

theorem readFraction?_of_ends {rest : List Char} (hrest : EndsNumeral rest) :
    readFraction? rest = some ([], rest) := by
  unfold readFraction?
  split
  · exact absurd rfl (endsNumeral_cons.1 hrest).2.1
  · rfl

theorem readExponent?_of_ends {rest : List Char} (hrest : EndsNumeral rest) :
    readExponent? rest = some (none, rest) := by
  unfold readExponent?
  split
  all_goals first
    | rfl
    | exact absurd rfl (endsNumeral_cons.1 hrest).2.2.1
    | exact absurd rfl (endsNumeral_cons.1 hrest).2.2.2

theorem readUnsigned?_decimalChars (negative : Bool) (n : Nat) {rest : List Char}
    (hrest : EndsNumeral rest) :
    readUnsigned? negative (decimalChars n ++ rest) =
      some (⟨negative, decimalDigits n, [], none⟩, rest) := by
  unfold readUnsigned?
  rw [digits_decimalChars n hrest]
  split
  · rename_i h
    have hnil : decimalDigits n = [] := (Prod.ext_iff.1 h).1
    exact absurd (List.map_eq_nil_iff.1 hnil) (decimalChars_ne_nil n)
  · rename_i h
    exact absurd (Prod.ext_iff.1 h).1 (decimalDigits_ne_zero_cons n _ _)
  · rename_i h
    obtain ⟨rfl, rfl⟩ := Prod.ext_iff.1 h
    simp [readFraction?_of_ends hrest, readExponent?_of_ends hrest]

theorem exists_decimalChars_cons (n : Nat) :
    ∃ c cs, decimalChars n = c :: cs ∧ c.isDigit = true := by
  obtain ⟨c, cs, h⟩ := List.exists_cons_of_ne_nil (decimalChars_ne_nil n)
  exact ⟨c, cs, h, isDigit_of_mem_decimalChars (h ▸ List.mem_cons_self)⟩

theorem value?_decimalDigits_nonneg {n : Nat} (h : n < 2 ^ 64) :
    value? ⟨false, decimalDigits n, [], none⟩ = some (.integer n) := by
  have hmax : n ≤ wordMax := Nat.le_sub_one_of_lt h
  simp [value?, integer?, ofDigits_decimalDigits, hmax]

theorem value?_decimalDigits_neg {n : Nat} (hpos : 0 < n) (h : n ≤ 2 ^ 63) :
    value? ⟨true, decimalDigits n, [], none⟩ = some (.integer (-n)) := by
  have hmax : n ≤ Nat.pow 2 63 := h
  simp [value?, integer?, ofDigits_decimalDigits, hmax, hpos]

theorem read?_integerChars {i : Int} (hi : IsInteger64 i) {rest : List Char}
    (hrest : EndsNumeral rest) :
    ∃ m, read? (integerChars i ++ rest) = some (m, rest) ∧ m.value? = some (.integer i) := by
  obtain ⟨hlow, hhigh⟩ := hi
  cases i with
  | ofNat n =>
    have hn : n < 2 ^ 64 := Int.ofNat_lt.1 hhigh
    refine ⟨⟨false, decimalDigits n, [], none⟩, ?_, value?_decimalDigits_nonneg hn⟩
    rw [← readUnsigned?_decimalChars false n hrest, integerChars]
    -- A digit is no sign.
    obtain ⟨c, cs, hcs, hc⟩ := exists_decimalChars_cons n
    rw [hcs, List.cons_append, read?.eq_2]
    rintro cs' h
    cases h
    exact absurd hc (by decide)
  | negSucc n =>
    refine ⟨⟨true, decimalDigits (n + 1), [], none⟩, ?_, ?_⟩
    · exact readUnsigned?_decimalChars true (n + 1) hrest
    · rw [value?_decimalDigits_neg (by omega) (by omega)]
      rfl

theorem exists_integerChars_cons (i : Int) :
    ∃ c cs, integerChars i = c :: cs ∧ (c.isDigit = true ∨ c = '-') := by
  cases i with
  | ofNat n =>
    obtain ⟨c, cs, h, hc⟩ := exists_decimalChars_cons n
    exact ⟨c, cs, h, .inl hc⟩
  | negSucc n => exact ⟨'-', _, rfl, .inr rfl⟩

end Numeral

/-! ## Strings -/

namespace JsonSyntax

theorem escapeUnit?_control {c : Char} (h : c.toNat < 0x20) :
    escapeUnit? '0' '0' (hexDigit (c.toNat / 16)) (hexDigit (c.toNat % 16)) = some (.char c) := by
  have hzero : hexValue? '0' = some 0 := by decide
  have hhigh := hexValue?_hexDigit (c.toNat / 16) (by omega)
  have hlow := hexValue?_hexDigit (c.toNat % 16) (by omega)
  have hsum : 16 * (c.toNat / 16) + c.toNat % 16 = c.toNat := by omega
  have hsmall : ¬ (0xD800 ≤ c.toNat ∧ c.toNat ≤ 0xDFFF) := by omega
  simp [escapeUnit?, hzero, hhigh, hlow, hsum, hsmall]

theorem stringUnits?_escape {e c : Char} (he : escapeChar? e = some c) (seen : List TextUnit)
    (rest : List Char) :
    stringUnits? seen ('\\' :: e :: rest) = stringUnits? (.char c :: seen) rest := by
  have hu : e ≠ 'u' := by
    rintro rfl
    cases he
  rw [stringUnits?.eq_def]
  simp [he, hu]

/-- A character is read back from what is written for it. -/
theorem stringUnits?_quoteChar (c : Char) (seen : List TextUnit) (rest : List Char) :
    stringUnits? seen (Json.quoteChar c ++ rest) = stringUnits? (.char c :: seen) rest := by
  unfold Json.quoteChar
  split_ifs with hquote hsolidus hplain hbackspace hfeed hline hreturn htab
  · exact stringUnits?_escape (by rw [hquote]; rfl) seen rest
  · exact stringUnits?_escape (by rw [hsolidus]; rfl) seen rest
  · have hkeep : ¬ (c.toNat < 0x20 ∨ c = '\\') := not_or.2 ⟨Nat.not_lt.2 hplain, hsolidus⟩
    rw [List.singleton_append, stringUnits?.eq_def]
    split
    case h_5 h =>
      obtain ⟨rfl, rfl⟩ := List.cons.inj h
      exact if_neg hkeep
    all_goals simp_all
  · exact stringUnits?_escape (by rw [hbackspace]; rfl) seen rest
  · exact stringUnits?_escape (by rw [hfeed]; rfl) seen rest
  · exact stringUnits?_escape (by rw [hline]; rfl) seen rest
  · exact stringUnits?_escape (by rw [hreturn]; rfl) seen rest
  · exact stringUnits?_escape (by rw [htab]; rfl) seen rest
  · simp [stringUnits?, escapeUnit?_control (Nat.lt_of_not_le hplain)]

theorem stringUnits?_flatMap_quoteChar (cs : List Char) (seen : List TextUnit) (rest : List Char) :
    stringUnits? seen (cs.flatMap Json.quoteChar ++ '"' :: rest) =
      some (seen.reverse ++ cs.map .char, rest) := by
  induction cs generalizing seen with
  | nil => simp [stringUnits?]
  | cons c cs ih =>
    rw [List.flatMap_cons, List.append_assoc, stringUnits?_quoteChar, ih]
    simp

theorem joinUnits?_map_char (cs seen : List Char) :
    joinUnits? seen (cs.map .char) = some (seen.reverse ++ cs) := by
  induction cs generalizing seen with
  | nil => simp [joinUnits?]
  | cons c cs ih =>
    rw [List.map_cons, joinUnits?, ih]
    simp

theorem readString?_quote (s : String) (rest : List Char) :
    readString? (s.toList.flatMap Json.quoteChar ++ '"' :: rest) = some (some s, rest) := by
  rw [readString?, stringUnits?_flatMap_quoteChar]
  simp [joinUnits?_map_char]

end JsonSyntax

end ComponentViews
