import ComponentViews.Text.Digits

/-!
# Hexadecimal digits are read back

## Main results

* `hexNumber?_hexDigits`: the digits of a number stand for the number.
* `exists_of_mem_hexDigits`: they are digits of numbers below sixteen.
-/

namespace ComponentViews

theorem hexNumber?_append (start : Nat) (cs ds : List Char) :
    hexNumber? start (cs ++ ds) = (hexNumber? start cs).bind fun n => hexNumber? n ds := by
  induction cs generalizing start with
  | nil => rfl
  | cons c cs ih =>
    rw [List.cons_append, hexNumber?, hexNumber?, Option.bind_assoc]
    simp only [ih]

theorem hexNumber?_hexDigits (n : Nat) : hexNumber? 0 (hexDigits n) = some n := by
  induction n using hexDigits.induct with
  | case1 n h =>
    rw [hexDigits, if_pos h, hexNumber?, hexValue?_hexDigit n h]
    simp [hexNumber?]
  | case2 n h ih =>
    have hdigit := hexValue?_hexDigit (n % 16) (Nat.mod_lt n (by decide))
    rw [hexDigits, if_neg h, hexNumber?_append, ih, Option.bind_some, hexNumber?, hdigit,
      Option.bind_some, hexNumber?, Nat.div_add_mod]

theorem exists_of_mem_hexDigits {n : Nat} {c : Char} (h : c ∈ hexDigits n) :
    ∃ d < 16, c = hexDigit d := by
  induction n using hexDigits.induct with
  | case1 n hn =>
    rw [hexDigits, if_pos hn, List.mem_singleton] at h
    exact ⟨n, hn, h⟩
  | case2 n hn ih =>
    rw [hexDigits, if_neg hn, List.mem_append, List.mem_singleton] at h
    exact h.elim ih fun h => ⟨n % 16, Nat.mod_lt n (by decide), h⟩

theorem hexDigits_ne_nil (n : Nat) : hexDigits n ≠ [] := by
  rw [hexDigits]
  split <;> simp

end ComponentViews
