import Mathlib.Data.List.Nodup

/-!
# Distributed lists

A list is distributed over two others if each of its elements, in their order, gives rise to one
element of exactly one of the two, and nothing else is in them. Both lists are then in the order of
the first, and elements that occur more than once are distributed as often as they occur.

## Main definitions

* `Distributed`: a list that is distributed over two.

## Main results

* `Distributed.exists_of_mem_left`, `Distributed.exists_of_mem_right`: nothing else is in the two.
* `Distributed.ne_of_nodup`: elements with distinct keys are distributed over lists without common
  keys.
-/

namespace ComponentViews

/-- Each element of a list, in order, corresponds to one element of the second or of the third. -/
inductive Distributed {α β γ : Type} (R : α → β → Prop) (S : α → γ → Prop) :
    List α → List β → List γ → Prop
  | nil : Distributed R S [] [] []
  | left {x : α} {y : β} {xs : List α} {ys : List β} {zs : List γ} (h : R x y)
      (hs : Distributed R S xs ys zs) : Distributed R S (x :: xs) (y :: ys) zs
  | right {x : α} {z : γ} {xs : List α} {ys : List β} {zs : List γ} (h : S x z)
      (hs : Distributed R S xs ys zs) : Distributed R S (x :: xs) ys (z :: zs)

namespace Distributed

variable {α β γ κ : Type} {R R' : α → β → Prop} {S S' : α → γ → Prop} {xs : List α} {ys : List β}
  {zs : List γ}

theorem mono (h : Distributed R S xs ys zs) (hR : ∀ x ∈ xs, ∀ y, R x y → R' x y)
    (hS : ∀ x ∈ xs, ∀ z, S x z → S' x z) : Distributed R' S' xs ys zs := by
  induction h with
  | nil => exact nil
  | @left x y xs ys zs h _ ih =>
    refine left (hR x List.mem_cons_self y h) (ih ?_ ?_)
    · exact fun a ha => hR a (List.mem_cons_of_mem x ha)
    · exact fun a ha => hS a (List.mem_cons_of_mem x ha)
  | @right x z xs ys zs h _ ih =>
    refine right (hS x List.mem_cons_self z h) (ih ?_ ?_)
    · exact fun a ha => hR a (List.mem_cons_of_mem x ha)
    · exact fun a ha => hS a (List.mem_cons_of_mem x ha)

/-- What is distributed after a map is distributed before it. -/
theorem of_map {δ : Type} {f : δ → α} {ds : List δ} (h : Distributed R S (ds.map f) ys zs) :
    Distributed (fun d y => R (f d) y) (fun d z => S (f d) z) ds ys zs := by
  induction ds generalizing ys zs with
  | nil =>
    cases h
    exact nil
  | cons d ds ih =>
    cases h with
    | left h hs => exact left h (ih hs)
    | right h hs => exact right h (ih hs)

theorem exists_of_mem_left (h : Distributed R S xs ys zs) {y : β} (hy : y ∈ ys) :
    ∃ x ∈ xs, R x y := by
  induction h with
  | nil => cases hy
  | @left x _ _ _ _ h _ ih =>
    rcases List.mem_cons.1 hy with rfl | hy
    · exact ⟨x, List.mem_cons_self, h⟩
    · obtain ⟨a, ha, hR⟩ := ih hy
      exact ⟨a, List.mem_cons_of_mem x ha, hR⟩
  | @right x _ _ _ _ _ _ ih =>
    obtain ⟨a, ha, hR⟩ := ih hy
    exact ⟨a, List.mem_cons_of_mem x ha, hR⟩

theorem exists_of_mem_right (h : Distributed R S xs ys zs) {z : γ} (hz : z ∈ zs) :
    ∃ x ∈ xs, S x z := by
  induction h with
  | nil => cases hz
  | @left x _ _ _ _ _ _ ih =>
    obtain ⟨a, ha, hS⟩ := ih hz
    exact ⟨a, List.mem_cons_of_mem x ha, hS⟩
  | @right x _ _ _ _ h _ ih =>
    rcases List.mem_cons.1 hz with rfl | hz
    · exact ⟨x, List.mem_cons_self, h⟩
    · obtain ⟨a, ha, hS⟩ := ih hz
      exact ⟨a, List.mem_cons_of_mem x ha, hS⟩

/-- Elements with distinct keys are distributed over lists that have no key in common. -/
theorem ne_of_nodup (h : Distributed R S xs ys zs) (key : α → κ) (keyLeft : β → κ)
    (keyRight : γ → κ) (hR : ∀ x y, R x y → keyLeft y = key x)
    (hS : ∀ x z, S x z → keyRight z = key x) (hnd : (xs.map key).Nodup) :
    ∀ y ∈ ys, ∀ z ∈ zs, keyLeft y ≠ keyRight z := by
  induction h with
  | nil => simp
  | @left x y xs ys zs hxy hs ih =>
    rw [List.map_cons, List.nodup_cons] at hnd
    intro b hb z hz
    rcases List.mem_cons.1 hb with rfl | hb
    · -- The key on the left is that of the first element, and the one on the right that of another.
      obtain ⟨a, ha, hSa⟩ := hs.exists_of_mem_right hz
      rw [hR x b hxy, hS a z hSa]
      intro he
      exact hnd.1 (he ▸ List.mem_map_of_mem ha)
    · exact ih hnd.2 b hb z hz
  | @right x z xs ys zs hxz hs ih =>
    rw [List.map_cons, List.nodup_cons] at hnd
    intro y hy w hw
    rcases List.mem_cons.1 hw with rfl | hw
    · obtain ⟨a, ha, hRa⟩ := hs.exists_of_mem_left hy
      rw [hR a y hRa, hS x w hxz]
      intro he
      exact hnd.1 (he ▸ List.mem_map_of_mem ha)
    · exact ih hnd.2 y hy w hw

end Distributed

end ComponentViews
