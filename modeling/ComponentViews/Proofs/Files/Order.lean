import ComponentViews.Files.Path
import Mathlib.Data.Char
import Mathlib.Data.List.Lex
import Mathlib.Data.List.Sort
import Mathlib.Data.Prod.Lex
import Mathlib.Order.RelClasses

/-!
# The order of paths

Paths are compared part by part, and parts by their kind and then by their characters. So the order
of paths is that of the lists of their parts' keys, which is total; paths are not after one another
only if they have the same parts. Sorting therefore brings paths with different parts into the one
order that there is, however they were listed.

## Main definitions

* `PathPart.key`: what parts are compared by.
* `DistinctPaths`: no two of some paths have the same parts.

## Main results

* `pathLe_iff`: the order of paths is that of the keys of their parts.
* `ascending_mergeSort`: sorted paths are in order.
* `eq_of_perm_of_ascending`: there is only one order for paths with different parts.
-/

namespace ComponentViews

namespace PathPart

/-- The kind of a part and its characters. -/
def key (p : PathPart) : Nat ×ₗ List Char := toLex (p.rank, p.segment)

theorem key_injective : Function.Injective key := by
  intro a b h
  obtain ⟨hrank, hsegment⟩ := Prod.ext_iff.1 (toLex.injective h)
  cases a <;> cases b <;> simp_all [rank, segment]

theorem before_iff (a b : PathPart) : a.before b ↔ a.key < b.key := by
  simp [before, key, Prod.Lex.toLex_lt_toLex]

end PathPart

/-- One list of parts is not after another exactly if the other's keys are not before its own. -/
theorem partsLe_iff (as bs : List PathPart) :
    partsLe as bs ↔ ¬ bs.map PathPart.key < as.map PathPart.key := by
  induction as generalizing bs with
  | nil => simp [partsLe]
  | cons a as ih =>
    cases bs with
    | nil => simp [partsLe]
    | cons b bs =>
      rw [List.map_cons, List.map_cons, List.cons_lt_cons_iff]
      simp only [partsLe, Bool.or_eq_true, Bool.and_eq_true, Bool.not_eq_true',
        ← Bool.not_eq_true, PathPart.before_iff, ih]
      rcases lt_trichotomy a.key b.key with h | h | h
      · simp [h, h.not_gt, h.ne']
      · simp [h]
      · simp [h, h.not_gt]

theorem pathLe_iff (a b : String) :
    pathLe a b ↔ ¬ (pathParts b).map PathPart.key < (pathParts a).map PathPart.key :=
  partsLe_iff _ _

theorem pathLe_trans (a b c : String) (hab : pathLe a b) (hbc : pathLe b c) : pathLe a c := by
  rw [pathLe_iff, not_lt] at *
  exact hab.trans hbc

theorem pathLe_total (a b : String) : pathLe a b || pathLe b a := by
  rw [Bool.or_eq_true, pathLe_iff, pathLe_iff, not_lt, not_lt]
  exact le_total _ _

theorem parts_eq_of_pathLe {a b : String} (hab : pathLe a b) (hba : pathLe b a) :
    pathParts a = pathParts b := by
  rw [pathLe_iff, not_lt] at *
  exact List.map_injective_iff.2 PathPart.key_injective (le_antisymm hab hba)

/-- No two of some paths have the same parts. -/
def DistinctPaths (paths : List String) : Prop := (paths.map pathParts).Nodup

/-- Paths are in order. -/
def AscendingPaths (paths : List String) : Prop := paths.Pairwise fun a b => pathLe a b

instance (paths : List String) : Decidable (DistinctPaths paths) :=
  inferInstanceAs (Decidable (paths.map pathParts).Nodup)

instance (paths : List String) : Decidable (AscendingPaths paths) :=
  inferInstanceAs (Decidable (paths.Pairwise fun a b => pathLe a b))

variable {paths others : List String}

theorem DistinctPaths.nodup (h : DistinctPaths paths) : paths.Nodup := List.Nodup.of_map _ h

theorem ascending_mergeSort (paths : List String) : AscendingPaths (paths.mergeSort pathLe) :=
  List.pairwise_mergeSort pathLe_trans pathLe_total paths

/-- There is only one order for things whose paths are among some that have different parts. -/
theorem eq_of_perm_of_ascending {α : Type} (path : α → String) {xs ys : List α}
    (hpaths : DistinctPaths paths) (hinj : ∀ x ∈ xs, ∀ y ∈ ys, path x = path y → x = y)
    (hxs : ∀ x ∈ xs, path x ∈ paths) (hys : ∀ y ∈ ys, path y ∈ paths)
    (hx : AscendingPaths (xs.map path)) (hy : AscendingPaths (ys.map path)) (h : xs.Perm ys) :
    xs = ys := by
  refine List.Perm.eq_of_pairwise (fun x y hxm hym hxy hyx => ?_) (List.pairwise_map.1 hx)
    (List.pairwise_map.1 hy) h
  have hparts := parts_eq_of_pathLe hxy hyx
  exact hinj x hxm y hym (List.inj_on_of_nodup_map hpaths (hxs x hxm) (hys y hym) hparts)

end ComponentViews
