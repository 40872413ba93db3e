/-!
# Validator descriptors

A descriptor says which values a property of a component accepts at run time. Its text is an
expression that builds the validator.

## Main definitions

* `Descriptor`: the descriptors.
* `Descriptor.text`: the expression.
* `distinctBy`: a list without the elements whose key occurs before.
-/

namespace ComponentViews

/-- Which values a property accepts. -/
inductive Descriptor where
  /-- Truth values. -/
  | bool
  /-- Numbers. -/
  | number
  /-- Strings. -/
  | string
  /-- All values. -/
  | any
  /-- All that can be rendered. -/
  | node
  /-- Objects. -/
  | object
  /-- Lists of such values. -/
  | arrayOf (element : Descriptor)
  /-- The values with the given renderings. -/
  | oneOf (values : List String)
  /-- The values that one of the members accepts. -/
  | oneOfType (members : List Descriptor)
  deriving Repr, Inhabited

namespace Descriptor

/-- Whether all values are accepted. -/
def isAny : Descriptor → Bool
  | .any => true
  | _ => false

mutual

/-- The expression that builds the validator. -/
def text : Descriptor → String
  | .bool => "PropTypes.bool"
  | .number => "PropTypes.number"
  | .string => "PropTypes.string"
  | .any => "PropTypes.any"
  | .node => "PropTypes.node"
  | .object => "PropTypes.object"
  | .arrayOf element => "PropTypes.arrayOf(" ++ text element ++ ")"
  | .oneOf values => "PropTypes.oneOf([" ++ String.intercalate ", " values ++ "])"
  | .oneOfType members => "PropTypes.oneOfType([" ++ String.intercalate ", " (texts members) ++ "])"

/-- The expressions of several descriptors. -/
def texts : List Descriptor → List String
  | [] => []
  | d :: ds => text d :: texts ds

end

/-- The expressions of several descriptors are those of each. -/
theorem texts_eq_map (ds : List Descriptor) : texts ds = ds.map text := by
  induction ds with
  | nil => rfl
  | cons d ds ih => simp [texts, ih]

@[simp] theorem isAny_iff (d : Descriptor) : d.isAny ↔ d = .any := by
  cases d <;> simp [isAny]

end Descriptor

section Distinct

variable {α κ : Type} [DecidableEq κ]

/-- The elements whose key is not among those seen and does not occur before. -/
def distinctBy (key : α → κ) (seen : List κ) : List α → List α
  | [] => []
  | x :: xs =>
    if key x ∈ seen then distinctBy key seen xs
    else x :: distinctBy key (key x :: seen) xs

@[simp] theorem distinctBy_nil (key : α → κ) (seen : List κ) : distinctBy key seen [] = [] := rfl

/-- What is left was in the list and has a key that was not seen. -/
theorem mem_of_mem_distinctBy (key : α → κ) (seen : List κ) (xs : List α) {x : α}
    (h : x ∈ distinctBy key seen xs) : x ∈ xs ∧ key x ∉ seen := by
  induction xs generalizing seen with
  | nil => simp at h
  | cons y ys ih =>
    unfold distinctBy at h
    split at h
    · exact ⟨List.mem_cons_of_mem _ (ih _ h).1, (ih _ h).2⟩
    · rename_i hy
      rcases List.mem_cons.1 h with rfl | h
      · exact ⟨List.mem_cons_self, hy⟩
      · have := ih _ h
        exact ⟨List.mem_cons_of_mem _ this.1, fun hs => this.2 (List.mem_cons_of_mem _ hs)⟩

/-- No two elements that are left have one key. -/
theorem nodup_map_distinctBy (key : α → κ) (seen : List κ) (xs : List α) :
    ((distinctBy key seen xs).map key).Nodup := by
  induction xs generalizing seen with
  | nil => simp
  | cons y ys ih =>
    unfold distinctBy
    split
    · exact ih _
    · rw [List.map_cons, List.nodup_cons]
      refine ⟨fun hm => ?_, ih _⟩
      obtain ⟨x, hx, hk⟩ := List.mem_map.1 hm
      exact (mem_of_mem_distinctBy key _ ys hx).2 (by simp [hk])

/-- Of each key that was not seen an element is left. -/
theorem exists_mem_distinctBy (key : α → κ) {seen : List κ} {xs : List α} {x : α} (hx : x ∈ xs)
    (hs : key x ∉ seen) : ∃ y ∈ distinctBy key seen xs, key y = key x := by
  induction xs generalizing seen with
  | nil => cases hx
  | cons y ys ih =>
    unfold distinctBy
    by_cases hy : key y ∈ seen
    · rw [if_pos hy]
      rcases List.mem_cons.1 hx with rfl | hx
      · exact absurd hy hs
      · exact ih hx hs
    · rw [if_neg hy]
      by_cases hk : key x = key y
      · exact ⟨y, List.mem_cons_self, hk.symm⟩
      · have hx' : x ∈ ys := (List.mem_cons.1 hx).resolve_left fun he => hk (congrArg key he)
        have hs' : key x ∉ key y :: seen := by simp [hk, hs]
        obtain ⟨z, hz, hzk⟩ := ih hx' hs'
        exact ⟨z, List.mem_cons_of_mem _ hz, hzk⟩

end Distinct

end ComponentViews
