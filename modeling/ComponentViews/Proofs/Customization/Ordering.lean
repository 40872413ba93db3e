import ComponentViews.Proofs.Customization
import Mathlib.Data.List.Induction

/-!
# The order of properties under customization

The order wanted is a list of names, in which names may be repeated and names may occur that no
property has. Properties are sorted by the place of their names in that list, and all that have no
place come last. As sorting keeps properties of one place in their order, this brings together the
properties of each name in the list and leaves all others behind them as they were.

## Main definitions

* `ComponentOverrides.collected`: the properties when all but their order is settled.
* `groupProperties`: the properties of each name in a list, and then all others.

## Main results

* `filter_orderProperties`: properties of one place keep their order.
* `groupProperties_of_pairwise`: properties in the order of their places are grouped already.
* `orderProperties_eq_groupProperties`: to sort properties by their places is to group them.
* `Overrides.properties_customize_grouped`: the order of the properties after customization.
-/

namespace ComponentViews

/-- The properties when all but their order is settled: some are restored, some under other names,
some added. -/
def ComponentOverrides.collected (o : ComponentOverrides) (skipped : List SkippedProperty)
    (v : ComponentView) : List ForwardedProperty :=
  (o.inject.map InjectedProperty.toForwarded).foldl injectProperty
    (((o.kept v).retypeAll skipped o.propTypes).value.properties.map (renameProperty o.renameProps))

theorem ComponentOverrides.properties_apply (o : ComponentOverrides)
    (skipped : List SkippedProperty) (v : ComponentView) :
    (o.apply skipped v).value.properties = orderProperties o.order (o.collected skipped v) := rfl

/-- A view is customized by the overrides for its name. -/
theorem Overrides.customize_eq_apply {overrides : Overrides} {v : ComponentView}
    {o : ComponentOverrides} (ho : valueOf? overrides v.name = some o)
    (skipped : List SkippedProperty) : overrides.customize skipped v = o.apply skipped v := by
  rw [customize, ho]

/-- The properties of each name in a list, at its first place, and then all others. Properties that
are in one group keep their order. -/
def groupProperties (order : List String) (ps : List ForwardedProperty) : List ForwardedProperty :=
  (order.eraseDups.flatMap fun n => ps.filter fun p => p.name = n) ++
    ps.filter fun p => p.name ∉ order

/-! ## Properties in the order of their places -/

/-- A list in the order of a key is what has a key below a bound and then the rest. -/
theorem filter_append_filter_of_pairwise {α : Type} {key : α → Nat} {xs : List α}
    (h : xs.Pairwise fun x y => key x ≤ key y) (k : Nat) :
    (xs.filter fun x => key x < k) ++ (xs.filter fun x => k ≤ key x) = xs := by
  induction xs with
  | nil => rfl
  | cons x xs ih =>
    obtain ⟨hfirst, hrest⟩ := List.pairwise_cons.1 h
    by_cases hx : key x < k
    · simp [hx, ih hrest]
    · have hge : ∀ y ∈ xs, k ≤ key y := fun y hy => Nat.le_trans (Nat.not_lt.1 hx) (hfirst y hy)
      have hbelow : (xs.filter fun y => key y < k) = [] :=
        List.filter_eq_nil_iff.2 fun y hy => by simpa using hge y hy
      have habove : (xs.filter fun y => k ≤ key y) = xs :=
        List.filter_eq_self.2 fun y hy => by simpa using hge y hy
      simp [hx, Nat.not_lt.1 hx, hbelow, habove]

variable {order : List String} {ps : List ForwardedProperty} {n : String}

/-- Places that are in order stay so without the last name. -/
theorem idxOf_le_of_concat {m k : String}
    (h : (order ++ [n]).idxOf m ≤ (order ++ [n]).idxOf k) : order.idxOf m ≤ order.idxOf k := by
  rw [List.idxOf_append, List.idxOf_append] at h
  by_cases hk : k ∈ order
  · by_cases hm : m ∈ order
    · rwa [if_pos hm, if_pos hk] at h
    · -- A name without a place would be before one with a place.
      rw [if_neg hm, if_pos hk] at h
      exact absurd (List.idxOf_lt_length_of_mem hk) (by omega)
  · rw [List.idxOf_eq_length hk]
    exact List.idxOf_le_length

/-- Of the properties without a place those with one more name come first, if this makes up their
order. -/
theorem filter_not_mem_concat (hn : n ∉ order)
    (h : ps.Pairwise fun p q => (order ++ [n]).idxOf p.name ≤ (order ++ [n]).idxOf q.name) :
    ((ps.filter fun p => p.name = n) ++ ps.filter fun p => p.name ∉ order ++ [n]) =
      ps.filter fun p => p.name ∉ order := by
  have hsplit := filter_append_filter_of_pairwise
    (h.sublist (List.filter_sublist (p := fun p => p.name ∉ order))) (order ++ [n]).length
  rw [List.filter_filter, List.filter_filter] at hsplit
  rw [← hsplit]
  congr 1
  · refine List.filter_congr fun p _ => ?_
    rw [← Bool.decide_and, decide_eq_decide, List.idxOf_lt_length_iff, List.mem_append,
      List.mem_singleton]
    constructor
    · intro hp
      exact ⟨.inr hp, hp ▸ hn⟩
    · rintro ⟨hp, hnot⟩
      exact hp.resolve_left hnot
  · refine List.filter_congr fun p _ => ?_
    rw [← Bool.decide_and, decide_eq_decide, ← Nat.not_lt, List.idxOf_lt_length_iff]
    exact (and_iff_left_of_imp fun hp hm => hp (List.mem_append_left [n] hm)).symm

/-- Properties in the order of their places are grouped already. -/
theorem groupProperties_of_pairwise
    (h : ps.Pairwise fun p q => order.idxOf p.name ≤ order.idxOf q.name) :
    groupProperties order ps = ps := by
  -- One more name at the end of the list takes its group from all others.
  induction order using List.reverseRecOn with
  | nil => simp [groupProperties]
  | append_singleton order n ih =>
    have hbefore := ih (h.imp fun hpq => idxOf_le_of_concat hpq)
    unfold groupProperties at hbefore ⊢
    rw [List.eraseDups_append]
    by_cases hn : n ∈ order
    · -- The group of a repeated name is there already.
      have hnone : [n].removeAll order = [] := by simp [List.removeAll, hn]
      have hothers : (ps.filter fun p => p.name ∉ order ++ [n]) =
          ps.filter fun p => p.name ∉ order := by
        refine List.filter_congr fun p _ => decide_eq_decide.2 ?_
        rw [List.mem_append, List.mem_singleton, or_iff_left_of_imp]
        rintro rfl
        exact hn
      rw [hnone, List.eraseDups_nil, List.append_nil, hothers, hbefore]
    · have hone : [n].removeAll order = [n] := by simp [List.removeAll, hn]
      rw [hone, List.flatMap_append, List.append_assoc]
      have hgroup : ([n].eraseDups.flatMap fun m => ps.filter fun p => p.name = m) =
          ps.filter fun p => p.name = n := by simp [List.eraseDups_cons]
      rw [hgroup, filter_not_mem_concat hn h, hbefore]

/-! ## Sorting by places -/

theorem place_le_trans (order : List String) (p q r : ForwardedProperty)
    (hpq : decide (order.idxOf p.name ≤ order.idxOf q.name))
    (hqr : decide (order.idxOf q.name ≤ order.idxOf r.name)) :
    decide (order.idxOf p.name ≤ order.idxOf r.name) :=
  decide_eq_true (Nat.le_trans (of_decide_eq_true hpq) (of_decide_eq_true hqr))

theorem place_le_total (order : List String) (p q : ForwardedProperty) :
    decide (order.idxOf p.name ≤ order.idxOf q.name) ||
      decide (order.idxOf q.name ≤ order.idxOf p.name) := by
  simpa using Nat.le_total (order.idxOf p.name) (order.idxOf q.name)

theorem pairwise_orderProperties (order : List String) (ps : List ForwardedProperty) :
    (orderProperties order ps).Pairwise fun p q => order.idxOf p.name ≤ order.idxOf q.name := by
  have h := List.pairwise_mergeSort (place_le_trans order) (place_le_total order) ps
  simpa only [orderProperties, decide_eq_true_eq] using h

theorem perm_orderProperties (order : List String) (ps : List ForwardedProperty) :
    (orderProperties order ps).Perm ps :=
  List.mergeSort_perm ps _

/-- Properties of one place keep their order. -/
theorem filter_orderProperties {select : ForwardedProperty → Bool}
    (h : ∀ p q, select p → select q → order.idxOf p.name = order.idxOf q.name) :
    (orderProperties order ps).filter select = ps.filter select := by
  have hsorted : (ps.filter select).Pairwise fun p q =>
      decide (order.idxOf p.name ≤ order.idxOf q.name) := by
    refine List.pairwise_of_forall_mem_list fun p hp q hq => ?_
    have hplace := h p q (List.mem_filter.1 hp).2 (List.mem_filter.1 hq).2
    exact decide_eq_true (Nat.le_of_eq hplace)
  -- So sorting leaves them as a part of the list, and there are as many of them as before.
  have hsub : (ps.filter select).Sublist ((orderProperties order ps).filter select) := by
    have hsub := (List.sublist_mergeSort (place_le_trans order) (place_le_total order) hsorted
      List.filter_sublist).filter select
    rwa [List.filter_filter, funext fun p => Bool.and_self (select p)] at hsub
  exact (hsub.eq_of_length ((perm_orderProperties order ps).filter select).length_eq.symm).symm

theorem groupProperties_orderProperties :
    groupProperties order (orderProperties order ps) = groupProperties order ps := by
  unfold groupProperties
  have hothers : ((orderProperties order ps).filter fun p => p.name ∉ order) =
      ps.filter fun p => p.name ∉ order := by
    refine filter_orderProperties fun p q hp hq => ?_
    rw [List.idxOf_eq_length (of_decide_eq_true hp), List.idxOf_eq_length (of_decide_eq_true hq)]
  have hname : ∀ n, ((orderProperties order ps).filter fun p => p.name = n) =
      ps.filter fun p => p.name = n := by
    intro n
    refine filter_orderProperties fun p q hp hq => ?_
    rw [of_decide_eq_true hp, of_decide_eq_true hq]
  simp only [hothers, hname]

/-- To sort properties by the places of their names is to group them by their names. -/
theorem orderProperties_eq_groupProperties (order : List String) (ps : List ForwardedProperty) :
    orderProperties order ps = groupProperties order ps := by
  rw [← groupProperties_orderProperties,
    groupProperties_of_pairwise (pairwise_orderProperties order ps)]

theorem orderProperties_orderProperties (order : List String) (ps : List ForwardedProperty) :
    orderProperties order (orderProperties order ps) = orderProperties order ps := by
  rw [orderProperties_eq_groupProperties order (orderProperties order ps),
    groupProperties_orderProperties, orderProperties_eq_groupProperties]

theorem orderProperties_nil (ps : List ForwardedProperty) : orderProperties [] ps = ps := by
  simp [orderProperties_eq_groupProperties, groupProperties]

/-! ## Customization -/

/-- **The order after customization.** If there are overrides for a view, its properties are in the
order wanted by them: first those of each name in the list of these overrides, at its first place, and
then all others, where the properties of each name and all others are in the order in which they were
left by the steps before. None is lost or doubled, the same order changes nothing when it is wanted
again, and neither does an empty list. -/
theorem Overrides.properties_customize_grouped {overrides : Overrides} {v : ComponentView}
    {o : ComponentOverrides} (ho : valueOf? overrides v.name = some o)
    (skipped : List SkippedProperty) :
    let before := o.collected skipped v
    let after := (overrides.customize skipped v).value.properties
    after = (o.order.eraseDups.flatMap fun n => before.filter fun p => p.name = n) ++
        (before.filter fun p => p.name ∉ o.order) ∧
      after.Perm before ∧ orderProperties o.order after = after ∧
      (o.order = [] → after = before) := by
  intro before after
  have hafter : after = orderProperties o.order before := by
    unfold after
    rw [Overrides.customize_eq_apply ho]
    exact o.properties_apply skipped v
  rw [hafter]
  refine ⟨orderProperties_eq_groupProperties o.order before, perm_orderProperties o.order before,
    orderProperties_orderProperties o.order before, fun hnone => ?_⟩
  rw [hnone]
  exact orderProperties_nil before

/-- Two properties of one name come first, then one that is renamed and one that is added; one name
in the list is repeated and one is unknown. -/
theorem properties_customize_grouped_twoNotes :
    let o : ComponentOverrides :=
      { renameProps := [("label", "text")], inject := [{ name := "size", propType := "PropTypes.any" }]
        order := ["note", "text", "depth", "note", "size"] }
    let view : ComponentView :=
      { name := "Card"
        properties := [{ name := "label", propType := "PropTypes.string" },
          { name := "note", propType := "PropTypes.string" },
          { name := "open", propType := "PropTypes.bool" },
          { name := "note", propType := "PropTypes.node" }] }
    valueOf? [("Card", o)] view.name = some o ∧
      (Overrides.customize [("Card", o)] [] view).value.properties =
        [{ name := "note", propType := "PropTypes.string" },
          { name := "note", propType := "PropTypes.node" },
          { name := "text", propType := "PropTypes.string" },
          { name := "size", propType := "PropTypes.any" },
          { name := "open", propType := "PropTypes.bool" }] := by
  intro o view
  have ho : valueOf? [("Card", o)] view.name = some o := rfl
  exact ⟨ho, (Overrides.properties_customize_grouped ho []).1.trans (by decide)⟩

end ComponentViews
