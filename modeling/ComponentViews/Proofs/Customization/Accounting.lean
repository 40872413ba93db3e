import ComponentViews.Proofs.Customization.DistinctNames
import ComponentViews.Proofs.Customization.Ordering
import ComponentViews.Proofs.Fields

/-!
# What becomes of properties under customization

The properties that a customization leaves are accounted for by those there were. Properties are kept
or restored, each of these takes its final form, and a property that is added takes the place of the
first of its name among them. Steps are followed name by name: the properties of a name, in their
order, say which of them is the first, and two lists with the same properties of each name are the
same up to order.

## Main definitions

* `ForwardedProperty.named`: the properties of a name.
* `ForwardedProperty.withoutFirst`, `ForwardedProperty.lastNamed`: the first property of each of some
  names is left out; of each name the last property is left.
* `ComponentView.restoration?`, `ComponentOverrides.restored`: the properties that are restored.
* `ComponentOverrides.finalForm`: a property with its validator, under its other name.

## Main results

* `named_foldl_injectProperty`, `perm_foldl_injectProperty`: what adding properties leaves.
* `ComponentView.value_retype`, `ComponentView.value_retypeAll`: what giving validators leaves.
* `Overrides.customize_accounts`: what a customization leaves.
-/

namespace ComponentViews

open ForwardedProperty (names mem_names names_append names_singleton)

/-! ## The properties of a name -/

namespace ForwardedProperty

variable {n m : String} {p : ForwardedProperty} {ps qs : List ForwardedProperty}

/-- The properties of a name, in their order. -/
def named (n : String) (ps : List ForwardedProperty) : List ForwardedProperty :=
  ps.filter fun p => p.name = n

@[simp] theorem named_nil (n : String) : named n [] = [] := rfl

theorem named_cons (n : String) (p : ForwardedProperty) (ps : List ForwardedProperty) :
    named n (p :: ps) = if p.name = n then p :: named n ps else named n ps := by
  simp [named, List.filter_cons]

@[simp] theorem named_append (n : String) (ps qs : List ForwardedProperty) :
    named n (ps ++ qs) = named n ps ++ named n qs := List.filter_append ps qs

theorem named_eq_nil_iff : named n ps = [] ↔ n ∉ names ps := by
  simp [named, mem_names]

theorem exists_named_eq_cons (h : n ∈ names ps) : ∃ q qs, named n ps = q :: qs :=
  List.exists_cons_of_ne_nil fun hnone => named_eq_nil_iff.1 hnone h

/-- Lists with the same properties of each name are the same up to order. -/
theorem perm_of_named (h : ∀ n, (named n ps).Perm (named n qs)) : ps.Perm qs := by
  rw [List.perm_iff_count]
  intro p
  have hcount := (h p.name).count_eq p
  rwa [named, named, List.count_filter (by simp), List.count_filter (by simp)] at hcount

/-- The properties without the first of each of some names. -/
def withoutFirst (ns : List String) (ps : List ForwardedProperty) : List ForwardedProperty :=
  ns.foldl (fun ps n => ps.eraseP fun p => p.name = n) ps

/-- The last property of each name. -/
def lastNamed : List ForwardedProperty → List ForwardedProperty
  | [] => []
  | p :: ps => if p.name ∈ names ps then lastNamed ps else p :: lastNamed ps

theorem named_eraseP (n m : String) (ps : List ForwardedProperty) :
    named n (ps.eraseP fun p => p.name = m) =
      if m = n then (named n ps).tail else named n ps := by
  induction ps with
  | nil => simp
  | cons p ps ih =>
    by_cases hp : p.name = m
    · by_cases hm : m = n <;> simp [named_cons, hp, hm]
    · rw [List.eraseP_cons_of_neg (by simpa using hp), named_cons, ih, named_cons]
      by_cases hm : m = n
      · have hn : p.name ≠ n := hm ▸ hp
        simp [hm, hn]
      · simp [hm]

theorem named_withoutFirst {ns : List String} (hns : ns.Nodup) :
    named n (withoutFirst ns ps) = if n ∈ ns then (named n ps).tail else named n ps := by
  unfold withoutFirst
  induction ns generalizing ps with
  | nil => simp
  | cons m ns ih =>
    obtain ⟨hm, hns⟩ := List.nodup_cons.1 hns
    rw [List.foldl_cons, ih hns, named_eraseP]
    by_cases he : m = n
    · subst he
      simp [hm]
    · simp [he, Ne.symm he]

theorem named_lastNamed (n : String) (ps : List ForwardedProperty) :
    named n (lastNamed ps) = (named n ps).getLast?.toList := by
  induction ps with
  | nil => rfl
  | cons p ps ih =>
    rw [lastNamed, named_cons]
    by_cases hp : p.name = n
    · by_cases hlast : p.name ∈ names ps
      · -- A later property of the name is the last one.
        obtain ⟨q, qs, hq⟩ := exists_named_eq_cons (hp ▸ hlast)
        rw [if_pos hlast, ih, if_pos hp, hq, List.getLast?_cons_cons]
      · have hnone : named n ps = [] := named_eq_nil_iff.2 (hp ▸ hlast)
        rw [if_neg hlast, named_cons, if_pos hp, ih, if_pos hp, hnone]
        rfl
    · rw [if_neg hp]
      by_cases hlast : p.name ∈ names ps
      · rw [if_pos hlast, ih]
      · rw [if_neg hlast, named_cons, if_neg hp, ih]

theorem mem_names_lastNamed : n ∈ names (lastNamed ps) ↔ n ∈ names ps := by
  rw [← not_iff_not, ← named_eq_nil_iff, ← named_eq_nil_iff, named_lastNamed,
    Option.toList_eq_nil_iff, List.getLast?_eq_none_iff]

theorem nodup_names_lastNamed (ps : List ForwardedProperty) : (names (lastNamed ps)).Nodup := by
  induction ps with
  | nil => exact List.nodup_nil
  | cons p ps ih =>
    unfold lastNamed
    split
    · exact ih
    · rename_i hp
      exact List.nodup_cons.2 ⟨mt mem_names_lastNamed.1 hp, ih⟩

end ForwardedProperty

open ForwardedProperty

/-! ## More properties -/

section Injecting

variable {n : String} {p q : ForwardedProperty} {ps qs : List ForwardedProperty}

theorem injectProperty_cons (p q : ForwardedProperty) (ps : List ForwardedProperty) :
    injectProperty (q :: ps) p =
      if q.name = p.name then p :: ps else q :: injectProperty ps p := by
  unfold injectProperty
  by_cases h : q.name = p.name
  · simp [replaceFirst?, h]
  · simp only [replaceFirst?, decide_eq_true_eq, if_neg h]
    cases replaceFirst? (fun r => decide (r.name = p.name)) (fun _ => p) ps <;> rfl

/-- A property that is added takes the place of the first of its name. -/
theorem named_injectProperty (n : String) (ps : List ForwardedProperty) (p : ForwardedProperty) :
    named n (injectProperty ps p) =
      if p.name = n then p :: (named n ps).tail else named n ps := by
  induction ps with
  | nil => simp [injectProperty, replaceFirst?, named_cons]
  | cons q ps ih =>
    rw [injectProperty_cons]
    by_cases hq : q.name = p.name
    · rw [if_pos hq, named_cons, named_cons, hq]
      by_cases hp : p.name = n <;> simp [hp]
    · rw [if_neg hq, named_cons, ih, named_cons]
      by_cases hp : p.name = n
      · have hn : q.name ≠ n := hp ▸ hq
        simp [hp, hn]
      · simp [hp]

/-- Of the properties of a name the first is lost to those added, and of these the last is left. -/
theorem named_foldl_injectProperty :
    named n (qs.foldl injectProperty ps) =
      (named n qs).getLast?.toList ++
        if n ∈ names qs then (named n ps).tail else named n ps := by
  induction qs generalizing ps with
  | nil => simp [names]
  | cons q qs ih =>
    have hnames : names (q :: qs) = q.name :: names qs := rfl
    rw [List.foldl_cons, ih, named_injectProperty, named_cons, hnames]
    by_cases hq : q.name = n
    · rw [hq, if_pos rfl, if_pos rfl, if_pos List.mem_cons_self, List.tail_cons]
      by_cases hmore : n ∈ names qs
      · obtain ⟨r, rs, hr⟩ := exists_named_eq_cons hmore
        rw [if_pos hmore, hr, List.getLast?_cons_cons]
      · rw [if_neg hmore, named_eq_nil_iff.2 hmore]
        rfl
    · have hother : n ∈ q.name :: names qs ↔ n ∈ names qs := by simp [Ne.symm hq]
      simp only [if_neg hq, hother]

/-- What adding properties leaves: the first of each name added is gone, and of each such name the
last that was added is there. -/
theorem perm_foldl_injectProperty (ps qs : List ForwardedProperty) :
    (qs.foldl injectProperty ps).Perm
      (withoutFirst (names (lastNamed qs)) ps ++ lastNamed qs) := by
  refine perm_of_named fun n => ?_
  rw [named_foldl_injectProperty, named_append, named_withoutFirst (nodup_names_lastNamed qs),
    named_lastNamed]
  simp only [mem_names_lastNamed]
  exact List.perm_append_comm

end Injecting

/-! ## Validators -/

/-- A property with the validator for its name, or else the one that it has. -/
def ForwardedProperty.retyped (entries : List (String × String)) (p : ForwardedProperty) :
    ForwardedProperty :=
  { p with propType := (valueOf? entries p.name).getD p.propType }

theorem ForwardedProperty.retyped_eq_self {entries : List (String × String)}
    {p : ForwardedProperty} (h : (valueOf? entries p.name).getD p.propType = p.propType) :
    p.retyped entries = p := by
  rw [retyped, h]

namespace ComponentView

variable {skipped : List SkippedProperty} {v : ComponentView} {name propType : String}
  {r : ForwardedProperty} {entries : List (String × String)}

/-- The property that is restored when a name is given a validator. None is if the view has one of
that name, or if none was left out. Of several that were left out the first is restored. -/
def restoration? (skipped : List SkippedProperty) (v : ComponentView) (name propType : String) :
    Option ForwardedProperty :=
  if name ∈ names v.properties then none
  else (skipped.find? fun s => s.name = name).map fun s =>
    { name, documentation := s.documentation, defaultValue := none, propType, forward := true }

theorem eq_of_restoration?_eq_some (h : v.restoration? skipped name propType = some r) :
    r.name = name ∧ r.propType = propType := by
  unfold restoration? at h
  split at h
  · cases h
  · obtain ⟨s, -, rfl⟩ := Option.map_eq_some_iff.1 h
    exact ⟨rfl, rfl⟩

theorem restoration?_of_mem (h : name ∈ names v.properties) :
    v.restoration? skipped name propType = none := if_pos h

theorem restoration?_of_not_mem (h : name ∉ names v.properties) :
    v.restoration? skipped name propType = (skipped.find? fun s => s.name = name).map fun s =>
      { name, documentation := s.documentation, defaultValue := none, propType, forward := true } :=
  if_neg h

/-- What giving one name a validator leaves: the property of that name has it, or one of that name is
restored, and then none of that name is left out any more. -/
theorem value_retype (hnd : (names v.properties).Nodup) :
    (v.retype skipped name propType).value = { v with
      properties :=
        (v.properties.map fun p => if p.name = name then { p with propType } else p) ++
          (v.restoration? skipped name propType).toList
      skipped :=
        v.skipped.filter fun s => s.name ∉ names (v.restoration? skipped name propType).toList } := by
  unfold retype
  split
  · rename_i properties hfirst
    have hname : name ∈ names v.properties := by
      simpa [mem_names] using exists_of_replaceFirst?_eq_some hfirst
    -- With distinct names, the first property of a name is the only one.
    have honly : v.properties.Pairwise fun p q =>
        decide (p.name = name) → ¬ decide (q.name = name) := by
      refine (List.pairwise_map.1 hnd).imp fun {p q} hpq hp hq => hpq ?_
      rw [of_decide_eq_true hp, of_decide_eq_true hq]
    rw [restoration?_of_mem hname, eq_map_of_replaceFirst?_eq_some honly hfirst]
    simp [names]
  · rename_i hnone
    have hother : ∀ p ∈ v.properties, p.name ≠ name := by
      simpa using replaceFirst?_eq_none_iff.1 hnone
    have hname : name ∉ names v.properties := by simpa [mem_names] using hother
    have hsame : (v.properties.map fun p => if p.name = name then { p with propType } else p) =
        v.properties :=
      map_eq_self_of_forall fun p hp => if_neg (hother p hp)
    rw [restoration?_of_not_mem hname, hsame]
    split
    · rename_i s hfind
      have he : s.name = name := by simpa using List.find?_some hfind
      rw [hfind]
      simp [SkippedProperty.restore, he, names]
    · rename_i hfind
      rw [hfind]
      simp [names]

/-- Other names are not affected. -/
theorem restoration?_retype {n : String} (hn : n ≠ name) (t : String) :
    (v.retype skipped name propType).value.restoration? skipped n t =
      v.restoration? skipped n t := by
  have hiff : n ∈ names (v.retype skipped name propType).value.properties ↔
      n ∈ names v.properties :=
    (retyped_retype skipped v name propType).mem_names_iff.trans (or_iff_left fun h => hn h.1)
  simp only [restoration?, hiff]

/-- Where the names in the list differ from the first, its validator stays, and so does that of a
property that is restored with it. -/
theorem map_retyped_retype (hname : name ∉ entries.map (·.1)) :
    (((v.properties.map fun p => if p.name = name then { p with propType } else p) ++
        (v.restoration? skipped name propType).toList).map (retyped entries)) =
      v.properties.map (retyped ((name, propType) :: entries)) ++
        (v.restoration? skipped name propType).toList := by
  have hvalue := valueOf?_of_not_mem hname
  rw [List.map_append, List.map_map]
  congr 1
  · refine List.map_congr_left fun p _ => ?_
    rw [Function.comp_apply]
    by_cases hp : p.name = name
    · simp [retyped, valueOf?_cons, hp, hvalue]
    · simp [retyped, valueOf?_cons, hp, Ne.symm hp]
  · cases hr : v.restoration? skipped name propType with
    | none => rfl
    | some r =>
      have hnone : valueOf? entries r.name = none := by
        rw [(eq_of_restoration?_eq_some hr).1, hvalue]
      exact congrArg (fun r => [r]) (retyped_eq_self (by rw [hnone, Option.getD_none]))

/-- What giving validators leaves: each property has the validator for its name, if there is one, and
the properties that are restored follow. -/
theorem value_retypeAll (hnd : (names v.properties).Nodup) (hkeys : (entries.map (·.1)).Nodup) :
    (v.retypeAll skipped entries).value = { v with
      properties := v.properties.map (retyped entries) ++
        entries.filterMap fun e => v.restoration? skipped e.1 e.2
      skipped := v.skipped.filter fun s =>
        s.name ∉ names (entries.filterMap fun e => v.restoration? skipped e.1 e.2) } := by
  induction entries generalizing v with
  | nil =>
    have hsame : v.properties.map (retyped []) = v.properties :=
      map_eq_self_of_forall fun _ _ => rfl
    simp [retypeAll, hsame, names]
  | cons e entries ih =>
    obtain ⟨name, propType⟩ := e
    obtain ⟨hname, hkeys⟩ := List.nodup_cons.1 hkeys
    have hnd' := (retyped_retype skipped v name propType).nodup_names hnd
    -- The first step restores a property of its own name only, which no later step gives a validator.
    have hrest : (entries.filterMap fun e =>
        (v.retype skipped name propType).value.restoration? skipped e.1 e.2) =
          entries.filterMap fun e => v.restoration? skipped e.1 e.2 := by
      refine List.filterMap_congr fun e he => restoration?_retype ?_ e.2
      exact fun heq => hname (List.mem_map.2 ⟨e, he, heq⟩)
    have hfirst : (((name, propType) :: entries).filterMap fun e =>
        v.restoration? skipped e.1 e.2) = (v.restoration? skipped name propType).toList ++
          entries.filterMap fun e => v.restoration? skipped e.1 e.2 := by
      rw [List.filterMap_cons]
      cases v.restoration? skipped name propType <;> rfl
    rw [retypeAll, Logged.value_bind, ih hnd' hkeys, hrest, hfirst, value_retype hnd]
    dsimp only
    rw [map_retyped_retype hname, List.append_assoc, List.filter_filter, names_append]
    congr 2
    funext s
    rw [Bool.eq_iff_iff]
    simp [not_or, and_comm]

end ComponentView

/-! ## All overrides for a component -/

namespace ComponentOverrides

variable {o : ComponentOverrides} {skipped : List SkippedProperty} {v : ComponentView}

/-- The properties that are restored: those that are given a validator and were left out, if no
property of the name is kept. -/
def restored (o : ComponentOverrides) (skipped : List SkippedProperty) (v : ComponentView) :
    List ForwardedProperty :=
  o.propTypes.filterMap fun e => (o.kept v).restoration? skipped e.1 e.2

/-- A property with the validator for its name, or else the one that it has, and under its other
name, if it has one. -/
def finalForm (o : ComponentOverrides) (p : ForwardedProperty) : ForwardedProperty :=
  { p with
    name := o.otherName p.name
    propType := (valueOf? o.propTypes p.name).getD p.propType }

/-- A property is restored with the validator for its name. -/
theorem retyped_of_mem_restored (hkeys : (o.propTypes.map (·.1)).Nodup) {r : ForwardedProperty}
    (hr : r ∈ o.restored skipped v) : r.retyped o.propTypes = r := by
  obtain ⟨e, he, hr⟩ := List.mem_filterMap.1 hr
  obtain ⟨hname, hpropType⟩ := ComponentView.eq_of_restoration?_eq_some hr
  refine retyped_eq_self ?_
  rw [hname, valueOf?_of_mem hkeys he, Option.getD_some, hpropType]

theorem collected_eq (hnd : (names v.properties).Nodup) (hkeys : (o.propTypes.map (·.1)).Nodup) :
    o.collected skipped v = (o.inject.map InjectedProperty.toForwarded).foldl injectProperty
      (((o.kept v).properties ++ o.restored skipped v).map o.finalForm) := by
  have hrestored : (o.restored skipped v).map (retyped o.propTypes) = o.restored skipped v :=
    map_eq_self_of_forall fun r hr => retyped_of_mem_restored hkeys hr
  have hform : o.finalForm = renameProperty o.renameProps ∘ retyped o.propTypes := rfl
  -- Validators are given before other names, and what is restored has its validator already.
  rw [collected, ComponentView.value_retypeAll (nodup_names_kept hnd) hkeys, hform,
    ← List.map_map, List.map_append (f := retyped o.propTypes), hrestored]
  rfl

end ComponentOverrides

/-- **What a customization leaves.** Let the names of a view be distinct, and let there be overrides
for it, which give no name two validators. Up to order its properties are then those that were kept
or restored, in their final form, but without the first of each name that is added, and the last
property that was added of each of these names. Left out are the properties that were left out before,
without those of a name that was restored. -/
theorem Overrides.customize_accounts {overrides : Overrides} {v : ComponentView}
    {o : ComponentOverrides} (ho : valueOf? overrides v.name = some o)
    (hkeys : (o.propTypes.map (·.1)).Nodup) (hnd : (names v.properties).Nodup)
    (skipped : List SkippedProperty) :
    let kept := v.properties.filter fun p => p.name ∉ o.remove
    let restored := o.restored skipped v
    let added := lastNamed (o.inject.map InjectedProperty.toForwarded)
    let w := (overrides.customize skipped v).value
    w.properties.Perm
        (withoutFirst (names added) ((kept ++ restored).map o.finalForm) ++ added) ∧
      w.skipped = v.skipped.filter fun s => s.name ∉ names restored := by
  intro kept restored added w
  have hkept : (o.kept v).properties = kept := by
    refine List.filter_congr fun p _ => ?_
    simp
  have hw : w = (o.apply skipped v).value :=
    congrArg Logged.value (customize_eq_apply ho skipped)
  rw [hw]
  constructor
  · rw [o.properties_apply, ComponentOverrides.collected_eq hnd hkeys, hkept]
    exact (perm_orderProperties o.order _).trans (perm_foldl_injectProperty _ _)
  · have hskipped : (o.apply skipped v).value.skipped =
        ((o.kept v).retypeAll skipped o.propTypes).value.skipped := rfl
    rw [hskipped, ComponentView.value_retypeAll (ComponentOverrides.nodup_names_kept hnd) hkeys]
    rfl

/-- Two properties are renamed to one name and a third is restored; of those renamed the first is lost
to the later of two that are added, and a property that is removed is added anew. -/
theorem customize_accounts_sharedName :
    let o : ComponentOverrides :=
      { remove := ["open"]
        renameProps := [("caption", "text"), ("label", "text"), ("onChange", "change")]
        propTypes := [("label", "PropTypes.node"), ("onChange", "PropTypes.func")]
        inject := [{ name := "text", propType := "PropTypes.any" },
          { name := "open", propType := "PropTypes.bool" },
          { name := "text", propType := "PropTypes.object" }] }
    let skipped : List SkippedProperty :=
      [{ name := "onChange", documentation := ["Called."], typeName := "() => void"
         reason := .functionType },
        { name := "ref", typeName := "never", reason := .unclassifiable }]
    let view : ComponentView :=
      { name := "Card", skipped
        properties := [{ name := "label", propType := "PropTypes.string" },
          { name := "caption", propType := "PropTypes.string" },
          { name := "open", propType := "PropTypes.any" }] }
    let w := (Overrides.customize [("Card", o)] skipped view).value
    valueOf? [("Card", o)] view.name = some o ∧ (o.propTypes.map (·.1)).Nodup ∧
      (names view.properties).Nodup ∧
      w.properties.Perm [{ name := "text", propType := "PropTypes.string" },
        { name := "change", documentation := ["Called."], propType := "PropTypes.func" },
        { name := "open", propType := "PropTypes.bool" },
        { name := "text", propType := "PropTypes.object" }] ∧
      w.skipped = [{ name := "ref", typeName := "never", reason := .unclassifiable }] := by
  intro o skipped view w
  have ho : valueOf? [("Card", o)] view.name = some o := rfl
  have hkeys : (o.propTypes.map (·.1)).Nodup := by decide
  have hnd : (names view.properties).Nodup := by decide
  obtain ⟨hproperties, hskipped⟩ := Overrides.customize_accounts ho hkeys hnd skipped
  exact ⟨ho, hkeys, hnd, hproperties.trans (.of_eq (by decide)), hskipped.trans (by decide)⟩

end ComponentViews
