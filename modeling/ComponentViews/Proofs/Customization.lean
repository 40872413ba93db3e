import ComponentViews.Customization
import Mathlib.Tactic.ByContra

/-!
# Names under customization

The steps of a customization are followed by the names in a view. Giving a property a validator adds
its name only if it was left out before, and then it is left out no more. Renaming and adding
properties bring in any names, and whether a property of such a name was left out does not matter to
them; the order brings in none. So a name is in both parts of a customized view exactly if one of
these two steps brings in the name of a property that stays left out.

## Main definitions

* `ComponentView.Apart`: no name is both that of a property and that of one left out.
* `ComponentView.Retyped`: what becomes of a view when a property is given a validator.
* `ComponentOverrides.Restores`: a property left out gets a validator that restores it.
* `ComponentOverrides.KeepsFrom`, `ComponentOverrides.Keeps`: a name is there when properties get
  their other names.
* `ComponentOverrides.Reuses`: a name comes from renaming or adding properties.

## Main results

* `retyped_retype`, `skipped_retypeAll`: what giving validators does to a view.
* `skipped_apply`, `mem_names_apply`: what is left out, and the names, after all steps.
* `apart_apply_iff`, `Overrides.apart_customize_iff`: when overrides keep the parts apart.
-/

namespace ComponentViews

namespace ForwardedProperty

/-- The names of properties. -/
def names (properties : List ForwardedProperty) : List String := properties.map name

theorem mem_names {properties : List ForwardedProperty} {n : String} :
    n ∈ names properties ↔ ∃ p ∈ properties, p.name = n := List.mem_map

@[simp] theorem names_append (ps qs : List ForwardedProperty) :
    names (ps ++ qs) = names ps ++ names qs := List.map_append

@[simp] theorem names_singleton (p : ForwardedProperty) : names [p] = [p.name] := rfl

end ForwardedProperty

open ForwardedProperty (names mem_names names_append names_singleton)

/-- No name is both that of a property of the view and that of one left out. -/
def ComponentView.Apart (v : ComponentView) : Prop :=
  ∀ s ∈ v.skipped, s.name ∉ names v.properties

/-! ## The first element with a property -/

section ReplaceFirst

variable {α β : Type} {p : α → Bool} {f : α → α} {xs ys : List α}

theorem replaceFirst?_eq_none_iff : replaceFirst? p f xs = none ↔ ∀ x ∈ xs, ¬ p x := by
  induction xs with
  | nil => simp [replaceFirst?]
  | cons x xs ih =>
    by_cases hx : p x
    · simp [replaceFirst?, hx]
    · simpa [replaceFirst?, hx] using ih

theorem exists_of_replaceFirst?_eq_some (h : replaceFirst? p f xs = some ys) : ∃ x ∈ xs, p x := by
  by_contra hnone
  rw [replaceFirst?_eq_none_iff.2 (by simpa using hnone)] at h
  cases h

/-- What the new element has in common with the one it replaces stays in its place. -/
theorem map_of_replaceFirst?_eq_some {g : α → β} (hg : ∀ x, p x → g (f x) = g x)
    (h : replaceFirst? p f xs = some ys) : ys.map g = xs.map g := by
  induction xs generalizing ys with
  | nil => cases h
  | cons x xs ih =>
    by_cases hx : p x
    · rw [replaceFirst?, if_pos hx] at h
      obtain rfl := Option.some.inj h
      simp [hg x hx]
    · rw [replaceFirst?, if_neg hx] at h
      obtain ⟨zs, hzs, rfl⟩ := Option.map_eq_some_iff.1 h
      simp [ih hzs]

theorem map_eq_self_of_forall (h : ∀ x ∈ xs, f x = x) : xs.map f = xs :=
  (List.map_congr_left h).trans (List.map_id' xs)

/-- If no other element has the property of the first, to replace the first is to replace all. -/
theorem eq_map_of_replaceFirst?_eq_some (honly : xs.Pairwise fun x y => p x → ¬ p y)
    (h : replaceFirst? p f xs = some ys) : ys = xs.map fun x => if p x then f x else x := by
  induction xs generalizing ys with
  | nil => cases h
  | cons x xs ih =>
    obtain ⟨hfirst, hrest⟩ := List.pairwise_cons.1 honly
    by_cases hx : p x
    · rw [replaceFirst?, if_pos hx] at h
      obtain rfl := Option.some.inj h
      have hothers : (xs.map fun y => if p y then f y else y) = xs :=
        map_eq_self_of_forall fun y hy => if_neg (hfirst y hy hx)
      rw [List.map_cons, if_pos hx, hothers]
    · rw [replaceFirst?, if_neg hx] at h
      obtain ⟨zs, hzs, rfl⟩ := Option.map_eq_some_iff.1 h
      rw [List.map_cons, if_neg hx, ← ih hrest hzs]

end ReplaceFirst

/-! ## Validators -/

namespace ComponentView

/-- What becomes of a view when a property is given a validator, by where its name is found. -/
inductive Retyped (skipped : List SkippedProperty) (v : ComponentView) (name propType : String) :
    ComponentView → Prop
  | replaced {properties : List ForwardedProperty} (hname : name ∈ names v.properties)
      (hnames : names properties = names v.properties) :
      Retyped skipped v name propType { v with properties }
  | restored {s : SkippedProperty} (hname : name ∉ names v.properties) (hs : s ∈ skipped)
      (he : s.name = name) :
      Retyped skipped v name propType { v with
        skipped := v.skipped.filter fun s => s.name ≠ name
        properties := v.properties ++ [s.restore propType] }
  | unknown (hname : name ∉ names v.properties) (hs : ∀ s ∈ skipped, s.name ≠ name) :
      Retyped skipped v name propType v

variable {skipped : List SkippedProperty} {v w : ComponentView} {name propType : String}
  {entries : List (String × String)}

theorem retyped_retype (skipped : List SkippedProperty) (v : ComponentView)
    (name propType : String) :
    Retyped skipped v name propType (v.retype skipped name propType).value := by
  unfold retype
  split
  · rename_i properties hfirst
    have hname : name ∈ names v.properties := by
      simpa [mem_names] using exists_of_replaceFirst?_eq_some hfirst
    refine .replaced hname (map_of_replaceFirst?_eq_some ?_ hfirst)
    exact fun _ _ => rfl
  · rename_i hnone
    have hname : name ∉ names v.properties := by
      simpa [mem_names] using replaceFirst?_eq_none_iff.1 hnone
    split
    · rename_i s hfind
      exact .restored hname (List.mem_of_find?_eq_some hfind)
        (by simpa using List.find?_some hfind)
    · rename_i hfind
      exact .unknown hname (by simpa using hfind)

/-- The name of a property given a validator is new only if a property left out is restored. -/
theorem Retyped.mem_names_iff (h : Retyped skipped v name propType w) {n : String} :
    n ∈ names w.properties ↔
      n ∈ names v.properties ∨ n = name ∧ ∃ s ∈ skipped, s.name = n := by
  cases h with
  | replaced hname hnames =>
    rw [hnames]
    refine ⟨.inl, fun hn => hn.elim id ?_⟩
    rintro ⟨rfl, -⟩
    exact hname
  | @restored s hname hs he =>
    have hnew : n ∈ names [s.restore propType] ↔ n = name := by
      simp [SkippedProperty.restore, he]
    rw [names_append, List.mem_append, hnew]
    exact or_congr_right ⟨fun hn => ⟨hn, s, hs, he.trans hn.symm⟩, And.left⟩
  | unknown hname hs =>
    refine ⟨.inl, fun hn => hn.elim id ?_⟩
    rintro ⟨rfl, s, hs', he⟩
    exact absurd he (hs s hs')

/-- A property left out stays so when its name is given a validator only if the view has another
property of that name. -/
theorem Retyped.skipped_eq (h : Retyped skipped v name propType w)
    (hsub : ∀ s ∈ v.skipped, s ∈ skipped) :
    w.skipped = v.skipped.filter fun s => s.name ≠ name ∨ s.name ∈ names v.properties := by
  cases h with
  | replaced hname =>
    refine (List.filter_eq_self.2 fun s _ => ?_).symm
    rw [decide_eq_true_eq, or_iff_not_imp_left, not_ne_iff]
    rintro rfl
    exact hname
  | restored hname =>
    refine List.filter_congr fun s _ => decide_eq_decide.2 ⟨.inl, fun hs => hs.elim id ?_⟩
    rintro hmem rfl
    exact hname hmem
  | unknown _ hs =>
    refine (List.filter_eq_self.2 fun s hs' => ?_).symm
    simpa using Or.inl (hs s (hsub s hs'))

/-- What stays left out can still be restored. -/
theorem Retyped.subset (h : Retyped skipped v name propType w)
    (hsub : ∀ s ∈ v.skipped, s ∈ skipped) : ∀ s ∈ w.skipped, s ∈ skipped := by
  intro s hs
  rw [h.skipped_eq hsub] at hs
  exact hsub s (List.mem_filter.1 hs).1

/-- The names after properties have been given validators. -/
theorem mem_names_retypeAll {n : String} :
    n ∈ names (v.retypeAll skipped entries).value.properties ↔
      n ∈ names v.properties ∨ n ∈ entries.map (·.1) ∧ ∃ s ∈ skipped, s.name = n := by
  induction entries generalizing v with
  | nil => simp [retypeAll]
  | cons entry entries ih =>
    obtain ⟨name, propType⟩ := entry
    have hstep := retyped_retype skipped v name propType
    rw [retypeAll, Logged.value_bind, ih, hstep.mem_names_iff, List.map_cons, List.mem_cons,
      or_assoc, or_and_right]

/-- What is left out when properties have been given validators. -/
theorem skipped_retypeAll (hsub : ∀ s ∈ v.skipped, s ∈ skipped) :
    (v.retypeAll skipped entries).value.skipped = v.skipped.filter fun s =>
      s.name ∉ entries.map (·.1) ∨ s.name ∈ names v.properties := by
  induction entries generalizing v with
  | nil => exact (List.filter_eq_self.2 (by simp)).symm
  | cons entry entries ih =>
    obtain ⟨name, propType⟩ := entry
    have hstep := retyped_retype skipped v name propType
    rw [retypeAll, Logged.value_bind, ih (hstep.subset hsub), hstep.skipped_eq hsub,
      List.filter_filter]
    refine List.filter_congr fun s _ => ?_
    rw [Bool.eq_iff_iff]
    simp only [Bool.and_eq_true, decide_eq_true_eq, hstep.mem_names_iff, List.map_cons,
      List.mem_cons]
    -- A name that is new after the step is the one just given a validator.
    grind

end ComponentView

/-! ## Other names, more properties and the order -/

section Rearranging

variable {ps qs : List ForwardedProperty} {n : String}

theorem mem_names_rename {others : List (String × String)} :
    n ∈ names (ps.map (renameProperty others)) ↔
      ∃ m ∈ names ps, (valueOf? others m).getD m = n := by
  simp [mem_names, renameProperty]

theorem mem_names_injectProperty {p : ForwardedProperty} :
    n ∈ names (injectProperty ps p) ↔ n ∈ names ps ∨ n = p.name := by
  unfold injectProperty
  cases hfirst : replaceFirst? (fun q => q.name = p.name) (fun _ => p) ps with
  | none => simp
  | some qs =>
    have hnames : names qs = names ps := by
      refine map_of_replaceFirst?_eq_some (fun q hq => ?_) hfirst
      simpa using (of_decide_eq_true hq).symm
    have hname : p.name ∈ names ps := by
      simpa [mem_names] using exists_of_replaceFirst?_eq_some hfirst
    rw [Option.getD_some, hnames]
    exact ⟨.inl, fun hn => hn.elim id fun he => he ▸ hname⟩

theorem mem_names_foldl_injectProperty :
    n ∈ names (qs.foldl injectProperty ps) ↔ n ∈ names ps ∨ n ∈ names qs := by
  induction qs generalizing ps with
  | nil => simp [names]
  | cons q qs ih =>
    rw [List.foldl_cons, ih, mem_names_injectProperty, or_assoc]
    simp [names]

theorem mem_names_orderProperties {order : List String} :
    n ∈ names (orderProperties order ps) ↔ n ∈ names ps :=
  ((List.mergeSort_perm ps _).map _).mem_iff

/-- The names after the later steps are the other names, and those of the properties added. -/
theorem mem_names_rearrange {o : ComponentOverrides} :
    n ∈ names (o.rearrange ps) ↔
      (∃ m ∈ names ps, (valueOf? o.renameProps m).getD m = n) ∨ n ∈ o.inject.map (·.name) := by
  have hinject : names (o.inject.map InjectedProperty.toForwarded) = o.inject.map (·.name) := by
    simp [names, InjectedProperty.toForwarded]
  rw [ComponentOverrides.rearrange, mem_names_orderProperties, mem_names_foldl_injectProperty,
    mem_names_rename, hinject]

end Rearranging

/-! ## All overrides for a component -/

namespace ComponentOverrides

variable {o : ComponentOverrides} {skipped : List SkippedProperty} {v : ComponentView} {n : String}

/-- A name is there when properties get their other names: that of a property of the view that is not
removed, or that of one of the given properties left out, if it gets a validator. -/
def KeepsFrom (o : ComponentOverrides) (skipped : List SkippedProperty) (v : ComponentView)
    (n : String) : Prop :=
  n ∈ names v.properties ∧ n ∉ o.remove ∨
    (∃ s ∈ skipped, s.name = n) ∧ n ∈ o.propTypes.map (·.1)

/-- A name is there when properties get their other names, if properties are restored from those that
the view itself leaves out. -/
def Keeps (o : ComponentOverrides) (v : ComponentView) (n : String) : Prop :=
  o.KeepsFrom v.skipped v n

/-- A name is given to a property that is added, or to one that has had another name. -/
def Reuses (o : ComponentOverrides) (v : ComponentView) (n : String) : Prop :=
  n ∈ o.inject.map (·.name) ∨ ∃ m, o.Keeps v m ∧ valueOf? o.renameProps m = some n

/-- The view after removal, before all else. -/
def kept (o : ComponentOverrides) (v : ComponentView) : ComponentView :=
  { v with properties := v.properties.filter fun p => !o.remove.contains p.name }

theorem mem_names_kept :
    n ∈ names (o.kept v).properties ↔ n ∈ names v.properties ∧ n ∉ o.remove := by
  simp only [kept, mem_names, List.mem_filter]
  constructor
  · rintro ⟨p, ⟨hp, hr⟩, rfl⟩
    exact ⟨⟨p, hp, rfl⟩, by simpa using hr⟩
  · rintro ⟨⟨p, hp, rfl⟩, hr⟩
    exact ⟨p, ⟨hp, by simpa using hr⟩, rfl⟩

/-- A property left out gets a validator and no property of its name is in the way. -/
def Restores (o : ComponentOverrides) (v : ComponentView) (n : String) : Prop :=
  n ∈ o.propTypes.map (·.1) ∧ n ∉ names (o.kept v).properties

instance (o : ComponentOverrides) (v : ComponentView) (n : String) : Decidable (o.Restores v n) :=
  inferInstanceAs (Decidable (_ ∧ _))

/-- What is left out by the overrides for a component. -/
theorem skipped_apply (hsub : ∀ s ∈ v.skipped, s ∈ skipped) :
    (o.apply skipped v).value.skipped = v.skipped.filter fun s => ¬ o.Restores v s.name := by
  have h : (o.apply skipped v).value.skipped =
      ((o.kept v).retypeAll skipped o.propTypes).value.skipped := rfl
  rw [h, ComponentView.skipped_retypeAll (v := o.kept v) hsub]
  refine List.filter_congr fun s _ => decide_eq_decide.2 ?_
  rw [Restores, not_and_or, not_not]

theorem mem_names_kept_retypeAll :
    n ∈ names ((o.kept v).retypeAll skipped o.propTypes).value.properties ↔
      o.KeepsFrom skipped v n := by
  rw [ComponentView.mem_names_retypeAll, mem_names_kept, KeepsFrom,
    and_comm (a := n ∈ List.map _ _)]

theorem mem_names_apply :
    n ∈ names (o.apply skipped v).value.properties ↔
      (∃ m, o.KeepsFrom skipped v m ∧ (valueOf? o.renameProps m).getD m = n) ∨
        n ∈ o.inject.map (·.name) := by
  have h : names (o.apply skipped v).value.properties =
      names (o.rearrange ((o.kept v).retypeAll skipped o.propTypes).value.properties) := rfl
  simp only [h, mem_names_rearrange, mem_names_kept_retypeAll]

/-- The overrides for a component keep the parts of a view apart if the name of no property that
stays left out is given to another. -/
theorem apart_apply_iff (hv : v.Apart) :
    (o.apply v.skipped v).value.Apart ↔
      ∀ s ∈ v.skipped, s.name ∉ o.propTypes.map (·.1) → ¬ o.Reuses v s.name := by
  have hmem : ∀ s, s ∈ (o.apply v.skipped v).value.skipped ↔
      s ∈ v.skipped ∧ s.name ∉ o.propTypes.map (·.1) := by
    intro s
    rw [skipped_apply fun s hs => hs, List.mem_filter, decide_eq_true_eq]
    -- No property of the view is in the way of one that is left out.
    have hway : s ∈ v.skipped → s.name ∉ names (o.kept v).properties :=
      fun hs hn => hv s hs (mem_names_kept.1 hn).1
    exact and_congr_right fun hs => not_congr (and_iff_left (hway hs))
  constructor
  · intro h s hs hkey hreuses
    refine h s ((hmem s).2 ⟨hs, hkey⟩) (mem_names_apply.2 ?_)
    rcases hreuses with hinject | ⟨m, hm, hother⟩
    · exact .inr hinject
    · exact .inl ⟨m, hm, by rw [hother, Option.getD_some]⟩
  · intro h s hs hn
    obtain ⟨hs, hkey⟩ := (hmem s).1 hs
    refine h s hs hkey ?_
    rcases mem_names_apply.1 hn with ⟨m, hm, hother⟩ | hinject
    · cases hv' : valueOf? o.renameProps m with
      | some n =>
        rw [hv', Option.getD_some] at hother
        exact .inr ⟨m, hm, hother ▸ hv'⟩
      | none =>
        -- Without another name it would be a property of the view, or have a validator.
        rw [hv', Option.getD_none] at hother
        subst hother
        rcases hm with ⟨hm, -⟩ | ⟨-, hm⟩
        · exact absurd hm (hv s hs)
        · exact absurd hm hkey
    · exact .inl hinject

end ComponentOverrides

/-- Overrides keep the parts of a view apart if those for its name do, if there are any. -/
theorem Overrides.apart_customize_iff {overrides : Overrides} {v : ComponentView} (hv : v.Apart) :
    (overrides.customize v.skipped v).value.Apart ↔
      ∀ o, valueOf? overrides v.name = some o →
        ∀ s ∈ v.skipped, s.name ∉ o.propTypes.map (·.1) → ¬ o.Reuses v s.name := by
  unfold customize
  cases ho : valueOf? overrides v.name with
  | none => simpa using hv
  | some o => simpa using ComponentOverrides.apart_apply_iff hv

end ComponentViews
