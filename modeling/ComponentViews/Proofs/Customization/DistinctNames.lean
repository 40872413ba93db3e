import ComponentViews.Proofs.Customization
import Mathlib.Data.List.Nodup

/-!
# Distinct names under customization

The names in a view are distinct as long as each is given to one property only. Restoring and adding
properties look for a property of the name first, so neither gives a name twice. Renaming does not
look: it gives all properties their other names at once, and two properties are of one name after it
if the other name of one is that of another, or is kept by another.

## Main results

* `nodup_names_retypeAll`, `nodup_names_foldl_injectProperty`: restoring and adding keep names
  distinct.
* `nodup_apply_iff`, `Overrides.nodup_customize_iff`: when overrides keep the names distinct.
* `customize_renamedOnto`: a property that is renamed onto another.
-/

namespace ComponentViews

open ForwardedProperty (names mem_names names_append names_singleton)

/-! ## Validators -/

namespace ComponentView

variable {skipped : List SkippedProperty} {v w : ComponentView} {name propType : String}
  {entries : List (String × String)}

/-- A property is restored only under a name that no property has. -/
theorem Retyped.nodup_names (h : Retyped skipped v name propType w)
    (hnd : (names v.properties).Nodup) : (names w.properties).Nodup := by
  cases h with
  | replaced _ hnames => exact hnames ▸ hnd
  | @restored s hname _ he =>
    have hnew : names [s.restore propType] = [name] := congrArg (fun n => [n]) he
    rw [names_append, hnew, ← List.concat_eq_append]
    exact hnd.concat hname
  | unknown => exact hnd

theorem nodup_names_retypeAll (hnd : (names v.properties).Nodup) :
    (names (v.retypeAll skipped entries).value.properties).Nodup := by
  induction entries generalizing v with
  | nil => exact hnd
  | cons entry entries ih =>
    obtain ⟨name, propType⟩ := entry
    rw [retypeAll, Logged.value_bind]
    exact ih ((retyped_retype skipped v name propType).nodup_names hnd)

end ComponentView

/-! ## Other names, more properties and the order -/

/-- The name of a property after all have been given their other names. -/
def ComponentOverrides.otherName (o : ComponentOverrides) (n : String) : String :=
  (valueOf? o.renameProps n).getD n

section Rearranging

variable {o : ComponentOverrides} {ps qs : List ForwardedProperty}

theorem names_rename (o : ComponentOverrides) (ps : List ForwardedProperty) :
    names (ps.map (renameProperty o.renameProps)) = (names ps).map o.otherName := by
  simp [names, renameProperty, ComponentOverrides.otherName]

/-- A property that is added takes the place of one of its name, or comes to names without its
own. -/
theorem nodup_names_injectProperty_iff {p : ForwardedProperty} :
    (names (injectProperty ps p)).Nodup ↔ (names ps).Nodup := by
  unfold injectProperty
  cases hfirst : replaceFirst? (fun q => q.name = p.name) (fun _ => p) ps with
  | none =>
    have hname : p.name ∉ names ps := by
      simpa [mem_names] using replaceFirst?_eq_none_iff.1 hfirst
    rw [Option.getD_none, names_append, names_singleton, ← List.concat_eq_append]
    exact ⟨fun h => (List.nodup_concat _ _).1 h |>.2, fun h => h.concat hname⟩
  | some qs =>
    have hnames : names qs = names ps := by
      refine map_of_replaceFirst?_eq_some (fun q hq => ?_) hfirst
      simpa using (of_decide_eq_true hq).symm
    rw [Option.getD_some, hnames]

theorem nodup_names_foldl_injectProperty :
    (names (qs.foldl injectProperty ps)).Nodup ↔ (names ps).Nodup := by
  induction qs generalizing ps with
  | nil => rfl
  | cons q qs ih => rw [List.foldl_cons, ih, nodup_names_injectProperty_iff]

theorem nodup_names_orderProperties {order : List String} :
    (names (orderProperties order ps)).Nodup ↔ (names ps).Nodup :=
  ((List.mergeSort_perm ps _).map _).nodup_iff

/-- Of the later steps only renaming can give a name twice. -/
theorem nodup_names_rearrange (hnd : (names ps).Nodup) :
    (names (o.rearrange ps)).Nodup ↔
      ∀ m ∈ names ps, ∀ n ∈ names ps, o.otherName m = o.otherName n → m = n := by
  rw [ComponentOverrides.rearrange, nodup_names_orderProperties, nodup_names_foldl_injectProperty,
    names_rename, List.nodup_map_iff_inj_on hnd]

end Rearranging

/-! ## All overrides for a component -/

theorem ComponentOverrides.nodup_names_kept {o : ComponentOverrides} {v : ComponentView}
    (hnd : (names v.properties).Nodup) : (names (o.kept v).properties).Nodup :=
  hnd.sublist (List.filter_sublist.map _)

theorem ComponentOverrides.nodup_apply_iff {o : ComponentOverrides}
    {skipped : List SkippedProperty} {v : ComponentView} (hnd : (names v.properties).Nodup) :
    (names (o.apply skipped v).value.properties).Nodup ↔
      ∀ m n, o.KeepsFrom skipped v m → o.KeepsFrom skipped v n →
        o.otherName m = o.otherName n → m = n := by
  have h : names (o.apply skipped v).value.properties =
      names (o.rearrange ((o.kept v).retypeAll skipped o.propTypes).value.properties) := rfl
  rw [h, nodup_names_rearrange (ComponentView.nodup_names_retypeAll (nodup_names_kept hnd))]
  simp only [mem_names_kept_retypeAll]
  exact ⟨fun hinj m n hm hn => hinj m hm n hn, fun hinj m hm n hn => hinj m n hm hn⟩

/-- **Names that stay distinct.** The names of a view are distinct after the overrides for it exactly
if these give no two names that are left after removing and restoring, and before adding, properties
the same other name. -/
theorem Overrides.nodup_customize_iff {overrides : Overrides} {skipped : List SkippedProperty}
    {v : ComponentView} (hnd : (names v.properties).Nodup) :
    (names (overrides.customize skipped v).value.properties).Nodup ↔
      ∀ o, valueOf? overrides v.name = some o →
        ∀ m n, o.KeepsFrom skipped v m → o.KeepsFrom skipped v n →
          o.otherName m = o.otherName n → m = n := by
  unfold customize
  cases ho : valueOf? overrides v.name with
  | none => simpa using hnd
  | some o => simpa using ComponentOverrides.nodup_apply_iff hnd

/-- Two properties take each other's name while a third is restored. -/
theorem nodup_customize_iff_swappedEnds :
    let o : ComponentOverrides :=
      { renameProps := [("from", "to"), ("to", "from")]
        propTypes := [("onChange", "PropTypes.func")] }
    let skipped : List SkippedProperty :=
      [{ name := "onChange", typeName := "() => void", reason := .functionType }]
    let view : ComponentView :=
      { name := "Range"
        properties := [{ name := "from", propType := "PropTypes.number" },
          { name := "to", propType := "PropTypes.number" }] }
    (names view.properties).Nodup ∧
      (names (Overrides.customize [("Range", o)] skipped view).value.properties).Nodup := by
  intro o skipped view
  have hnd : (names view.properties).Nodup := by decide
  refine ⟨hnd, (Overrides.nodup_customize_iff hnd).2 fun o' ho m n hm hn hname => ?_⟩
  obtain rfl : o = o' := Option.some.inj ho
  -- There are three names before the renaming, and it sends them to different ones.
  have hleft : ∀ k, o.KeepsFrom skipped view k → k ∈ ["from", "to", "onChange"] := by
    rintro k (⟨hk, -⟩ | ⟨-, hk⟩)
    · exact List.mem_append_left ["onChange"] hk
    · exact List.mem_append_right ["from", "to"] hk
  have hinj : ∀ m ∈ ["from", "to", "onChange"], ∀ n ∈ ["from", "to", "onChange"],
      o.otherName m = o.otherName n → m = n := by decide
  exact hinj m (hleft m hm) n (hleft n hn) hname

/-- A property is renamed onto another, which keeps its name. -/
theorem customize_renamedOnto :
    let o : ComponentOverrides := { renameProps := [("label", "text")] }
    let view : ComponentView :=
      { name := "Button"
        properties := [{ name := "label", propType := "PropTypes.string" },
          { name := "text", propType := "PropTypes.any" }] }
    (names view.properties).Nodup ∧
      ¬ (names (Overrides.customize [("Button", o)] view.skipped view).value.properties).Nodup := by
  intro o view
  have hnd : (names view.properties).Nodup := by decide
  refine ⟨hnd, fun h => ?_⟩
  have happly : (names (o.apply view.skipped view).value.properties).Nodup := h
  have hlabel : o.KeepsFrom view.skipped view "label" := .inl ⟨by decide, by decide⟩
  have htext : o.KeepsFrom view.skipped view "text" := .inl ⟨by decide, by decide⟩
  have hsame := (ComponentOverrides.nodup_apply_iff hnd).1 happly "label" "text" hlabel htext
  exact absurd (hsame rfl) (by decide)

end ComponentViews
