import ComponentViews.Proofs.Graph.Renaming
import Mathlib.Data.ENat.Basic

/-!
# How deep a rendering goes

Types are rendered from their structure down to a limited depth, where a type that comes with a
rendering of its own is met at any depth. The rules for renderings are stated here for any limit, and
for none: by all of them a type has at most one rendering. With a limit it has one, also where it
contains itself. Without a limit it has one where nothing that has to be rendered from its structure
is met too deep, and this is the rendering that the limit allows. Such a type is rendered from the
renderings that its parts have on their own.

## Main definitions

* `TypeNode.layoutParts`: the types whose renderings are in that of a type.
* `Graph.Renders`: the rules for renderings, with a limit or without.
* `Graph.Unfolds`: which types are met at which depth.
* `Graph.Fits`: nothing without a rendering of its own is met at a depth or below.

## Main results

* `TypeNode.layout_congr`: the rendering from a structure depends on those parts only.
* `Graph.Renders.unique`: there is at most one rendering.
* `Graph.renders_renderWithin`, `Graph.Fits.renders_renderWithin`: there is one within a limit, and one
  without a limit for types that fit.
* `Graph.render_eq_layout_of_fits`: such a type is rendered from its parts on their own.
* `Graph.render_unlimited`: what rendering within the limit is.
-/

namespace ComponentViews

/-! ## Parts -/

/-- The types whose renderings are in the rendering of a type from its structure. -/
def TypeNode.layoutParts (n : TypeNode) : List TypeId :=
  match n.value with
  | some _ => []
  | none =>
    if n.union ≠ [] then n.union
    else if n.intersection ≠ [] then n.intersection
    else
      match n.symbol, n.signatures with
      | some _, _ => n.typeArguments
      | none, s :: _ => s.references
      | none, [] => n.properties.map (·.type)

section Layout

variable {needsParens : TypeId → Bool} {child newChild : TypeId → String}

theorem layoutNominal_congr (symbol : String) (ts : List TypeId)
    (h : ∀ u ∈ ts, newChild u = child u) :
    layoutNominal needsParens newChild symbol ts = layoutNominal needsParens child symbol ts := by
  simpa using layoutNominal_rename (r := id) symbol ts (fun _ _ => rfl) h

theorem Signature.layout_congr (s : Signature) (h : ∀ u ∈ s.references, newChild u = child u) :
    s.layout newChild = s.layout child := by
  simpa [Signature.rename] using s.layout_rename (r := id) h

theorem layoutMembers_congr (members : List PropertySymbol)
    (h : ∀ u ∈ members.map (·.type), newChild u = child u) :
    layoutMembers newChild members = layoutMembers child members := by
  have hid : PropertySymbol.rename id = id := rfl
  simpa [hid] using layoutMembers_rename (r := id) members h

/-- The rendering from a structure depends on the renderings of its parts only. -/
theorem TypeNode.layout_congr (n : TypeNode) (h : ∀ u ∈ n.layoutParts, newChild u = child u) :
    n.layout needsParens newChild = n.layout needsParens child := by
  unfold layoutParts at h
  unfold layout
  -- The cases are those of the layout, in its order.
  cases hvalue : n.value with
  | some v => rfl
  | none =>
    simp only [hvalue] at h ⊢
    by_cases hunion : n.union ≠ []
    · rw [if_pos hunion] at h
      rw [if_pos hunion, if_pos hunion, List.map_congr_left h]
    · rw [if_neg hunion] at h
      rw [if_neg hunion, if_neg hunion]
      by_cases hintersection : n.intersection ≠ []
      · rw [if_pos hintersection] at h
        rw [if_pos hintersection, if_pos hintersection, List.map_congr_left h]
      · rw [if_neg hintersection] at h
        rw [if_neg hintersection, if_neg hintersection]
        cases hsymbol : n.symbol with
        | some symbol =>
          simp only [hsymbol] at h
          exact layoutNominal_congr symbol n.typeArguments h
        | none =>
          cases hsignatures : n.signatures with
          | cons s rest =>
            simp only [hsymbol, hsignatures] at h
            exact s.layout_congr h
          | nil =>
            simp only [hsymbol, hsignatures] at h
            simp only [layoutMembers_congr n.properties h]

end Layout

namespace Graph

variable {g : Graph} {f : Fallback} {limit : ℕ∞} {depth room : Nat} {t u : TypeId} {n : TypeNode}

/-! ## The rules for renderings -/

/-- The rules for renderings: an unknown id and a type that comes with a rendering at any depth, any
other type from its structure as long as the limit is not reached, and as an ellipsis from there. -/
inductive Renders (g : Graph) (f : Fallback) (limit : ℕ∞) : Nat → TypeId → String → Prop
  | unknown {depth : Nat} {t : TypeId} (h : g.node? t = none) :
      Renders g f limit depth t (f.render t)
  | display {depth : Nat} {t : TypeId} {n : TypeNode} {text : String} (h : g.node? t = some n)
      (hd : n.display = some text) : Renders g f limit depth t text
  | ellipsis {depth : Nat} {t : TypeId} {n : TypeNode} (h : g.node? t = some n)
      (hd : n.display = none) (hl : limit ≤ depth) : Renders g f limit depth t "..."
  | layout {depth : Nat} {t : TypeId} {n : TypeNode} {child : TypeId → String}
      (h : g.node? t = some n) (hd : n.display = none) (hl : (depth : ℕ∞) < limit)
      (hc : ∀ u ∈ n.layoutParts, Renders g f limit (depth + 1) u (child u)) :
      Renders g f limit depth t (n.layout (g.needsParens f) child)

/-- A type has at most one rendering at a depth. -/
theorem Renders.unique {text text' : String} (h : g.Renders f limit depth t text)
    (h' : g.Renders f limit depth t text') : text = text' := by
  -- No two rules apply to one type at one depth, so the parts have to be compared in one case only.
  induction h generalizing text' with
  | unknown hn => cases h' <;> simp_all
  | display hn hd => cases h' <;> simp_all
  | ellipsis hn hd hl =>
    cases h' with
    | unknown hn' => simp_all
    | display hn' hd' => simp_all
    | ellipsis => rfl
    | layout _ _ hl' => exact absurd hl hl'.not_ge
  | @layout depth t n child hn hd hl hc ih =>
    cases h' with
    | unknown hn' => simp_all
    | display hn' hd' => simp_all
    | ellipsis _ _ hl' => exact absurd hl' hl.not_ge
    | @layout _ _ n' child' hn' hd' hl' hc' =>
      obtain rfl : n = n' := Option.some.inj (hn.symm.trans hn')
      exact n.layout_congr fun u hu => ih u hu (hc' u hu)

theorem renderWithin_of_unknown (h : g.node? t = none) (f : Fallback) (room : Nat) :
    g.renderWithin f room t = f.render t := by
  cases room <;> simp [renderWithin, h]

/-- Where there is no room the limit has to be reached, unless the type is not rendered from its
structure. -/
theorem renders_zero (hl : ∀ n, g.node? t = some n → n.display = none → limit ≤ depth) :
    g.Renders f limit depth t (g.renderWithin f 0 t) := by
  cases hn : g.node? t with
  | none =>
    rw [renderWithin_of_unknown hn]
    exact .unknown hn
  | some n =>
    cases hd : n.display with
    | some text =>
      rw [renderWithin_of_display hn hd]
      exact .display hn hd
    | none =>
      rw [renderWithin_zero hn hd]
      exact .ellipsis hn hd (hl n hn hd)

/-- Where there is room the parts are rendered one level deeper. -/
theorem renders_succ (hl : (depth : ℕ∞) < limit)
    (hc : ∀ n, g.node? t = some n → n.display = none → ∀ u ∈ n.layoutParts,
      g.Renders f limit (depth + 1) u (g.renderWithin f room u)) :
    g.Renders f limit depth t (g.renderWithin f (room + 1) t) := by
  cases hn : g.node? t with
  | none =>
    rw [renderWithin_of_unknown hn]
    exact .unknown hn
  | some n =>
    cases hd : n.display with
    | some text =>
      rw [renderWithin_of_display hn hd]
      exact .display hn hd
    | none =>
      rw [renderWithin_succ hn hd]
      exact .layout hn hd hl (hc n hn hd)

/-- Within a limit every type has a rendering. -/
theorem renders_renderWithin (g : Graph) (f : Fallback) {limit : Nat} (h : depth + room = limit)
    (t : TypeId) : g.Renders f limit depth t (g.renderWithin f room t) := by
  induction room generalizing depth t with
  | zero => exact renders_zero fun _ _ _ => by exact_mod_cast h.ge
  | succ room ih =>
    refine renders_succ (by exact_mod_cast (by omega : depth < limit)) fun n _ _ u _ => ?_
    exact ih (by omega) u

/-! ## Types that fit -/

/-- Which types are met at which depth when a type is rendered without a limit. -/
inductive Unfolds (g : Graph) (t : TypeId) : Nat → TypeId → Prop
  | root : Unfolds g t 0 t
  | part {depth : Nat} {s u : TypeId} {n : TypeNode} (hs : Unfolds g t depth s)
      (h : g.node? s = some n) (hd : n.display = none) (hu : u ∈ n.layoutParts) :
      Unfolds g t (depth + 1) u

/-- Nothing that has to be rendered from its structure is met at a depth or below. -/
def Fits (g : Graph) (room : Nat) (t : TypeId) : Prop :=
  ∀ depth u n, g.Unfolds t depth u → room ≤ depth → g.node? u = some n → n.display ≠ none

/-- What a part meets its type meets one level deeper. -/
theorem Unfolds.of_part {s : TypeId} (h : g.node? t = some n) (hd : n.display = none)
    (hu : u ∈ n.layoutParts) (hs : g.Unfolds u depth s) : g.Unfolds t (depth + 1) s := by
  induction hs with
  | root => exact .part .root h hd hu
  | part _ h' hd' hu' ih => exact .part ih h' hd' hu'

theorem Fits.mono {room' : Nat} (h : g.Fits room t) (hle : room ≤ room') : g.Fits room' t :=
  fun depth u n hu hdepth => h depth u n hu (hle.trans hdepth)

/-- The parts of a type that fits have one level less. -/
theorem Fits.of_part (hfits : g.Fits (room + 1) t) (h : g.node? t = some n)
    (hd : n.display = none) (hu : u ∈ n.layoutParts) : g.Fits room u :=
  fun depth s m hs hdepth => hfits (depth + 1) s m (hs.of_part h hd hu) (Nat.succ_le_succ hdepth)

/-- A type that fits has a rendering without a limit. -/
theorem Fits.renders_renderWithin (hfits : g.Fits room t) (f : Fallback) (depth : Nat) :
    g.Renders f ⊤ depth t (g.renderWithin f room t) := by
  induction room generalizing depth t with
  | zero => exact renders_zero fun n hn hd => absurd hd (hfits 0 t n .root le_rfl hn)
  | succ room ih =>
    exact renders_succ (ENat.natCast_lt_top depth) fun n hn hd u hu => ih (hfits.of_part hn hd hu) _

/-- More room changes nothing for a type that fits. -/
theorem Fits.renderWithin_eq {room' : Nat} (hfits : g.Fits room t) (hle : room ≤ room')
    (f : Fallback) : g.renderWithin f room' t = g.renderWithin f room t :=
  ((hfits.mono hle).renders_renderWithin f 0).unique (hfits.renders_renderWithin f 0)

/-- A type that fits is rendered from the renderings that its parts have on their own. -/
theorem render_eq_layout_of_fits (hfits : g.Fits maxRenderDepth t) (h : g.node? t = some n)
    (hd : n.display = none) (f : Fallback) :
    g.render t f = n.layout (g.needsParens f) fun u => g.render u f := by
  unfold render
  have hroom : g.renderWithin f maxRenderDepth t =
      n.layout (g.needsParens f) (g.renderWithin f (maxRenderDepth - 1)) :=
    renderWithin_succ h hd f (maxRenderDepth - 1)
  rw [hroom]
  refine n.layout_congr fun u hu => ?_
  -- As a part it is given one level less than on its own, which is enough for it.
  have hpart : g.Fits (maxRenderDepth - 1) u := hfits.of_part h hd hu
  exact (hpart.renderWithin_eq (Nat.sub_le _ _) f).symm

/-! ## Whether a type fits -/

/-- What a type meets is the type itself or met by a part. -/
theorem Unfolds.eq_or_of_part (hs : g.Unfolds t depth u) :
    (depth = 0 ∧ u = t) ∨ ∃ n s d, g.node? t = some n ∧ n.display = none ∧ s ∈ n.layoutParts ∧
      depth = d + 1 ∧ g.Unfolds s d u := by
  induction hs with
  | root => exact .inl ⟨rfl, rfl⟩
  | @part depth v w m _ h hd hw ih =>
    refine .inr ?_
    rcases ih with ⟨rfl, rfl⟩ | ⟨n, s, d, hn, hnone, hs, rfl, hv⟩
    · exact ⟨m, w, 0, h, hd, hw, rfl, .root⟩
    · exact ⟨n, s, d + 1, hn, hnone, hs, rfl, .part hv h hd hw⟩

/-- A type fits if it is not rendered from its structure, or if there is room and its parts fit into
one level less. -/
theorem fits_iff : g.Fits room t ↔ ∀ n, g.node? t = some n → n.display = none →
    ∃ less, room = less + 1 ∧ ∀ u ∈ n.layoutParts, g.Fits less u := by
  constructor
  · intro hfits n hn hd
    cases room with
    | zero => exact absurd hd (hfits 0 t n .root le_rfl hn)
    | succ less => exact ⟨less, rfl, fun u hu => hfits.of_part hn hd hu⟩
  · intro h depth u m hs hdepth hm hdm
    rcases hs.eq_or_of_part with ⟨rfl, rfl⟩ | ⟨n, s, d, hn, hd, hpart, rfl, hu⟩
    · obtain ⟨less, rfl, -⟩ := h m hm hdm
      exact absurd hdepth (Nat.not_succ_le_zero less)
    · obtain ⟨less, rfl, hless⟩ := h n hn hd
      exact hless s hpart d u m hu (Nat.le_of_succ_le_succ hdepth) hm hdm

/-- The same as a computation. -/
def fitsWithin (g : Graph) : Nat → TypeId → Bool
  | room, t =>
    match g.node? t with
    | none => true
    | some n =>
      match n.display, room with
      | some _, _ => true
      | none, 0 => false
      | none, room + 1 => n.layoutParts.all (g.fitsWithin room)

theorem fits_iff_fitsWithin : g.Fits room t ↔ g.fitsWithin room t := by
  induction room generalizing t with
  | zero =>
    rw [fits_iff, fitsWithin]
    cases hn : g.node? t with
    | none => simp
    | some n => cases hd : n.display <;> simp [hd]
  | succ room ih =>
    rw [fits_iff, fitsWithin]
    cases hn : g.node? t with
    | none => simp
    | some n => cases hd : n.display <;> simp [hd, ih]

instance (g : Graph) (room : Nat) (t : TypeId) : Decidable (g.Fits room t) :=
  decidable_of_iff _ fits_iff_fitsWithin.symm

/-! ## Rendering -/

/-- **Rendering within the limit.** Every type has one rendering by the rules with the limit, whether
it contains itself or not. If nothing that has to be rendered from its structure is met too deep, this
is also its one rendering by the same rules without a limit. A union is then rendered by the renderings
of its branches on their own with bars between them, an intersection likewise with ampersands, and a
generic array by that of its elements and brackets. -/
theorem render_unlimited (g : Graph) (f : Fallback) (t : TypeId) :
    (∀ text, g.Renders f maxRenderDepth 0 t text ↔ text = g.render t f) ∧
    (g.Fits maxRenderDepth t →
      (∀ text, g.Renders f ⊤ 0 t text ↔ text = g.render t f) ∧
      ∀ n, g.node? t = some n → n.display = none → n.value = none →
        (n.union ≠ [] →
          g.render t f = String.intercalate " | " (n.union.map fun u => g.render u f)) ∧
        (n.union = [] → n.intersection ≠ [] →
          g.render t f = String.intercalate " & " (n.intersection.map fun u => g.render u f)) ∧
        ∀ element, n.union = [] → n.intersection = [] → n.symbol = some "Array" →
          n.typeArguments = [element] →
          g.render t f = if g.needsParens f element then "(" ++ g.render element f ++ ")[]"
            else g.render element f ++ "[]") := by
  constructor
  · have hrenders := renders_renderWithin g f (Nat.zero_add maxRenderDepth) t
    exact fun text => ⟨fun h => h.unique hrenders, fun h => h ▸ hrenders⟩
  · intro hfits
    have hrenders := hfits.renders_renderWithin f 0
    refine ⟨fun text => ⟨fun h => h.unique hrenders, fun h => h ▸ hrenders⟩, ?_⟩
    intro n hn hd hv
    -- Within the depth, a rendering is made of the renderings of the parts.
    rw [render_eq_layout_of_fits hfits hn hd, TypeNode.layout, hv]
    refine ⟨fun hunion => if_pos hunion, fun hunion hintersection => ?_, ?_⟩
    · rw [hunion]
      exact if_pos hintersection
    · intro element hunion hintersection hsymbol harguments
      rw [hunion, hintersection, hsymbol, harguments]
      rfl

/-- Lists of strings and numbers that are also lists of trees, where a tree has lists of trees and
comes with a rendering, and a type of strings or of itself. -/
def listsOfTrees : Graph where
  types := [
    { id := ⟨0⟩, flags := TypeFlags.string },
    { id := ⟨1⟩, flags := TypeFlags.number },
    { id := ⟨2⟩, flags := TypeFlags.unionType, union := [⟨0⟩, ⟨1⟩] },
    { id := ⟨3⟩, flags := TypeFlags.object, symbol := some "Array", typeArguments := [⟨2⟩] },
    { id := ⟨4⟩, flags := TypeFlags.object, display := some "Tree"
      properties := [⟨"children", ⟨5⟩, ""⟩] },
    { id := ⟨5⟩, flags := TypeFlags.object, symbol := some "Array", typeArguments := [⟨4⟩] },
    { id := ⟨6⟩, flags := TypeFlags.intersectionType, intersection := [⟨3⟩, ⟨5⟩] },
    { id := ⟨7⟩, flags := TypeFlags.unionType, union := [⟨0⟩, ⟨7⟩] }]
  components := []

/-- A type that fits and leads to itself, where it comes with a rendering, and one that does not. -/
theorem render_unlimited_listsOfTrees :
    listsOfTrees.Fits maxRenderDepth ⟨6⟩ ∧ ¬ listsOfTrees.Fits maxRenderDepth ⟨7⟩ ∧
      listsOfTrees.Renders .usual ⊤ 0 ⟨6⟩ "(string | number)[] & Tree[]" ∧
      listsOfTrees.render ⟨6⟩ =
        String.intercalate " & " [listsOfTrees.render ⟨3⟩, listsOfTrees.render ⟨5⟩] := by
  have hfits : listsOfTrees.Fits maxRenderDepth ⟨6⟩ := by decide
  obtain ⟨hunlimited, hparts⟩ := (render_unlimited listsOfTrees .usual ⟨6⟩).2 hfits
  refine ⟨hfits, by decide, (hunlimited _).2 (by decide), ?_⟩
  exact (hparts _ rfl rfl rfl).2.1 rfl (by decide)

end Graph

end ComponentViews
