import ComponentViews.Proofs.Classification.Outcome
import ComponentViews.Proofs.Json.Scalars

/-!
# Texts of descriptors are read in one way

The text of a descriptor shows the descriptor, whatever follows: each kind of descriptor begins in a
way of its own, and what it says ends with a bracket that was opened there. That values are in the way
of this is why they have to be spelled as scalars are. A string between quotation marks may contain
separators and brackets, or all of the text of another descriptor, but it is known where it ends; any
other scalar contains none of these, so it ends where the first of them stands.

## Main definitions

* `Json.IsScalar`, `IsScalarText`: strings, integers and truth values, and their compact texts.
* `Descriptor.AllValues`: the values at any depth of a descriptor have a property.
* `Descriptor.Kind`, `Descriptor.Kind.opening`: the kinds of descriptors, and how their texts begin.

## Main results

* `intercalate_append_inj`: items that end where they have to are found again in a list.
* `IsScalarText.append_inj`: scalars end where they have to.
* `Descriptor.kind_eq_of_append_eq`: texts that begin in the same way are of descriptors of one kind.
* `Descriptor.text_append_inj`: descriptors whose values are scalars are found again in their
  texts, so these are different for different descriptors.
-/

namespace ComponentViews

/-! ## Lists between brackets -/

/-- What follows an item of a list between brackets. -/
def EndsItem (rest : List Char) : Prop := ∃ c ∈ rest.head?, c = ',' ∨ c = ']'

/-- What stands before the first sign of some kind is known. -/
theorem append_inj_of_forall {p : Char → Bool} {a b r s : List Char} (ha : ∀ c ∈ a, p c)
    (hb : ∀ c ∈ b, p c) (hr : ∃ c ∈ r.head?, p c = false) (hs : ∃ c ∈ s.head?, p c = false)
    (h : a ++ r = b ++ s) : a = b ∧ r = s := by
  have hstop : ∀ {r : List Char}, (∃ c ∈ r.head?, p c = false) → r.takeWhile p = [] := by
    rintro r ⟨c, hc, hp⟩
    obtain ⟨rest, rfl⟩ := List.head?_eq_some_iff.1 hc
    exact List.takeWhile_cons_of_neg (by simp [hp])
  have htake := congrArg (List.takeWhile p) h
  rw [List.takeWhile_append_of_pos ha, List.takeWhile_append_of_pos hb, hstop hr, hstop hs,
    List.append_nil, List.append_nil] at htake
  exact ⟨htake, List.append_cancel_left (htake ▸ h)⟩

section Items

variable {α : Type} {text : α → List Char}

/-- The items of a list after the first. -/
def laterItems (text : α → List Char) (xs : List α) : List Char :=
  xs.flatMap fun x => ',' :: ' ' :: text x

theorem intercalate_map_cons (x : α) (xs : List α) :
    [',', ' '].intercalate ((x :: xs).map text) = text x ++ laterItems text xs := by
  induction xs generalizing x with
  | nil => simp [laterItems]
  | cons y ys ih =>
    rw [List.map_cons, List.map_cons, List.intercalate_cons_cons, ← List.map_cons, ih]
    simp [laterItems]

theorem endsItem_laterItems (xs : List α) (r : List Char) :
    EndsItem (laterItems text xs ++ ']' :: r) := by
  cases xs <;> simp [laterItems, EndsItem]

/-- Items that begin with no bracket and end where they have to are found again in a list. -/
theorem intercalate_append_inj {xs ys : List α} {r s : List Char}
    (hinj : ∀ x ∈ xs, ∀ y ∈ ys, ∀ r s, EndsItem r → EndsItem s →
      text x ++ r = text y ++ s → x = y ∧ r = s)
    (hstart : ∀ x, x ∈ xs ∨ x ∈ ys → ∃ c ∈ (text x).head?, c ≠ ']')
    (h : [',', ' '].intercalate (xs.map text) ++ ']' :: r =
      [',', ' '].intercalate (ys.map text) ++ ']' :: s) : xs = ys ∧ r = s := by
  -- The bracket ends the items after the first of one list where it ends those of the other.
  have hlater : ∀ xs' ys' : List α, (∀ x ∈ xs', x ∈ xs) → (∀ y ∈ ys', y ∈ ys) →
      laterItems text xs' ++ ']' :: r = laterItems text ys' ++ ']' :: s → xs' = ys' ∧ r = s := by
    intro xs'
    induction xs' with
    | nil =>
      rintro (_ | ⟨y, ys'⟩) - - h
      · exact ⟨rfl, (List.cons.inj h).2⟩
      · simp [laterItems] at h
    | cons x xs' ih =>
      rintro (_ | ⟨y, ys'⟩) hxs hys h
      · simp [laterItems] at h
      · rw [List.forall_mem_cons] at hxs hys
        have hitems : text x ++ (laterItems text xs' ++ ']' :: r) =
            text y ++ (laterItems text ys' ++ ']' :: s) := by
          simpa [laterItems] using h
        obtain ⟨rfl, hrest⟩ := hinj x hxs.1 y hys.1 _ _ (endsItem_laterItems xs' r)
          (endsItem_laterItems ys' s) hitems
        obtain ⟨rfl, hrs⟩ := ih ys' hxs.2 hys.2 hrest
        exact ⟨rfl, hrs⟩
  -- A list with items does not begin as one without.
  have hfirst : ∀ {zs : List α} {z : α} {t : List Char}, z ∈ xs ∨ z ∈ ys →
      text z ++ laterItems text zs ++ ']' :: t ≠ ']' :: r ∧
        text z ++ laterItems text zs ++ ']' :: t ≠ ']' :: s := by
    intro zs z t hz
    obtain ⟨c, hc, hne⟩ := hstart z hz
    obtain ⟨rest, hrest⟩ := List.head?_eq_some_iff.1 hc
    rw [hrest]
    exact ⟨fun h => hne (List.cons.inj h).1, fun h => hne (List.cons.inj h).1⟩
  match xs, ys with
  | [], [] => exact ⟨rfl, (List.cons.inj h).2⟩
  | [], y :: ys =>
    rw [intercalate_map_cons] at h
    exact absurd h.symm (hfirst (.inr List.mem_cons_self)).1
  | x :: xs, [] =>
    rw [intercalate_map_cons] at h
    exact absurd h (hfirst (.inl List.mem_cons_self)).2
  | x :: xs, y :: ys =>
    rw [intercalate_map_cons, intercalate_map_cons, List.append_assoc, List.append_assoc] at h
    obtain ⟨rfl, hrest⟩ := hinj x List.mem_cons_self y List.mem_cons_self _ _
      (endsItem_laterItems xs r) (endsItem_laterItems ys s) h
    obtain ⟨rfl, hrs⟩ := hlater xs ys (fun x => List.mem_cons_of_mem _)
      (fun y => List.mem_cons_of_mem _) hrest
    exact ⟨rfl, hrs⟩

end Items

/-! ## Scalars -/

/-- Strings, integers and truth values. -/
inductive Json.IsScalar : Json → Prop
  | string (s : String) : IsScalar (.string s)
  | integer (n : Int) : IsScalar (.int n)
  | bool (b : Bool) : IsScalar (.bool b)

/-- The compact text of a string, an integer or a truth value. -/
def IsScalarText (text : String) : Prop := ∃ v : Json, v.IsScalar ∧ text = v.compact

/-- A sign that stands in no scalar but in strings. -/
def isOutsideScalars (c : Char) : Bool := c = ',' || c = ']' || c = '"'

/-- A scalar is a string between quotation marks, or has neither separators nor brackets nor
quotation marks. -/
theorem IsScalarText.quoted_or_plain {text : String} (h : IsScalarText text) :
    (∃ s, text.toList = Json.quote s) ∨
      text.toList ≠ [] ∧ ∀ c ∈ text.toList, !isOutsideScalars c := by
  obtain ⟨v, hv, rfl⟩ := h
  rw [Json.compact, String.toList_ofList]
  cases hv with
  | string s => exact .inl ⟨s, by rw [Json.compactChars]⟩
  | bool b => cases b <;> exact .inr ⟨List.cons_ne_nil _ _, List.all_eq_true.1 (by decide)⟩
  | integer n =>
    -- A digit is none of the characters outside of scalars.
    have hdigit : ∀ c : Char, c.isDigit → !isOutsideScalars c := by
      intro c hc
      have hne : ∀ d : Char, d.isDigit = false → c ≠ d := by
        rintro d hd rfl
        exact Bool.false_ne_true (hd.symm.trans hc)
      simp [isOutsideScalars, hne ',' rfl, hne ']' rfl, hne '"' rfl]
    have hdigits : ∀ n, ∀ c ∈ decimalChars n, !isOutsideScalars c := fun n c hc =>
      hdigit c (Numeral.isDigit_of_mem_decimalChars hc)
    refine .inr ?_
    show integerChars n ≠ [] ∧ ∀ c ∈ integerChars n, !isOutsideScalars c
    cases n with
    | ofNat n => exact ⟨Numeral.decimalChars_ne_nil n, hdigits n⟩
    | negSucc n => exact ⟨List.cons_ne_nil _ _, List.forall_mem_cons.2 ⟨by decide, hdigits _⟩⟩

/-- A string ends with the first quotation mark that stands for itself. -/
theorem quote_append_inj {s t : String} {r r' : List Char}
    (h : Json.quote s ++ r = Json.quote t ++ r') : s = t ∧ r = r' := by
  simp only [Json.quote, List.cons_append, List.append_assoc, List.cons.injEq, true_and,
    List.nil_append] at h
  have hread := congrArg JsonSyntax.readString? h
  rw [JsonSyntax.readString?_quote, JsonSyntax.readString?_quote] at hread
  obtain ⟨hst, hrest⟩ := Prod.mk.inj (Option.some.inj hread)
  exact ⟨Option.some.inj hst, hrest⟩

/-- Scalars end where they have to. -/
theorem IsScalarText.append_inj {v w : String} (hv : IsScalarText v) (hw : IsScalarText w)
    {r s : List Char} (hr : EndsItem r) (hs : EndsItem s)
    (h : v.toList ++ r = w.toList ++ s) : v = w ∧ r = s := by
  have hstop : ∀ {r}, EndsItem r → ∃ c ∈ r.head?, (!isOutsideScalars c) = false := by
    rintro r ⟨c, hc, rfl | rfl⟩ <;> exact ⟨_, hc, rfl⟩
  -- A scalar of the one form does not begin as one of the other.
  have hmixed : ∀ {t : String} {x r r' : List Char}, x ≠ [] → (∀ c ∈ x, !isOutsideScalars c) →
      Json.quote t ++ r ≠ x ++ r' := by
    intro t x r r' hne hx he
    obtain ⟨c, cs, rfl⟩ := List.exists_cons_of_ne_nil hne
    have hc := hx c List.mem_cons_self
    obtain rfl : '"' = c := (List.cons.inj he).1
    exact absurd hc (by decide)
  rcases hv.quoted_or_plain with ⟨s₁, hv⟩ | ⟨hne, hv⟩
  · rcases hw.quoted_or_plain with ⟨s₂, hw⟩ | ⟨hne, hw⟩
    · rw [hv, hw] at h
      obtain ⟨rfl, hrs⟩ := quote_append_inj h
      exact ⟨String.toList_injective (hv.trans hw.symm), hrs⟩
    · exact absurd (hv ▸ h) (hmixed hne hw)
  · rcases hw.quoted_or_plain with ⟨s₂, hw⟩ | ⟨-, hw⟩
    · exact absurd (hw ▸ h.symm) (hmixed hne hv)
    · obtain ⟨hvw, hrs⟩ := append_inj_of_forall hv hw (hstop hr) (hstop hs) h
      exact ⟨String.toList_injective hvw, hrs⟩

/-- Scalars begin with no bracket. -/
theorem IsScalarText.exists_head {v : String} (h : IsScalarText v) :
    ∃ c ∈ v.toList.head?, c ≠ ']' := by
  rcases h.quoted_or_plain with ⟨s, hv⟩ | ⟨hne, hv⟩
  · exact ⟨'"', by rw [hv]; rfl, by decide⟩
  · obtain ⟨c, cs, hc⟩ := List.exists_cons_of_ne_nil hne
    refine ⟨c, by rw [hc]; rfl, ?_⟩
    rintro rfl
    exact absurd (hv ']' (hc ▸ List.mem_cons_self)) (by decide)

namespace Descriptor

/-! ## Kinds of descriptors -/

/-- The values at any depth of a descriptor have a property. -/
inductive AllValues (P : String → Prop) : Descriptor → Prop
  | basic {d : Descriptor} (h : d.IsBasic) : AllValues P d
  | arrayOf {element : Descriptor} (h : AllValues P element) : AllValues P (.arrayOf element)
  | oneOf {values : List String} (h : ∀ v ∈ values, P v) : AllValues P (.oneOf values)
  | oneOfType {members : List Descriptor} (h : ∀ m ∈ members, AllValues P m) :
      AllValues P (.oneOfType members)

namespace AllValues

variable {P : String → Prop}

theorem of_arrayOf {element : Descriptor} (h : AllValues P (.arrayOf element)) :
    AllValues P element := by
  cases h with
  | basic h => cases h
  | arrayOf h => exact h

theorem of_oneOf {values : List String} (h : AllValues P (.oneOf values)) : ∀ v ∈ values, P v := by
  cases h with
  | basic h => cases h
  | oneOf h => exact h

theorem of_oneOfType {members : List Descriptor} (h : AllValues P (.oneOfType members)) :
    ∀ m ∈ members, AllValues P m := by
  cases h with
  | basic h => cases h
  | oneOfType h => exact h

end AllValues

/-- The kinds of descriptors. -/
inductive Kind where
  | bool
  | number
  | string
  | any
  | node
  | object
  | arrayOf
  | oneOf
  | oneOfType
  deriving DecidableEq

/-- The kind of a descriptor. -/
def kind : Descriptor → Kind
  | .bool => .bool
  | .number => .number
  | .string => .string
  | .any => .any
  | .node => .node
  | .object => .object
  | .arrayOf _ => .arrayOf
  | .oneOf _ => .oneOf
  | .oneOfType _ => .oneOfType

/-- How the texts of the descriptors of a kind begin. -/
def Kind.opening : Kind → String
  | .bool => "PropTypes.bool"
  | .number => "PropTypes.number"
  | .string => "PropTypes.string"
  | .any => "PropTypes.any"
  | .node => "PropTypes.node"
  | .object => "PropTypes.object"
  | .arrayOf => "PropTypes.arrayOf("
  | .oneOf => "PropTypes.oneOf(["
  | .oneOfType => "PropTypes.oneOfType(["

/-- All kinds. -/
def Kind.all : List Kind :=
  [.bool, .number, .string, .any, .node, .object, .arrayOf, .oneOf, .oneOfType]

theorem Kind.mem_all (k : Kind) : k ∈ all := by cases k <;> decide

/-- No kind of descriptor begins as another does. -/
theorem Kind.eq_of_opening_prefix {k l : Kind} (h : k.opening.toList <+: l.opening.toList) :
    k = l := by
  have hall : ∀ k ∈ all, ∀ l ∈ all, k.opening.toList <+: l.opening.toList → k = l := by
    decide +kernel
  exact hall k k.mem_all l l.mem_all h

/-- What the text of a descriptor says after its opening. -/
def inside : Descriptor → List Char
  | .arrayOf element => element.text.toList ++ [')']
  | .oneOf values => [',', ' '].intercalate (values.map String.toList) ++ [']', ')']
  | .oneOfType members =>
    [',', ' '].intercalate (members.map fun m => m.text.toList) ++ [']', ')']
  | _ => []

theorem toList_text (d : Descriptor) : d.text.toList = d.kind.opening.toList ++ d.inside := by
  have hclose : ")".toList = [')'] ∧ "])".toList = [']', ')'] ∧ ", ".toList = [',', ' '] := by
    decide +kernel
  cases d with
  | arrayOf element =>
    have htext : (arrayOf element).text = Kind.arrayOf.opening ++ element.text ++ ")" := rfl
    rw [htext, String.toList_append, String.toList_append, hclose.1, List.append_assoc]
    rfl
  | oneOf values =>
    have htext : (oneOf values).text =
        Kind.oneOf.opening ++ String.intercalate ", " values ++ "])" := rfl
    rw [htext, String.toList_append, String.toList_append, hclose.2.1, List.append_assoc,
      String.toList_intercalate, hclose.2.2]
    rfl
  | oneOfType members =>
    have htext : (oneOfType members).text =
        Kind.oneOfType.opening ++ String.intercalate ", " (texts members) ++ "])" := rfl
    rw [htext, String.toList_append, String.toList_append, hclose.2.1, List.append_assoc,
      String.toList_intercalate, hclose.2.2, texts_eq_map, List.map_map]
    rfl
  | _ => exact (List.append_nil _).symm

/-- Texts that begin in the same way are those of descriptors of one kind, which say the same after
their opening. -/
theorem kind_eq_of_append_eq {d e : Descriptor} {r s : List Char}
    (h : d.text.toList ++ r = e.text.toList ++ s) :
    d.kind = e.kind ∧ d.inside ++ r = e.inside ++ s := by
  rw [toList_text, toList_text, List.append_assoc, List.append_assoc] at h
  have hkind : d.kind = e.kind := by
    have hd : d.kind.opening.toList <+: e.kind.opening.toList ++ (e.inside ++ s) :=
      h ▸ List.prefix_append _ _
    rcases List.prefix_or_prefix_of_prefix hd (List.prefix_append _ _) with hp | hp
    · exact Kind.eq_of_opening_prefix hp
    · exact (Kind.eq_of_opening_prefix hp).symm
  exact ⟨hkind, List.append_cancel_left (hkind ▸ h)⟩

/-! ## Unique reading -/

/-- Texts of descriptors begin with no bracket. -/
theorem exists_head_text (d : Descriptor) : ∃ c ∈ d.text.toList.head?, c ≠ ']' := by
  have hopening : ∀ k : Kind, k.opening.toList.head? = some 'P' := by
    intro k
    cases k <;> decide +kernel
  refine ⟨'P', ?_, by decide⟩
  rw [toList_text, List.head?_append, hopening]
  rfl

/-- **Unique reading.** Descriptors whose values are scalars are found again in their texts, whatever
follows. -/
theorem text_append_inj {d e : Descriptor} (hd : d.AllValues IsScalarText)
    (he : e.AllValues IsScalarText) {r s : List Char}
    (h : d.text.toList ++ r = e.text.toList ++ s) : d = e ∧ r = s := by
  -- By induction on the descriptor, for any other one and any two texts that follow.
  induction hd generalizing e r s with
  | basic hb =>
    obtain ⟨hkind, hinside⟩ := kind_eq_of_append_eq h
    cases hb <;> cases e <;> first | exact ⟨rfl, hinside⟩ | cases hkind
  | @arrayOf a _ ih =>
    obtain ⟨hkind, hinside⟩ := kind_eq_of_append_eq h
    cases e with
    | arrayOf b =>
      simp only [inside, List.append_assoc] at hinside
      obtain ⟨rfl, hrest⟩ := ih he.of_arrayOf hinside
      exact ⟨rfl, (List.cons.inj hrest).2⟩
    | _ => cases hkind
  | @oneOf vs hvs =>
    obtain ⟨hkind, hinside⟩ := kind_eq_of_append_eq h
    cases e with
    | oneOf ws =>
      simp only [inside, List.append_assoc] at hinside
      obtain ⟨rfl, hrest⟩ := intercalate_append_inj
        (fun v hv w hw r s => (hvs v hv).append_inj (he.of_oneOf w hw))
        (fun v hv => (hv.elim (hvs v) (he.of_oneOf v)).exists_head) hinside
      exact ⟨rfl, (List.cons.inj hrest).2⟩
    | _ => cases hkind
  | @oneOfType ds _ ih =>
    obtain ⟨hkind, hinside⟩ := kind_eq_of_append_eq h
    cases e with
    | oneOfType es =>
      simp only [inside, List.append_assoc] at hinside
      -- A member is found again even if something else than the end of an item follows.
      obtain ⟨rfl, hrest⟩ := intercalate_append_inj
        (fun d hd e hmem r s _ _ => ih d hd (he.of_oneOfType e hmem))
        (fun d _ => d.exists_head_text) hinside
      exact ⟨rfl, (List.cons.inj hrest).2⟩
    | _ => cases hkind

/-- Descriptors whose values are scalars are the same if their texts are. -/
theorem text_inj {d e : Descriptor} (hd : d.AllValues IsScalarText)
    (he : e.AllValues IsScalarText) (h : d.text = e.text) : d = e :=
  (text_append_inj (r := []) (s := []) hd he (by rw [h])).1

end Descriptor

end ComponentViews
