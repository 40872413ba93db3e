import ComponentViews.Proofs.Graph.FlagPieces

/-!
# The canonical texts of type flags

The canonical text is what comes out when the table of all names is walked in its order: a name is
written if all its flags are set and some of them have not been written yet, and the bits that are left
in the end make up a number. The names for groups of flags stand last in the table, where no flag of
theirs is left, so none of them is ever written. As a canonical text is read back, it decides between
flags, and with what texts say that gives the normal form of every text that is read.

## Main definitions

* `TypeFlags.writeNames`: the names that a walk through a table writes, and the flags that are left.
* `TypeFlags.Canonical`: the pieces of a canonical text.

## Main results

* `writeNames_named`: the walk through all names writes those of single flags.
* `canonical_pieces`: the pieces of the canonical text.
* `texts_denote_flags`: what is written for flags, what texts of flags say and which are refused.
-/

namespace ComponentViews

namespace TypeFlags

/-! ## Single flags -/

theorem contains_iff {f g : TypeFlags} :
    f.contains g ↔ ∀ i, g.bits.getLsbD i → f.bits.getLsbD i := by
  unfold contains
  rw [beq_iff_eq]
  constructor
  · intro h i hi
    rw [← h, BitVec.getLsbD_and, Bool.and_eq_true] at hi
    exact hi.1
  · intro h
    refine BitVec.eq_of_getLsbD_eq fun i _ => ?_
    rw [BitVec.getLsbD_and, Bool.eq_iff_iff, Bool.and_eq_true]
    exact ⟨And.right, fun hi => ⟨h i hi, hi⟩⟩

theorem intersects_iff {f g : TypeFlags} :
    f.intersects g ↔ ∃ i, f.bits.getLsbD i ∧ g.bits.getLsbD i := by
  have hzero : ∀ i, (0 : BitVec 32).getLsbD i = false := fun _ => BitVec.getLsbD_zero
  unfold intersects
  rw [bne_iff_ne]
  constructor
  · intro h
    by_contra hnone
    refine h (BitVec.eq_of_getLsbD_eq fun i _ => ?_)
    rw [BitVec.getLsbD_and, hzero, Bool.and_eq_false_iff]
    by_contra hi
    simp only [not_or, Bool.not_eq_false] at hi
    exact hnone ⟨i, hi⟩
  · rintro ⟨i, hf, hg⟩ h
    have hi := congrArg (·.getLsbD i) h
    simp [hf, hg] at hi

section Single

variable {f : TypeFlags} {k : Nat} (hk : k < 32)
include hk

theorem contains_single_iff : f.contains (single k) ↔ f.bits.getLsbD k := by
  rw [contains_iff]
  constructor
  · intro h
    exact h k (by rw [getLsbD_single hk, decide_eq_true rfl])
  · intro h i hi
    have hlt : i < 32 := BitVec.lt_of_getLsbD hi
    rw [getLsbD_single hlt, decide_eq_true_eq] at hi
    rwa [hi]

theorem intersects_single_iff : f.intersects (single k) ↔ f.bits.getLsbD k := by
  rw [intersects_iff]
  constructor
  · rintro ⟨i, hf, hi⟩
    have hlt : i < 32 := BitVec.lt_of_getLsbD hi
    rw [getLsbD_single hlt, decide_eq_true_eq] at hi
    rwa [← hi]
  · intro h
    exact ⟨k, h, by rw [getLsbD_single hk, decide_eq_true rfl]⟩

end Single

/-! ## The walk through a table -/

/-- The flags of one set that are not in another. -/
def without (f g : TypeFlags) : TypeFlags := ⟨f.bits &&& ~~~g.bits⟩

theorem getLsbD_without {f g : TypeFlags} {i : Nat} (hi : i < 32) :
    (f.without g).bits.getLsbD i ↔ f.bits.getLsbD i ∧ ¬ g.bits.getLsbD i := by
  rw [without, BitVec.getLsbD_and, BitVec.getLsbD_not, decide_eq_true hi, Bool.true_and,
    Bool.and_eq_true, Bool.not_eq_true', Bool.not_eq_true]

/-- The names that are written for flags when a table is walked, and the flags that are left: a name is
written if all its flags are set and some of them are left. -/
def writeNames (f left : TypeFlags) : List (String × TypeFlags) → List String × TypeFlags
  | [] => ([], left)
  | (name, g) :: table =>
    if f.contains g ∧ left.intersects g then
      let (names, rest) := writeNames f (left.without g) table
      (name :: names, rest)
    else writeNames f left table

variable {f left : TypeFlags}

theorem writeNames_append (table more : List (String × TypeFlags)) :
    f.writeNames left (table ++ more) =
      ((f.writeNames left table).1 ++ (f.writeNames (f.writeNames left table).2 more).1,
        (f.writeNames (f.writeNames left table).2 more).2) := by
  induction table generalizing left with
  | nil => rfl
  | cons e table ih =>
    rw [List.cons_append, writeNames, writeNames, ih, ih]
    split <;> rfl

/-- Names of which no flag is left are not written. -/
theorem writeNames_of_disjoint {table : List (String × TypeFlags)}
    (h : ∀ e ∈ table, ¬ left.intersects e.2) : f.writeNames left table = ([], left) := by
  induction table with
  | nil => rfl
  | cons e table ih =>
    rw [List.forall_mem_cons] at h
    rw [writeNames, if_neg fun he => h.1 he.2, ih h.2]

/-- The table of single flags. -/
def singles (es : List (String × Nat)) : List (String × TypeFlags) :=
  es.map fun e => (e.1, single e.2)

/-- Of single flags that are all left, those that are set are written, and no others are taken. -/
theorem writeNames_singles {es : List (String × Nat)} (hes : ∀ e ∈ es, e.2 < 32)
    (hnodup : (es.map (·.2)).Nodup)
    (hleft : ∀ e ∈ es, left.bits.getLsbD e.2 ↔ f.bits.getLsbD e.2) :
    (f.writeNames left (singles es)).1 = (es.filter fun e => f.bits.getLsbD e.2).map (·.1) ∧
      ∀ i < 32, (f.writeNames left (singles es)).2.bits.getLsbD i ↔
        left.bits.getLsbD i ∧ i ∉ es.map (·.2) := by
  induction es generalizing left with
  | nil => exact ⟨rfl, fun i _ => by simp [singles, writeNames]⟩
  | cons e es ih =>
    rw [List.forall_mem_cons] at hes hleft
    rw [List.map_cons, List.nodup_cons] at hnodup
    -- Nothing has been taken of a flag before its name, so it is left exactly if it is set.
    have hstep : f.contains (single e.2) ∧ left.intersects (single e.2) ↔ f.bits.getLsbD e.2 := by
      rw [contains_single_iff hes.1, intersects_single_iff hes.1, hleft.1, and_self]
    rw [singles, List.map_cons, ← singles, writeNames, List.filter_cons]
    simp only [hstep, List.map_cons, List.mem_cons, not_or]
    by_cases hset : f.bits.getLsbD e.2
    · -- The flag is taken, and no later name has it.
      have hbit : ∀ i < 32, (left.without (single e.2)).bits.getLsbD i ↔
          left.bits.getLsbD i ∧ i ≠ e.2 := by
        intro i hi
        rw [getLsbD_without hi, getLsbD_single hi, decide_eq_true_eq]
      have hleft' : ∀ e' ∈ es,
          (left.without (single e.2)).bits.getLsbD e'.2 ↔ f.bits.getLsbD e'.2 := by
        intro e' he'
        have hne : e'.2 ≠ e.2 := fun h => hnodup.1 (h ▸ List.mem_map_of_mem he')
        rw [hbit _ (hes.2 e' he'), hleft.2 e' he', and_iff_left hne]
      obtain ⟨hnames, hrest⟩ := ih hes.2 hnodup.2 hleft'
      rw [if_pos hset, if_pos hset]
      refine ⟨congrArg (e.1 :: ·) hnames, fun i hi => ?_⟩
      rw [hrest i hi, hbit i hi, and_assoc]
    · obtain ⟨hnames, hrest⟩ := ih hes.2 hnodup.2 hleft.2
      rw [if_neg hset, if_neg hset]
      refine ⟨hnames, fun i hi => ?_⟩
      have hne : left.bits.getLsbD i → i ≠ e.2 := by
        rintro h rfl
        exact hset (hleft.1.1 h)
      rw [hrest i hi]
      exact ⟨fun h => ⟨h.1, hne h.1, h.2⟩, fun h => ⟨h.1, h.2.2⟩⟩

/-- No group has a flag without a name. -/
theorem lt_of_getLsbD_group : ∀ e ∈ [literal, stringLike, numberLike], ∀ i < 32,
    e.bits.getLsbD i → i < singleNames.length := by
  decide

/-- The walk through all names writes those of single flags, and the flags without a name are left. -/
theorem writeNames_named (f : TypeFlags) :
    f.writeNames f named = (f.setNames, f.unnamed) := by
  -- The names of single flags come first in the table; what they leave has no flag of a group.
  have hpositions : singleNames.zipIdx.map (·.2) = List.range singleNames.length := by decide
  have hsmall : ∀ e ∈ singleNames.zipIdx, e.2 < 32 := by decide
  have hnodup : (singleNames.zipIdx.map (·.2)).Nodup := by
    rw [hpositions]
    exact List.nodup_range
  obtain ⟨hnames, hrest⟩ := @writeNames_singles f f _ hsmall hnodup fun _ _ => Iff.rfl
  have hleft : (f.writeNames f (singles singleNames.zipIdx)).2 = f.unnamed := by
    refine ext_getLsbD fun i => ?_
    by_cases hi : i < 32
    · rw [hrest i hi, getLsbD_unnamed f hi, hpositions]
      simp
    · rw [BitVec.getLsbD_of_ge _ _ (Nat.le_of_not_lt hi),
        BitVec.getLsbD_of_ge _ _ (Nat.le_of_not_lt hi)]
  have hgroups : ∀ e ∈ [("LITERAL", literal), ("STRING_LIKE", stringLike),
      ("NUMBER_LIKE", numberLike)], ¬ f.unnamed.intersects e.2 := by
    intro e he hi
    obtain ⟨i, hf, hg⟩ := intersects_iff.1 hi
    have hlt : i < 32 := BitVec.lt_of_getLsbD hg
    have hmem : e.2 ∈ [literal, stringLike, numberLike] := by
      have hmap := List.mem_map_of_mem (f := (·.2)) he
      simpa using hmap
    rw [getLsbD_unnamed f hlt, Bool.and_eq_true, Bool.not_eq_true', decide_eq_false_iff_not] at hf
    exact hf.2 (lt_of_getLsbD_group e.2 hmem i hlt hg)
  have hnamed : named = singles singleNames.zipIdx ++ [("LITERAL", literal),
      ("STRING_LIKE", stringLike), ("NUMBER_LIKE", numberLike)] := rfl
  rw [hnamed, writeNames_append, hleft, writeNames_of_disjoint hgroups, hnames, List.append_nil]
  rfl

/-! ## Canonical texts -/

/-- The pieces of a canonical text: the names of the single flags that are set, in the order of their
bits, as the walk through all names writes them, and one number for all the bits without a name, if
there are any. -/
structure Canonical (f : TypeFlags) (names rest : List String) : Prop where
  sublist : names.Sublist singleNames
  mem_names_iff : ∀ i name, singleNames[i]? = some name → (name ∈ names ↔ f.bits.getLsbD i)
  walk : f.writeNames f named = (names, f.unnamed)
  unnamed_iff : ∀ i, f.unnamed.bits.getLsbD i ↔ f.bits.getLsbD i ∧ singleNames.length ≤ i
  rest_eq : rest = if f.unnamed = empty then []
    else [String.ofList ('0' :: 'x' :: hexDigits f.unnamed.bits.toNat)]
  denotes : ∀ p ∈ rest, Denotes p.toList f.unnamed
  not_group : ∀ p ∈ names ++ rest, p ∉ groupNames

theorem setNames_sublist (f : TypeFlags) : f.setNames.Sublist singleNames := by
  have hnames : singleNames.zipIdx.map (·.1) = singleNames := by decide
  have hsub := (List.filter_sublist (p := fun e : String × Nat => f.bits.getLsbD e.2)
    (l := singleNames.zipIdx)).map (·.1)
  rwa [hnames] at hsub

theorem mem_setNames_iff (f : TypeFlags) {i : Nat} {name : String}
    (hname : singleNames[i]? = some name) : name ∈ f.setNames ↔ f.bits.getLsbD i := by
  rw [setNames, List.mem_map]
  constructor
  · rintro ⟨⟨n, j⟩, he, rfl⟩
    obtain ⟨he, hset⟩ := List.mem_filter.1 he
    -- Two names at different positions are different.
    have hj : singleNames[j]? = some n := List.mem_zipIdx_iff_getElem?.1 he
    have hnodup : singleNames.Nodup := by decide
    obtain ⟨hi, -⟩ := List.getElem?_eq_some_iff.1 hname
    obtain rfl : i = j := (List.getElem?_inj hi hnodup).1 (hname.trans hj.symm)
    exact hset
  · intro hset
    exact ⟨(name, i), List.mem_filter.2 ⟨List.mem_zipIdx_iff_getElem?.2 hname, hset⟩, rfl⟩

theorem unnamedPiece_eq (f : TypeFlags) :
    f.unnamedPiece = if f.unnamed = empty then []
      else [String.ofList ('0' :: 'x' :: hexDigits f.unnamed.bits.toNat)] := by
  have hempty : f.unnamed = empty ↔ f.bits &&& ~~~namedMask = 0 :=
    ⟨congrArg bits, congrArg mk⟩
  rw [unnamedPiece]
  simp only [hempty]
  rfl

/-- The pieces of the canonical text. -/
theorem canonical_pieces (f : TypeFlags) : f.Canonical f.setNames f.unnamedPiece where
  sublist := f.setNames_sublist
  mem_names_iff _ _ := f.mem_setNames_iff
  walk := f.writeNames_named
  unnamed_iff i := by
    by_cases hi : i < 32
    · rw [getLsbD_unnamed f hi]
      simp
    · have hbits : ∀ g : TypeFlags, ¬ g.bits.getLsbD i := fun g h =>
        hi (BitVec.lt_of_getLsbD h)
      exact iff_of_false (hbits _) fun h => hbits _ h.1
  rest_eq := f.unnamedPiece_eq
  denotes p hp := by
    rw [unnamedPiece_eq] at hp
    split at hp
    · cases hp
    · have hread := ofPiece?_hexPiece f.unnamed.bits.isLt
      rw [BitVec.ofNat_toNat, BitVec.setWidth_eq] at hread
      rw [List.mem_singleton.1 hp, String.toList_ofList]
      exact ofPiece?_eq_some_iff.1 hread
  not_group p hp := by
    -- Names for groups are neither names for single flags nor numbers.
    have hnames : ∀ n ∈ singleNames, n ∉ groupNames := by decide
    have hhead : ∀ n ∈ groupNames, n.toList.head? ≠ some '0' := by decide +kernel
    rcases List.mem_append.1 hp with hp | hp
    · exact hnames p (f.setNames_sublist.subset hp)
    · rw [unnamedPiece_eq] at hp
      split at hp
      · cases hp
      · intro hgroup
        refine hhead p hgroup ?_
        rw [List.mem_singleton.1 hp, String.toList_ofList]
        rfl

/-- **Texts of flags.** There are names for single flags and names for groups. Flags are read back from
their canonical text, which lists the names of the single flags that are set in the order of their bits
and then all other bits as one number, and never a name for a group. A text stands for the flags of all
its pieces together; so it does not matter in which order pieces stand, how often, and with what white
space around them. Two texts stand for the same flags if the canonical texts of what they stand for are
the same. A text that is not blank is refused for a piece that is empty, no name that is declared, or no
hexadecimal number of 32 bits, and only then. -/
theorem texts_denote_flags :
    named.map (·.1) = singleNames ++ groupNames ∧
    (∀ f : TypeFlags, ofText? f.text = some f ∧
      ∃ names rest, f.text = String.intercalate " | " (names ++ rest) ∧ f.Canonical names rest) ∧
    (∀ s f, ofText? s = some f ↔ ∃ fs, List.Forall₂ Denotes (textPieces s) fs ∧
      ∀ i, f.bits.getLsbD i ↔ ∃ g ∈ fs, g.bits.getLsbD i) ∧
    (∀ s t, (∀ p, p ∈ textPieces s ↔ p ∈ textPieces t) → ofText? s = ofText? t) ∧
    (∀ ps qs : List SpacedPiece, (∀ w, w ∈ ps.map (·.piece) ↔ w ∈ qs.map (·.piece)) →
      ofText? (spacedText ps) = ofText? (spacedText qs)) ∧
    (∀ s t f g, ofText? s = some f → ofText? t = some g → (f = g ↔ f.text = g.text)) ∧
    ∀ s, (∃ c ∈ s.toList, isBlank c = false) →
      (ofText? s = none ↔
        ∃ p ∈ (s.toList.splitOn '|').map trimBlanks, p = [] ∨ IsUndeclared p ∨ IsMalformed p) := by
  refine ⟨names_named, fun f => ⟨f.ofText?_text, _, _, rfl, f.canonical_pieces⟩,
    fun s f => ofText?_eq_some_iff, fun s t => ofText?_congr, fun ps qs h => ?_,
    fun s t f g _ _ => ⟨congrArg text, fun h => ?_⟩, fun s hs => ?_⟩
  · refine ofText?_congr fun p => ?_
    rw [textPieces_spacedText, textPieces_spacedText]
    exact h p
  · -- Both are read back from the one text.
    have hread := f.ofText?_text
    rw [h, ofText?_text] at hread
    exact (Option.some.inj hread).symm
  · -- No piece is left out, as the text is not blank; an empty one is no name that is declared.
    obtain ⟨c, hc, hblank⟩ := hs
    have hpieces : textPieces s = (s.toList.splitOn '|').map trimBlanks :=
      if_neg fun h => Bool.false_ne_true (hblank.symm.trans (trimBlanks_eq_nil_iff.1 h c hc))
    have hempty : IsUndeclared [] := by
      refine ⟨fun cs h => (List.cons_ne_nil _ _ h.symm), ?_⟩
      decide
    rw [ofText?_eq_none_iff, hpieces]
    refine exists_congr fun p => and_congr_right fun _ => ⟨.inr, ?_⟩
    rintro (rfl | h)
    · exact .inl hempty
    · exact h

/-- The flag of objects and a bit without a name, from a text with a name and the number for both, in
either order and repeated; `g` is no digit. -/
theorem texts_denote_flags_repeated :
    let f : TypeFlags := ⟨0x80020000⟩
    let object : SpacedPiece :=
      ⟨[' '], ['O', 'B', 'J', 'E', 'C', 'T'], ['\t'], List.forall_mem_singleton.2 rfl,
        List.forall_mem_singleton.2 rfl, by decide, by decide +kernel, by decide +kernel, by decide⟩
    let number : SpacedPiece :=
      ⟨[], ['0', 'x', '8', '0', '0', '2', '0', '0', '0', '0'], [], nofun, nofun, by decide,
        by decide +kernel, by decide +kernel, by decide⟩
    let s := spacedText [object, number, object]
    let t := "0x80020000|OBJECT"
    f.text = "OBJECT | 0x80000000" ∧ ofText? f.text = some f ∧
      (∀ w, w ∈ [number, object].map (·.piece) ↔ w ∈ [object, number, object].map (·.piece)) ∧
      ofText? (spacedText [number, object]) = ofText? s ∧
      (∀ p, p ∈ textPieces s ↔ p ∈ textPieces t) ∧ ofText? s = ofText? t ∧ ofText? t = some f ∧
      ofText? "OBJECT" = some TypeFlags.object ∧ TypeFlags.object.text ≠ f.text ∧
      (∃ c ∈ "OBJECT|0xg".toList, isBlank c = false) ∧ ofText? "OBJECT|0xg" = none := by
  intro f object number s t
  obtain ⟨-, hcanonical, -, hpieces, hspaced, htexts, hrefused⟩ := texts_denote_flags
  have hwords : ∀ w, w ∈ [number, object].map (·.piece) ↔
      w ∈ [object, number, object].map (·.piece) := by
    intro w
    simp only [List.map_cons, List.map_nil, List.mem_cons, List.not_mem_nil, or_false]
    tauto
  have hsame : ∀ p, p ∈ textPieces s ↔ p ∈ textPieces t := by
    intro p
    have ht : textPieces t = [number, object].map (·.piece) := by decide +kernel
    rw [ht, hwords p, textPieces_spacedText]
  have ht : ofText? t = some f := by decide +kernel
  have hobject : ofText? "OBJECT" = some TypeFlags.object := by decide +kernel
  have hne : TypeFlags.object ≠ f := by decide
  have hvisible : ∃ c ∈ "OBJECT|0xg".toList, isBlank c = false :=
    ⟨'O', by decide +kernel, by decide⟩
  -- After the sign for a number there is no digit.
  have hmalformed : IsMalformed ['0', 'x', 'g'] := by
    refine ⟨['g'], rfl, ?_⟩
    rintro ⟨n, -, hn⟩
    have hnone : hexNumber? 0 (dropPlus ['g']) = none := by decide
    rw [isHexNumber_iff, hnone] at hn
    cases hn.2
  refine ⟨by decide +kernel, (hcanonical f).1, hwords, hspaced _ _ hwords, hsame, hpieces s t hsame,
    ht, hobject, fun h => hne ((htexts _ _ _ _ hobject ht).2 h), hvisible, ?_⟩
  exact (hrefused _ hvisible).2 ⟨['0', 'x', 'g'], by decide +kernel, .inr (.inr hmalformed)⟩

end TypeFlags

end ComponentViews
