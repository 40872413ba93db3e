import ComponentViews.Graph.Flags
import ComponentViews.Proofs.Digits
import ComponentViews.Proofs.Trimming
import Mathlib.Algebra.Ring.Nat
import Mathlib.Data.List.TakeWhile

/-!
# Texts of type flags

Every set of flags is read back from its canonical text, the bits without a name included. The text
consists of words between signs; a word is a name of one flag or a hexadecimal number.

## Main definitions

* `IsWord`: what may stand between two signs and is found there again.
* `TypeFlags.parts`: the flags that the words of a canonical text stand for.

## Main results

* `map_trimBlanks_splitOn`: words are found between the signs that were put there.
* `TypeFlags.ofText?_text`: a canonical text reads back.
-/

namespace ComponentViews

/-! ## Words -/

/-- Characters that are not empty, without white space and without the sign between words. -/
def IsWord (cs : List Char) : Prop :=
  cs ≠ [] ∧ ∀ c ∈ cs, c ≠ '|' ∧ isBlank c = false

instance (cs : List Char) : Decidable (IsWord cs) :=
  have : Decidable (∀ c ∈ cs, c ≠ '|' ∧ isBlank c = false) := List.decidableBAll _ cs
  inferInstanceAs (Decidable (_ ∧ _))

theorem trimBlanks_word {before w after : List Char} (hbefore : ∀ c ∈ before, isBlank c)
    (hw : IsWord w) (hafter : ∀ c ∈ after, isBlank c) :
    trimBlanks (before ++ (w ++ after)) = w := by
  obtain ⟨hne, hchars⟩ := hw
  refine trimBlanks_append hbefore hne ?_ ?_ hafter
  · obtain ⟨c, cs, rfl⟩ := List.exists_cons_of_ne_nil hne
    exact trimLeft_cons_of_not_blank (hchars c List.mem_cons_self).2
  · obtain ⟨cs, c, rfl⟩ := List.eq_nil_or_concat w |>.resolve_left hne
    rw [List.concat_eq_append] at hchars ⊢
    exact trimRight_concat_of_not_blank (hchars c (by simp)).2 cs

/-- There is no sign in a word and the blanks around it. -/
theorem sign_notMem {before w after : List Char} (hbefore : ∀ c ∈ before, c = ' ')
    (hw : IsWord w) (hafter : ∀ c ∈ after, c = ' ') : '|' ∉ before ++ (w ++ after) := by
  simp only [List.mem_append, not_or]
  exact ⟨fun h => absurd (hbefore _ h) (by decide), fun h => (hw.2 _ h).1 rfl,
    fun h => absurd (hafter _ h) (by decide)⟩

/-- Words with a sign and blanks between them are what stands between the signs, trimmed. -/
theorem map_trimBlanks_splitOn {before w : List Char} {ws : List (List Char)}
    (hbefore : ∀ c ∈ before, c = ' ') (hws : ∀ u ∈ w :: ws, IsWord u) :
    ((before ++ [' ', '|', ' '].intercalate (w :: ws)).splitOn '|').map trimBlanks = w :: ws := by
  have hw : IsWord w := hws w List.mem_cons_self
  have hblank : ∀ cs : List Char, (∀ c ∈ cs, c = ' ') → ∀ c ∈ cs, isBlank c :=
    fun cs h c hc => h c hc ▸ rfl
  have hafter : ∀ c ∈ [' '], c = ' ' := by simp
  -- After the first sign a blank stands before the next word: hence any blanks `before`.
  induction ws generalizing before w with
  | nil =>
    have hsign := sign_notMem hbefore hw (List.forall_mem_nil _)
    have htrim := trimBlanks_word (hblank before hbefore) hw (List.forall_mem_nil _)
    rw [List.append_nil] at hsign htrim
    rw [List.intercalate_singleton, List.splitOn_eq_singleton hsign, List.map_singleton, htrim]
  | cons u us ih =>
    have hsplit : before ++ [' ', '|', ' '].intercalate (w :: u :: us) =
        (before ++ (w ++ [' '])) ++ '|' :: ([' '] ++ [' ', '|', ' '].intercalate (u :: us)) := by
      simp [List.intercalate]
    have hus : ∀ v ∈ u :: us, IsWord v := fun v hv => hws v (List.mem_cons_of_mem w hv)
    have hcut : ∀ cs ds : List Char,
        (cs ++ '|' :: ds).splitOn '|' = cs.splitOn '|' ++ ds.splitOn '|' :=
      fun cs ds => List.splitOnP_append_cons cs ds (beq_self_eq_true '|')
    rw [hsplit, hcut, List.splitOn_eq_singleton (sign_notMem hbefore hw hafter),
      List.singleton_append, List.map_cons,
      trimBlanks_word (hblank before hbefore) hw (hblank _ hafter),
      ih hafter hus (hus u List.mem_cons_self)]

/-! ## The words of a canonical text -/

namespace TypeFlags

theorem isWord_of_mem_singleNames : ∀ e ∈ singleNames.zipIdx, IsWord e.1.toList := by
  decide

theorem ofPiece?_singleName :
    ∀ e ∈ singleNames.zipIdx, ofPiece? e.1.toList = some (single e.2) := by
  decide

theorem isWord_hexPiece (n : Nat) : IsWord ('0' :: 'x' :: hexDigits n) := by
  have hdigit : ∀ d < 16, hexDigit d ≠ '|' ∧ isBlank (hexDigit d) = false := by decide
  refine ⟨List.cons_ne_nil _ _, fun c hc => ?_⟩
  rcases List.mem_cons.1 hc with rfl | hc
  · decide
  · rcases List.mem_cons.1 hc with rfl | hc
    · decide
    · obtain ⟨d, hd, rfl⟩ := exists_of_mem_hexDigits hc
      exact hdigit d hd

/-- A hexadecimal number of 32 bits is read as these bits. -/
theorem ofPiece?_hexPiece {n : Nat} (hn : n < 2 ^ 32) :
    ofPiece? ('0' :: 'x' :: hexDigits n) = some ⟨BitVec.ofNat 32 n⟩ := by
  have hplus : ∀ d < 16, hexDigit d ≠ '+' := by decide
  obtain ⟨c, cs, hcs⟩ := List.exists_cons_of_ne_nil (hexDigits_ne_nil n)
  obtain ⟨d, hd, rfl⟩ := exists_of_mem_hexDigits (hcs ▸ List.mem_cons_self)
  have hdrop : dropPlus (hexDigit d :: cs) = hexDigit d :: cs := by
    unfold dropPlus
    split
    · rename_i h
      exact absurd (List.cons.inj h).1 (hplus d hd)
    · rfl
  have hread := hexNumber?_hexDigits n
  rw [ofPiece?, hcs, ofHex?, hdrop]
  simp only
  rw [← hcs, hread, Option.bind_some]
  exact if_pos hn

/-- The bits without a name. -/
def unnamed (f : TypeFlags) : TypeFlags := ⟨f.bits &&& ~~~namedMask⟩

/-- The flags that the pieces of the canonical text stand for. -/
def parts (f : TypeFlags) : List TypeFlags :=
  (singleNames.zipIdx.filter fun e => f.bits.getLsbD e.2).map (fun e => single e.2) ++
    if f.unnamed.bits = 0 then [] else [f.unnamed]

theorem isWord_of_mem_pieces {f : TypeFlags} {p : String} (h : p ∈ f.pieces) :
    IsWord p.toList := by
  rcases List.mem_append.1 h with h | h
  · obtain ⟨e, he, rfl⟩ := List.mem_map.1 h
    exact isWord_of_mem_singleNames e (List.mem_filter.1 he).1
  · simp only [unnamedPiece] at h
    split at h
    · cases h
    · rw [List.mem_singleton.1 h, String.toList_ofList]
      exact isWord_hexPiece _

theorem mapM_ofPiece?_names {es : List (String × Nat)} (h : ∀ e ∈ es, e ∈ singleNames.zipIdx) :
    es.mapM (fun e => ofPiece? e.1.toList) = some (es.map fun e => single e.2) := by
  induction es with
  | nil => rfl
  | cons e es ih =>
    rw [List.mapM_cons, ofPiece?_singleName e (h e List.mem_cons_self),
      ih fun e' he' => h e' (List.mem_cons_of_mem e he')]
    rfl

/-- Each piece of the canonical text is read as what it stands for. -/
theorem mapM_ofPiece?_pieces (f : TypeFlags) :
    f.pieces.mapM (fun p => ofPiece? p.toList) = some f.parts := by
  have hnames : f.setNames.mapM (fun p => ofPiece? p.toList) =
      some ((singleNames.zipIdx.filter fun e => f.bits.getLsbD e.2).map fun e => single e.2) := by
    rw [setNames, List.mapM_map]
    exact mapM_ofPiece?_names fun e he => (List.mem_filter.1 he).1
  have hunnamed : f.unnamedPiece.mapM (fun p => ofPiece? p.toList) =
      some (if f.unnamed.bits = 0 then [] else [f.unnamed]) := by
    by_cases h : f.unnamed.bits = 0
    · have hpiece : f.unnamedPiece = [] := if_pos h
      rw [hpiece, if_pos h]
      rfl
    · have hpiece : f.unnamedPiece =
          [String.ofList ('0' :: 'x' :: hexDigits f.unnamed.bits.toNat)] := if_neg h
      have hread := ofPiece?_hexPiece f.unnamed.bits.isLt
      rw [BitVec.ofNat_toNat, BitVec.setWidth_eq] at hread
      rw [hpiece, if_neg h]
      simp [List.mapM_cons, hread]
  rw [pieces, List.mapM_append, hnames, hunnamed]
  rfl

/-! ## The flags of a text -/

theorem getLsbD_single {i : Nat} (hi : i < 32) (k : Nat) :
    (single k).bits.getLsbD i = decide (i = k) := by
  rw [single, BitVec.getLsbD_shiftLeft, BitVec.getLsbD_one]
  grind

theorem getLsbD_foldl_union (fs : List TypeFlags) (f : TypeFlags) (i : Nat) :
    (fs.foldl union f).bits.getLsbD i = (f.bits.getLsbD i || fs.any (·.bits.getLsbD i)) := by
  induction fs generalizing f with
  | nil => simp
  | cons g fs ih =>
    rw [List.foldl_cons, ih, union, BitVec.getLsbD_or, List.any_cons, Bool.or_assoc]

/-- Each named flag that is set is one of the parts, and no other named flag is. -/
theorem any_names (f : TypeFlags) {i : Nat} (hi : i < 32) :
    ((singleNames.zipIdx.filter fun e => f.bits.getLsbD e.2).map fun e => single e.2).any
      (·.bits.getLsbD i) = (f.bits.getLsbD i && decide (i < singleNames.length)) := by
  rw [List.any_map, List.any_filter, Bool.eq_iff_iff]
  simp only [Function.comp_apply, getLsbD_single hi, List.any_eq_true, Bool.and_eq_true,
    decide_eq_true_eq]
  constructor
  · rintro ⟨e, he, hset, rfl⟩
    exact ⟨hset, by simpa using List.snd_lt_of_mem_zipIdx he⟩
  · rintro ⟨hset, hlt⟩
    refine ⟨(singleNames[i], i), ?_, hset, rfl⟩
    exact List.mem_zipIdx_iff_getElem?.2 (List.getElem?_eq_getElem hlt)

/-- The bits without a name are the part that remains. -/
theorem getLsbD_unnamed (f : TypeFlags) {i : Nat} (hi : i < 32) :
    f.unnamed.bits.getLsbD i = (f.bits.getLsbD i && !decide (i < singleNames.length)) := by
  have hmask : ∀ i < 32, namedMask.getLsbD i = decide (i < singleNames.length) := by decide
  rw [unnamed, BitVec.getLsbD_and, BitVec.getLsbD_not, hmask i hi, decide_eq_true hi,
    Bool.true_and]

theorem foldl_union_parts (f : TypeFlags) : f.parts.foldl union empty = f := by
  -- A bit below the number of names is in a named part, any other in the part without names.
  have hbits : (f.parts.foldl union empty).bits = f.bits := by
    refine BitVec.eq_of_getLsbD_eq fun i hi => ?_
    have hrest : (if f.unnamed.bits = 0 then [] else [f.unnamed]).any (·.bits.getLsbD i) =
        f.unnamed.bits.getLsbD i := by
      split
      · rename_i h
        rw [h]
        simp
      · simp
    have hempty : empty.bits.getLsbD i = false := BitVec.getLsbD_zero
    rw [getLsbD_foldl_union, hempty, Bool.false_or, parts, List.any_append, any_names f hi, hrest,
      getLsbD_unnamed f hi, ← Bool.and_or_distrib_left, Bool.or_not_self, Bool.and_true]
  cases hf : f.parts.foldl union empty
  rw [hf] at hbits
  exact congrArg TypeFlags.mk hbits

theorem ofText?_text (f : TypeFlags) : ofText? f.text = some f := by
  have htext : f.text.toList = [' ', '|', ' '].intercalate (f.pieces.map String.toList) :=
    String.toList_intercalate
  have hread := mapM_ofPiece?_pieces f
  have hfold := foldl_union_parts f
  cases hp : f.pieces with
  | nil =>
    -- Without pieces the text is empty, which is the text of no flags.
    rw [hp] at htext hread
    obtain rfl : f = empty := by
      rw [← hfold, ← Option.some.inj hread]
      rfl
    rw [ofText?, htext]
    rfl
  | cons p ps =>
    have hwords : ∀ u ∈ (p :: ps).map String.toList, IsWord u := by
      intro u hu
      obtain ⟨q, hq, rfl⟩ := List.mem_map.1 hu
      exact isWord_of_mem_pieces (hp ▸ hq)
    have hsplit := map_trimBlanks_splitOn (List.forall_mem_nil _) hwords
    rw [hp, List.map_cons] at htext
    rw [hp] at hread
    rw [List.nil_append, ← htext] at hsplit
    have hne : trimBlanks f.text.toList ≠ [] := by
      obtain ⟨hcons, hchars⟩ := hwords p.toList List.mem_cons_self
      obtain ⟨c, cs, hcs⟩ := List.exists_cons_of_ne_nil hcons
      have hc := (hchars c (hcs ▸ List.mem_cons_self)).2
      rw [htext, hcs]
      cases ps <;> exact trimBlanks_cons_ne_nil hc
    have hpieces : (f.text.toList.splitOn '|').mapM (fun piece => ofPiece? (trimBlanks piece)) =
        some f.parts :=
      calc (f.text.toList.splitOn '|').mapM (fun piece => ofPiece? (trimBlanks piece))
          = ((f.text.toList.splitOn '|').map trimBlanks).mapM ofPiece? :=
          (List.mapM_map (f := trimBlanks) (g := ofPiece?)).symm
        _ = ((p :: ps).map String.toList).mapM ofPiece? := congrArg _ hsplit
        _ = (p :: ps).mapM (fun q => ofPiece? q.toList) := List.mapM_map
        _ = some f.parts := hread
    rw [ofText?, if_neg hne, hpieces, Option.map_some, hfold]

end TypeFlags

end ComponentViews
