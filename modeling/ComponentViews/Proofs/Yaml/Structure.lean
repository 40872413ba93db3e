import ComponentViews.Proofs.Yaml.Nodes

/-!
# Lists and mappings are read back

A list or mapping is found by the columns of its items and keys. The sign before an item, or a key with
its colon, leads to the value that follows; the value leads to what comes after its lines; and where
that is further left, the list or mapping ends.

## Main definitions

* `Lexer.Reaches`: the tokens up to what follows are found.
* `ReadsValue`: the lines of a value are read back.

## Main results

* `Lexer.leadsTo_entry`, `Lexer.leadsTo_key`: signs before items, and keys.
* `reaches_items`, `reaches_fields`: lists and mappings whose parts are read back.
* `readsValue_of_textual`: values are read back.
-/

namespace ComponentViews.Yaml

namespace Lexer

variable {ts : List Token} {i : Int} {outer : List Int} {b : Bool} {m : Mark} {rest : List Char}

/-! ## Signs before items -/

theorem token?_hyphen (fuel : Nat) :
    (clear ts i outer true ⟨'-' :: ' ' :: rest, m⟩).token? fuel '-' (' ' :: rest) =
      blockEntry? (clear ts i outer true ⟨'-' :: ' ' :: rest, m⟩) := by
  have hmarker : (⟨'-' :: ' ' :: rest, m⟩ : Cursor).atDocumentMarker = false := Bool.and_false _
  simp [token?, clear, hmarker, startsGap, isGap]

theorem startsText_hyphen : StartsText ('-' :: rest) := startsText_cons.2 (by decide)

theorem indentTo_clear_of_le {column : Nat} (h : (column : Int) ≤ i) (position : Nat) (t : Token)
    {c : Cursor} : (clear ts i outer b c).indentTo column position t = clear ts i outer b c :=
  if_neg (by simp [inFlow, clear, Int.not_lt.2 h])

/-- A list or mapping starts with its token before some of those that have been found. -/
theorem indentTo_clear_of_lt {column : Nat} (h : i < column) (after : List Token) (t : Token)
    {c : Cursor} :
    (clear (after ++ ts) i outer b c).indentTo column ts.length t =
      clear (after ++ t :: ts) column (i :: outer) b c := by
  have hinside : (!(clear (after ++ ts) i outer b c).inFlow &&
      decide ((clear (after ++ ts) i outer b c).indent < column)) = true := by
    simpa [inFlow, clear] using h
  rw [indentTo, hinside, if_pos rfl]
  simp [insert, clear]
  omega

/-- The sign before a further item. -/
theorem leadsTo_entry (hm : m.column = i) :
    LeadsTo (clear ts i outer true ⟨'-' :: ' ' :: rest, m⟩)
      (clear (.blockEntry :: ts) i outer true ⟨' ' :: rest, m.pass ['-']⟩) := by
  refine leadsTo_token startsText_hyphen (Int.le_of_eq hm.symm) (fun fuel _ => ?_)
    (Nat.lt_succ_self _)
  have hindent : (clear ts i outer true ⟨'-' :: ' ' :: rest, m⟩).indentHere? .blockSequenceStart = _ :=
    congrArg some (indentTo_clear_of_le (Int.le_of_eq hm) _ _)
  rw [token?_hyphen, blockEntry?, hindent]
  rfl

/-- The sign before the first item. -/
theorem leadsTo_firstEntry {j : Nat} (hj : i < j) (hm : m.column = j) :
    LeadsTo (clear ts i outer true ⟨'-' :: ' ' :: rest, m⟩)
      (clear (.blockEntry :: .blockSequenceStart :: ts) j (i :: outer) true
        ⟨' ' :: rest, m.pass ['-']⟩) := by
  subst hm
  refine leadsTo_token startsText_hyphen (Int.le_of_lt hj) (fun fuel _ => ?_) (Nat.lt_succ_self _)
  have hindent : (clear ts i outer true ⟨'-' :: ' ' :: rest, m⟩).indentHere? .blockSequenceStart = _ :=
    congrArg some (indentTo_clear_of_lt hj [] _)
  rw [token?_hyphen, blockEntry?, hindent]
  rfl

/-! ## Keys -/

section Key

variable {k : String} (hk : IsFieldName k)
include hk

theorem isInk_of_isFieldName : ∀ c ∈ k.toList, isGap c = false ∧ isBreak c = false := by
  intro c hc
  refine ⟨?_, isBreak_of_spelling_plain hk.1 c hc⟩
  have hsigns : c ≠ ' ' ∧ c ≠ '\t' := by
    rcases hk.2.1 c hc with hlower | rfl
    · constructor <;> rintro rfl <;> exact absurd hlower (by decide)
    · decide
  rw [isGap, decide_eq_false hsigns.1, decide_eq_false hsigns.2]
  rfl

theorem startsText_fieldName (more : List Char) : StartsText (k.toList ++ more) := by
  have hne := ne_nil_of_spelling_plain hk.1
  exact (IsRun.of_allowsPlain (spelling_eq_plain hk.1).1 hne).starts.append hne more

theorem atDocumentMarker_fieldName (more : List Char) (m : Mark) :
    (⟨k.toList ++ more, m⟩ : Cursor).atDocumentMarker = false := by
  obtain ⟨c, cs, hc⟩ := List.exists_cons_of_ne_nil (ne_nil_of_spelling_plain hk.1)
  have hsigns : c ≠ '-' ∧ c ≠ '.' := by
    rcases hk.2.1 c (hc ▸ List.mem_cons_self) with hlower | rfl
    · constructor <;> rintro rfl <;> exact absurd hlower (by decide)
    · decide
  have hmarker : isDocumentMarker (k.toList ++ more) = false := by
    rw [hc, List.cons_append, isDocumentMarker]
    · rintro ds h
      exact hsigns.1 (List.cons.inj h).1
    · rintro ds h
      exact hsigns.2 (List.cons.inj h).1
  rw [Cursor.atDocumentMarker, hmarker, Bool.and_false]

/-- The scalar before a colon is found. -/
theorem plainScalar?_fieldName (hgap : startsGap rest) {fuel : Nat} (hfuel : 0 < fuel) :
    plainScalar? fuel false (i + 1) ⟨k.toList ++ ':' :: rest, m⟩ =
      some (k.toList, false, ⟨':' :: rest, m.pass k.toList⟩) := by
  obtain ⟨fuel, rfl⟩ := Nat.exists_eq_add_of_le' hfuel
  have hink := isInk_of_isFieldName hk
  have hsign : hasValueSign k.toList = false :=
    (IsRun.of_allowsPlain (spelling_eq_plain hk.1).1 (ne_nil_of_spelling_plain hk.1)).value
  rw [plainScalar?, plainRest?, atDocumentMarker_fieldName hk,
    startsWithAny_comment_eq_false (startsText_fieldName hk _),
    plainPart?_append hink hsign (.inr ⟨rest, rfl, hgap⟩),
    Mark.pass_eq_advance fun c hc => (hink c hc).2]
  simp [startsGap, isGap, isBreak, Folding.text]

/-- The scalar before a colon may be a key. -/
theorem leadsTo_fieldName (hi : i ≤ m.column) (hgap : startsGap rest) :
    LeadsTo (clear ts i outer true ⟨k.toList ++ ':' :: rest, m⟩)
      { clear (.scalar .plain k.toList :: ts) i outer false ⟨':' :: rest, m.pass k.toList⟩ with
        key := startedKey ts i true m } := by
  have hne := ne_nil_of_spelling_plain hk.1
  have hallowed := (spelling_eq_plain hk.1).1
  have hsign := startsWithSign_append hallowed hne (':' :: rest)
  have hstarts := startsText_fieldName hk (':' :: rest)
  have hmarker := atDocumentMarker_fieldName hk (':' :: rest) m
  have hscalar : ∀ fuel, 0 < fuel →
      plainScalar? fuel false (i + 1) ⟨k.toList ++ ':' :: rest, m⟩ = _ := fun _ =>
    plainScalar?_fieldName hk hgap
  have hshorter : (':' :: rest).length < (k.toList ++ ':' :: rest).length := by
    rw [List.length_append]
    exact Nat.lt_add_of_pos_left (List.length_pos_iff.2 hne)
  obtain ⟨x, xs, hx⟩ := List.exists_cons_of_ne_nil (List.append_ne_nil_of_left_ne_nil hne (':' :: rest))
  rw [hx] at hstarts hsign hscalar hshorter hmarker ⊢
  refine leadsTo_token hstarts hi (fun fuel hfuel => ?_) hshorter
  rw [token?_plain hmarker hstarts hsign, plain?_clear (hscalar fuel (Nat.zero_lt_of_lt hfuel))]

end Key

/-- What came before a colon turns out to be a key. -/
theorem value?_clear (s : Token) (required : Bool) (c : Cursor) :
    ({ clear (s :: ts) i outer false c with key := some ⟨required, ts.length, m⟩ } : Lexer).value? =
      some (if i < m.column then
        clear (.value :: s :: .key :: .blockMappingStart :: ts) m.column (i :: outer) false (c.skip 1)
      else clear (.value :: s :: .key :: ts) i outer false (c.skip 1)) := by
  have hcount : ts.length + 1 - ts.length = 1 := by omega
  have hcount' : ts.length + 1 + 1 - ts.length = 2 := by omega
  by_cases hi : i < m.column <;>
    simp [value?, insert, indentTo, emitAt, emit, clear, inFlow, hi, hcount, hcount']

/-- What may still be a key waits for its colon. -/
theorem settle?_of_fresh {key : Option PossibleKey} {cs : List Char} (h : StartsText cs)
    (hi : i ≤ m.column) (hkey : ∀ k ∈ key, isStale m k = false) :
    settle? { clear ts i outer b ⟨cs, m⟩ with key } = some { clear ts i outer b ⟨cs, m⟩ with key } := by
  have hblank : ({ clear ts i outer b ⟨cs, m⟩ with key } : Lexer).skipBlank =
      { clear ts i outer b ⟨cs, m⟩ with key } := by
    simp only [skipBlank, clear, inFlow, List.isEmpty_nil, Bool.not_true, blankEnd_of_startsText h]
  have hfresh : ({ clear ts i outer b ⟨cs, m⟩ with key } : Lexer).dropStale? =
      some { clear ts i outer b ⟨cs, m⟩ with key } :=
    dropStale?_of_fresh (List.forall_mem_singleton.2 hkey)
  have hdedent : ({ clear ts i outer b ⟨cs, m⟩ with key } : Lexer).dedentTo m.column =
      { clear ts i outer b ⟨cs, m⟩ with key } := by
    cases outer with
    | nil => rfl
    | cons o outer => exact if_neg (Int.not_lt.2 hi)
  rw [settle?, hblank, hfresh, Option.map_some]
  exact congrArg some hdedent

theorem token?_colon (hgap : startsGap rest) {l : Lexer} (hmarker : l.cursor.atDocumentMarker = false)
    (fuel : Nat) : l.token? fuel ':' rest = l.value? := by
  simp [token?, hmarker, hgap]

/-- The colon after what may be a key. -/
theorem leadsTo_colon {s : Token} {k : PossibleKey} (hi : i ≤ m.column) (hk : isStale m k = false)
    (hposition : k.position = ts.length) (hgap : startsGap rest) :
    LeadsTo { clear (s :: ts) i outer false ⟨':' :: rest, m⟩ with key := some k }
      (if i < k.mark.column then
        clear (.value :: s :: .key :: .blockMappingStart :: ts) k.mark.column (i :: outer) false
          ⟨rest, m.pass [':']⟩
      else clear (.value :: s :: .key :: ts) i outer false ⟨rest, m.pass [':']⟩) := by
  have hstarts : StartsText (':' :: rest) := startsText_cons.2 (by decide)
  have hsettle : settle? { clear (s :: ts) i outer false ⟨':' :: rest, m⟩ with key := some k } = _ :=
    settle?_of_fresh hstarts hi fun k' hk' => by
      obtain rfl := Option.some.inj hk'
      exact hk
  refine .of_token hsettle rfl (Nat.le_refl _) (fun fuel _ => ?_) ?_
  · obtain ⟨required, position, mark⟩ := k
    obtain rfl : position = ts.length := hposition
    rw [token?_colon hgap]
    · exact value?_clear s required ⟨':' :: rest, m⟩
    · exact Bool.and_false _
  · split <;> exact Nat.lt_succ_self _

section Name

variable {k : String} (hk : IsFieldName k) (hgap : startsGap rest)
include hk hgap

theorem leadsTo_name (hi : i ≤ m.column) :
    LeadsTo (clear ts i outer true ⟨k.toList ++ ':' :: rest, m⟩)
      (if i < m.column then
        clear (.value :: .scalar .plain k.toList :: .key :: .blockMappingStart :: ts) m.column
          (i :: outer) false ⟨rest, m.pass (k.toList ++ [':'])⟩
      else clear (.value :: .scalar .plain k.toList :: .key :: ts) i outer false
        ⟨rest, m.pass (k.toList ++ [':'])⟩) := by
  have hline : ∀ c ∈ k.toList, isBreak c = false := isBreak_of_spelling_plain hk.1
  have hcolumn : i ≤ (m.pass k.toList).column := by
    rw [Mark.column_pass hline]
    omega
  -- The name takes no more characters than a colon may be away.
  have hfresh : isStale (m.pass k.toList) ⟨decide (i = m.column), ts.length, m⟩ = false := by
    rw [Mark.pass_eq_advance hline, isStale, Bool.or_eq_false_iff]
    exact ⟨decide_eq_false (Nat.lt_irrefl _),
      decide_eq_false (Nat.not_lt.2 (Nat.add_le_add_left hk.2.2 _))⟩
  rw [Mark.pass_append]
  exact (leadsTo_fieldName hk hi hgap).trans (leadsTo_colon hcolumn hfresh rfl hgap)

/-- The name of a further field. -/
theorem leadsTo_key (hm : m.column = i) :
    LeadsTo (clear ts i outer true ⟨k.toList ++ ':' :: rest, m⟩)
      (clear (.value :: .scalar .plain k.toList :: .key :: ts) i outer false
        ⟨rest, m.pass (k.toList ++ [':'])⟩) := by
  have hname : LeadsTo (clear ts i outer true ⟨k.toList ++ ':' :: rest, m⟩) _ :=
    leadsTo_name hk hgap (Int.le_of_eq hm.symm)
  rwa [if_neg (by omega)] at hname

/-- The name of the first field. -/
theorem leadsTo_firstKey {j : Nat} (hj : i < j) (hm : m.column = j) :
    LeadsTo (clear ts i outer true ⟨k.toList ++ ':' :: rest, m⟩)
      (clear (.value :: .scalar .plain k.toList :: .key :: .blockMappingStart :: ts) j
        (i :: outer) false ⟨rest, m.pass (k.toList ++ [':'])⟩) := by
  subst hm
  have hname : LeadsTo (clear ts i outer true ⟨k.toList ++ ':' :: rest, m⟩) _ :=
    leadsTo_name hk hgap (Int.le_of_lt hj)
  rwa [if_pos hj] at hname

end Name

/-! ## Brackets -/

/-- Between brackets, what may be a key on the outside is kept for a while. -/
theorem settle?_within {key : Option PossibleKey} {cs : List Char} (h : StartsText cs)
    (hkey : ∀ k ∈ key, isStale m k = false) :
    settle? { clear ts i outer b ⟨cs, m⟩ with outerKeys := [key] } =
      some { clear ts i outer b ⟨cs, m⟩ with outerKeys := [key] } := by
  have hblank : ({ clear ts i outer b ⟨cs, m⟩ with outerKeys := [key] } : Lexer).skipBlank =
      { clear ts i outer b ⟨cs, m⟩ with outerKeys := [key] } := by
    simp only [skipBlank, clear, blankEnd_of_startsText h]
  have hfresh : ({ clear ts i outer b ⟨cs, m⟩ with outerKeys := [key] } : Lexer).dropStale? =
      some { clear ts i outer b ⟨cs, m⟩ with outerKeys := [key] } :=
    dropStale?_of_fresh (List.forall_mem_cons.2
      ⟨(fun _ h => by cases h), List.forall_mem_singleton.2 hkey⟩)
  rw [settle?, hblank, hfresh]
  rfl

section Brackets

variable {i : Nat} {t : Tail} {x y : Char} {opening closing : Token}

/-- After the first bracket, what may be a key waits outside. -/
theorem leadsTo_opening (hi : i < m.column) {cs : List Char} (hx : StartsText (x :: cs))
    (hopen : ∀ (fuel : Nat) (l : Lexer) (cs : List Char), l.cursor.atDocumentMarker = false →
      l.token? fuel x cs = l.openFlow? opening) :
    LeadsTo (clear ts i outer b ⟨x :: cs, m⟩)
      { clear (opening :: ts) i outer true ⟨cs, m.pass [x]⟩ with
        outerKeys := [startedKey ts i b m] } := by
  have hpass : m.pass [x] = m.advance [x] :=
    Mark.pass_eq_advance (List.forall_mem_singleton.2 (startsText_cons.1 hx).1.2) m
  refine leadsTo_token hx (by omega) (fun fuel _ => ?_) (Nat.lt_succ_self _)
  rw [hopen fuel _ _ (atDocumentMarker_eq_false (Nat.zero_lt_of_lt hi)), openFlow?, startKey?_clear,
    hpass]
  rfl

/-- After the second it is back, since it is not stale. -/
theorem leadsTo_closing (hi : i < m.column) {cs : List Char} (hx : isBreak x = false)
    (hy : StartsText (y :: cs))
    (hclose : ∀ (fuel : Nat) (l : Lexer) (cs : List Char), l.cursor.atDocumentMarker = false →
      l.token? fuel y cs = l.closeFlow? closing) :
    LeadsTo
      { clear (opening :: ts) i outer true ⟨y :: cs, m.pass [x]⟩ with
        outerKeys := [startedKey ts i b m] }
      { clear (closing :: opening :: ts) i outer false ⟨cs, m.pass [x, y]⟩ with
        key := startedKey ts i b m } := by
  have hpass : m.pass [x] = m.advance [x] :=
    Mark.pass_eq_advance (List.forall_mem_singleton.2 hx) m
  have hpass' : m.pass [x, y] = (m.pass [x]).advance [y] :=
    (m.pass_append [x] [y]).trans
      (Mark.pass_eq_advance (List.forall_mem_singleton.2 (startsText_cons.1 hy).1.2) _)
  have hsettle : settle?
      { clear (opening :: ts) i outer true ⟨y :: cs, m.pass [x]⟩ with
        outerKeys := [startedKey ts i b m] } =
      some { clear (opening :: ts) i outer true ⟨y :: cs, m.pass [x]⟩ with
        outerKeys := [startedKey ts i b m] } :=
    settle?_within hy fun k hk => by
      obtain ⟨-, rfl⟩ := required_eq_false (Int.ofNat_lt.2 hi) k hk
      have hbytes : byteCount [x] ≤ 1024 := by
        have hsize := x.utf8Size_le_four
        simp only [byteCount, List.foldl_cons, List.foldl_nil]
        omega
      rw [hpass]
      exact Bool.or_eq_false_iff.2 ⟨decide_eq_false (Nat.lt_irrefl _),
        decide_eq_false (Nat.not_lt.2 (Nat.add_le_add_left hbytes _))⟩
  have hmarker : (⟨y :: cs, m.pass [x]⟩ : Cursor).atDocumentMarker = false :=
    atDocumentMarker_eq_false (by rw [Cursor.column, hpass]; exact Nat.succ_pos _)
  refine .of_token hsettle rfl (Nat.le_refl _) (fun fuel _ => ?_) (Nat.lt_succ_self _)
  refine (hclose fuel _ _ hmarker).trans ?_
  rw [hpass']
  rfl

variable (hi : i < m.column) (ht : StartsText t.rest)
include hi ht

/-- Brackets with nothing between them. -/
theorem leadsTo_brackets (hx : ∀ cs, StartsText (x :: cs)) (hy : ∀ cs, StartsText (y :: cs))
    (hopen : ∀ (fuel : Nat) (l : Lexer) (cs : List Char), l.cursor.atDocumentMarker = false →
      l.token? fuel x cs = l.openFlow? opening)
    (hclose : ∀ (fuel : Nat) (l : Lexer) (cs : List Char), l.cursor.atDocumentMarker = false →
      l.token? fuel y cs = l.closeFlow? closing) :
    LeadsTo (clear ts i outer b ⟨x :: y :: '\n' :: t.chars, m⟩)
      (clear (closing :: opening :: ts) i outer true
        ⟨t.rest, m.pass (x :: y :: '\n' :: t.blanks)⟩) := by
  have hopened : LeadsTo (clear ts i outer b ⟨x :: y :: '\n' :: t.chars, m⟩) _ :=
    leadsTo_opening hi (hx _) hopen
  have hclosed := hopened.trans
    (leadsTo_closing hi (startsText_cons.1 (hx [])).1.2 (hy _) hclose)
  have hlines : LeadsTo
      { clear (closing :: opening :: ts) i outer false ⟨'\n' :: t.chars, m.pass [x, y]⟩ with
        key := startedKey ts i b m }
      (clear (closing :: opening :: ts) i outer true
        ⟨t.rest, (m.pass [x, y]).pass ('\n' :: t.blanks)⟩) :=
    leadsTo_lines ht fun k hk => by
      obtain ⟨hrequired, rfl⟩ := required_eq_false (Int.ofNat_lt.2 hi) k hk
      exact ⟨hrequired, Mark.line_le_pass _ _⟩
  rw [← Mark.pass_append] at hlines
  exact hclosed.trans hlines

theorem leadsTo_emptyList :
    LeadsTo (clear ts i outer b ⟨'[' :: ']' :: '\n' :: t.chars, m⟩)
      (clear (.flowSequenceEnd :: .flowSequenceStart :: ts) i outer true
        ⟨t.rest, m.pass ('[' :: ']' :: '\n' :: t.blanks)⟩) :=
  leadsTo_brackets hi ht (fun _ => startsText_cons.2 (by decide))
    (fun _ => startsText_cons.2 (by decide))
    (fun _ _ _ h => by simp [token?, h]) (fun _ _ _ h => by simp [token?, h])

theorem leadsTo_emptyMapping :
    LeadsTo (clear ts i outer b ⟨'\x7b' :: '\x7d' :: '\n' :: t.chars, m⟩)
      (clear (.flowMappingEnd :: .flowMappingStart :: ts) i outer true
        ⟨t.rest, m.pass ('\x7b' :: '\x7d' :: '\n' :: t.blanks)⟩) :=
  leadsTo_brackets hi ht (fun _ => startsText_cons.2 (by decide))
    (fun _ => startsText_cons.2 (by decide))
    (fun _ _ _ h => by simp [token?, h]) (fun _ _ _ h => by simp [token?, h])

end Brackets

end Lexer

/-! ## Values -/

/-- The tokens from a place are found up to what follows. -/
def Lexer.Reaches (l : Lexer) (ts : List Token) (i : Int) (outer : List Int) (t : Tail) : Prop :=
  ∃ m : Mark, m.column = t.column ∧ l.LeadsTo (clear ts i outer true ⟨t.rest, m⟩)

theorem Lexer.LeadsTo.reaches {l l' : Lexer} {ts : List Token} {i : Int} {outer : List Int} {t : Tail}
    (h : l.LeadsTo l') (h' : l'.Reaches ts i outer t) : l.Reaches ts i outer t := by
  obtain ⟨m, hm, hlead⟩ := h'
  exact ⟨m, hm, h.trans hlead⟩

/-- A list or mapping ends before what follows further left. -/
theorem Lexer.Reaches.close {l : Lexer} {ts : List Token} {i o : Int} {outer : List Int} {t : Tail}
    (h : l.Reaches ts i (o :: outer) t) (ht : StartsText t.rest) (hcolumn : t.column < i) :
    l.Reaches (.blockEnd :: ts) o outer t := by
  obtain ⟨m, hm, hlead⟩ := h
  exact ⟨m, hm, hlead.trans (leadsTo_close ht (by rwa [Cursor.column, hm]))⟩

/-- The lines of a value are read back, after the sign of an item and after a key. What follows them
is not further right than the list or mapping that the value belongs to. -/
def ReadsValue (v : Json) : Prop :=
  ∀ (ts : List Token) (i : Nat) (outer : List Int) (m : Mark) (t : Tail), StartsText t.rest →
    t.column ≤ i →
    (m.column = i + 1 →
      (Lexer.clear ts i outer true ⟨' ' :: (v.yamlLines (i + 2) ++ t.chars), m⟩).Reaches
        (((writtenNode t.breaks v).tokens .block).reverse ++ ts) i outer t) ∧
    (i < m.column →
      (Lexer.clear ts i outer false ⟨v.yamlValue i ++ t.chars, m⟩).Reaches
        (((writtenNode t.breaks v).tokens .value).reverse ++ ts) i outer t)

theorem exists_endLine (cs : List Char) : ∃ ds, endLine cs = cs ++ ds := by
  rw [endLine]
  split
  · exact ⟨[], (List.append_nil cs).symm⟩
  · exact ⟨_, rfl⟩

theorem any_getLast?_endLine (cs : List Char) : (endLine cs).getLast?.any isBreak = true := by
  rw [endLine]
  split
  · assumption
  · rw [List.getLast?_append_of_ne_nil _ (List.cons_ne_nil _ _)]
    rfl

theorem Mark.column_pass_of_last {cs : List Char} (h : cs.getLast?.any isBreak = true) (m : Mark) :
    (m.pass cs).column = 0 := by
  obtain ⟨c, hc, hbreak⟩ := Option.any_eq_true _ _ |>.1 h
  obtain ⟨ds, rfl⟩ := List.getLast?_eq_some_iff.1 hc
  rw [pass_append, pass_cons_of_break hbreak]
  rfl

/-- A value on the rest of a line is read back. -/
theorem reaches_scalar {ts us : List Token} {i : Nat} {outer : List Int} {b : Bool} {m : Mark}
    {t : Tail} {cs : List Char} (hstarts : StartsText cs) (hne : cs ≠ [])
    (h : ∀ m : Mark, i < m.column →
      (Lexer.clear ts i outer b ⟨endLine cs ++ t.chars, m⟩).LeadsTo
        (Lexer.clear us i outer true ⟨t.rest, m.pass (endLine cs ++ t.blanks)⟩))
    (hi : i < m.column) :
    (Lexer.clear ts i outer b ⟨' ' :: (endLine cs ++ t.chars), m⟩).Reaches us i outer t := by
  have hline : StartsText (endLine cs ++ t.chars) := by
    obtain ⟨ds, hds⟩ := exists_endLine cs
    rw [hds, List.append_assoc]
    exact hstarts.append hne _
  refine (Lexer.leadsTo_spaces hline 1).reaches ⟨_, ?_, h _ (Nat.lt_succ_of_lt hi)⟩
  rw [Mark.pass_append, Tail.blanks]
  exact Mark.column_pass_lines (fun _ hb => (isPlainBreak_of_mem_replicate hb).1) _
    (Mark.column_pass_of_last (any_getLast?_endLine cs) _)

theorem startsGap_yamlValue (i : Nat) (v : Json) (more : List Char) :
    startsGap (v.yamlValue i ++ more) = true := by
  cases v with
  | array items => cases items <;> rfl
  | object fields => cases fields <;> rfl
  | _ => rfl

/-- After a name and its colon. -/
theorem lt_column_pass_name {k : String} (hk : IsFieldName k) {i : Nat} {m : Mark} (hm : i ≤ m.column) :
    i < (m.pass (k.toList ++ [':'])).column := by
  have hline : ∀ c ∈ k.toList ++ [':'], isBreak c = false := by
    simpa [or_imp, forall_and] using ⟨isBreak_of_spelling_plain hk.1, rfl⟩
  rw [Mark.column_pass hline, List.length_append]
  simp only [List.length_singleton]
  omega

section Parts

variable {ts : List Token} {i : Nat} {outer : List Int} {m : Mark} {t : Tail} (ht : StartsText t.rest)
  (hcolumn : t.column ≤ i)
include ht hcolumn

/-- The items of a list, after the sign before the first. -/
theorem reaches_items {x : Json} {xs : List Json} (hx : ReadsValue x) (hxs : ∀ y ∈ xs, ReadsValue y)
    (hm : m.column = i + 1) :
    (Lexer.clear (.blockEntry :: ts) i outer true
      ⟨' ' :: (x.yamlLines (i + 2) ++ (Json.yamlItems i xs ++ t.chars)), m⟩).Reaches
        ((itemTokens (writtenItems t.breaks (x :: xs))).reverse ++ ts) i outer t := by
  -- What follows an item is the sign of the next, at the column of the list.
  induction xs generalizing x ts m with
  | nil =>
    have hread := (hx (.blockEntry :: ts) i outer m t ht hcolumn).1 hm
    simpa [writtenItems, itemTokens, Json.yamlItems] using hread
  | cons y ys ih =>
    obtain ⟨hy, hys⟩ := List.forall_mem_cons.1 hxs
    let next : Tail := ⟨0, i, '-' :: ' ' :: (y.yamlLines (i + 2) ++ (Json.yamlItems i ys ++ t.chars))⟩
    have hchars : Json.yamlItems i (y :: ys) ++ t.chars = next.chars := by
      simp [next, Json.yamlItems, Tail.chars, Tail.blanks]
    obtain ⟨m', hm', hlead⟩ :=
      (hx (.blockEntry :: ts) i outer m next Lexer.startsText_hyphen (Nat.le_refl i)).1 hm
    have hentry := hlead.trans (Lexer.leadsTo_entry (by rw [hm']))
    have hcolumn' : (m'.pass ['-']).column = i + 1 := by
      rw [Mark.pass_cons_of_not_break rfl]
      exact congrArg (· + 1) hm'
    rw [hchars]
    have hrest := hentry.reaches (ih hy hys hcolumn')
    simpa [writtenItems, itemTokens, next] using hrest

/-- The fields of an object, after the name of the first. -/
theorem reaches_fields {k : String} {v : Json} {fields : List (String × Json)} (hv : ReadsValue v)
    (hkeys : ∀ f ∈ fields, IsFieldName f.1) (hfields : ∀ f ∈ fields, ReadsValue f.2)
    (hm : i < m.column) :
    (Lexer.clear (.value :: .scalar .plain k.toList :: .key :: ts) i outer false
      ⟨v.yamlValue i ++ (Json.yamlFields i fields ++ t.chars), m⟩).Reaches
        ((entryTokens (writtenEntries t.breaks ((k, v) :: fields))).reverse ++ ts) i outer t := by
  -- What follows a value is the next name, at the column of the mapping.
  induction fields generalizing k v ts m with
  | nil =>
    have hread := (hv (.value :: .scalar .plain k.toList :: .key :: ts) i outer m t ht hcolumn).2 hm
    simpa [writtenEntries, entryTokens, Node.tokens, Json.yamlFields] using hread
  | cons f fields ih =>
    obtain ⟨k', v'⟩ := f
    obtain ⟨hk' : IsFieldName k', hkeys⟩ := List.forall_mem_cons.1 hkeys
    obtain ⟨hv' : ReadsValue v', hfields⟩ := List.forall_mem_cons.1 hfields
    let next : Tail :=
      ⟨0, i, k'.toList ++ ':' :: (v'.yamlValue i ++ (Json.yamlFields i fields ++ t.chars))⟩
    have hchars : Json.yamlFields i ((k', v') :: fields) ++ t.chars = next.chars := by
      simp [next, Json.yamlFields, Tail.chars, Tail.blanks, keyChars_of_isFieldName hk']
    have hstarts : StartsText next.rest := Lexer.startsText_fieldName hk' _
    obtain ⟨m', hm', hlead⟩ :=
      (hv (.value :: .scalar .plain k.toList :: .key :: ts) i outer m next hstarts (Nat.le_refl i)).2 hm
    have hgap := startsGap_yamlValue i v' (Json.yamlFields i fields ++ t.chars)
    have hkey := hlead.trans (Lexer.leadsTo_key hk' hgap (by rw [hm']))
    have hcolumn' := lt_column_pass_name hk' (Nat.le_of_eq hm'.symm)
    rw [hchars]
    have hrest := hkey.reaches (ih hv' hkeys hfields hcolumn')
    simpa [writtenEntries, entryTokens, Node.tokens, next] using hrest

/-- A list that starts further right. -/
theorem reaches_indentedItems {x : Json} {xs : List Json} (hx : ReadsValue x)
    (hxs : ∀ y ∈ xs, ReadsValue y) (hm : m.column = i + 2) :
    (Lexer.clear ts i outer true
      ⟨'-' :: ' ' :: (x.yamlLines (i + 2 + 2) ++ (Json.yamlItems (i + 2) xs ++ t.chars)), m⟩).Reaches
        (((writtenNode t.breaks (.array (x :: xs))).tokens .block).reverse ++ ts) i outer t := by
  have htokens : ((writtenNode t.breaks (.array (x :: xs))).tokens .block).reverse ++ ts =
      .blockEnd :: ((itemTokens (writtenItems t.breaks (x :: xs))).reverse ++
        .blockSequenceStart :: ts) := by
    simp [writtenNode, writtenItems, Node.tokens]
  have hj : (i : Int) < (i + 2 : Nat) := by omega
  have hcolumn' : (m.pass ['-']).column = i + 2 + 1 := by
    rw [Mark.pass_cons_of_not_break rfl]
    exact congrArg (· + 1) hm
  rw [htokens]
  exact ((Lexer.leadsTo_firstEntry hj hm).reaches
    (reaches_items ht (by omega) hx hxs hcolumn')).close ht (by omega)

/-- A mapping that starts further right. -/
theorem reaches_indentedFields {k : String} {v : Json} {fields : List (String × Json)}
    (hk : IsFieldName k) (hv : ReadsValue v) (hkeys : ∀ f ∈ fields, IsFieldName f.1)
    (hfields : ∀ f ∈ fields, ReadsValue f.2) (hm : m.column = i + 2) :
    (Lexer.clear ts i outer true
      ⟨k.toList ++ ':' :: (v.yamlValue (i + 2) ++ (Json.yamlFields (i + 2) fields ++ t.chars)),
        m⟩).Reaches
        (((writtenNode t.breaks (.object ((k, v) :: fields))).tokens .block).reverse ++ ts) i outer
          t := by
  have htokens : ((writtenNode t.breaks (.object ((k, v) :: fields))).tokens .block).reverse ++ ts =
      .blockEnd :: ((entryTokens (writtenEntries t.breaks ((k, v) :: fields))).reverse ++
        .blockMappingStart :: ts) := by
    simp [writtenNode, writtenEntries, Node.tokens]
  have hj : (i : Int) < (i + 2 : Nat) := by omega
  have hcolumn' := lt_column_pass_name hk (Nat.le_of_eq hm.symm)
  have hgap := fun more => startsGap_yamlValue (i + 2) v more
  rw [htokens]
  exact ((Lexer.leadsTo_firstKey hk (hgap _) hj hm).reaches
    (reaches_fields ht (by omega) hv hkeys hfields hcolumn')).close ht (by omega)

end Parts

theorem startsText_stringChars (indent : Nat) (s : String) :
    StartsText (stringChars indent s) ∧ stringChars indent s ≠ [] := by
  rw [stringChars]
  cases hs : spelling s.toList with
  | plain =>
    have hne := ne_nil_of_spelling_plain hs
    exact ⟨(IsRun.of_allowsPlain (spelling_eq_plain hs).1 hne).starts, hne⟩
  | single | double | block => exact ⟨startsText_cons.2 (by decide), List.cons_ne_nil _ _⟩

theorem readsValue_string (s : String) : ReadsValue (.string s) := by
  intro ts i outer m t ht hcolumn
  obtain ⟨hstarts, hne⟩ := startsText_stringChars (i + 2) s
  have hread : ∀ b, i < m.column →
      (Lexer.clear ts i outer b ⟨' ' :: (endLine (stringChars (i + 2) s) ++ t.chars), m⟩).Reaches
        (stringToken t.breaks s.toList :: ts) i outer t := fun _ hm =>
    reaches_scalar hstarts hne (fun _ hi => Lexer.leadsTo_string s hi ht hcolumn) hm
  exact ⟨fun hm => hread true (by omega), hread false⟩

/-- The words for truth values stand without quotation marks. -/
theorem readsValue_bool (c : Bool) : ReadsValue (.bool c) := by
  intro ts i outer m t ht hcolumn
  have hword : ∀ cs : List Char, allowsPlain cs → cs ≠ [] → (∀ c ∈ cs, isBreak c = false) → ∀ b,
      i < m.column → (Lexer.clear ts i outer b ⟨' ' :: (endLine cs ++ t.chars), m⟩).Reaches
        (.scalar .plain cs :: ts) i outer t := by
    intro cs hallowed hne hline b hm
    have htext := endLine_append (any_getLast?_eq_false hline)
    refine reaches_scalar (IsRun.of_allowsPlain hallowed hne).starts hne (fun m' hi => ?_) hm
    rw [htext, htext]
    exact Lexer.leadsTo_plain hallowed hne hi ht hcolumn
  cases c with
  | true =>
    have hread := hword ['t', 'r', 'u', 'e'] (by decide) (by decide) (by simp [isBreak])
    exact ⟨fun hm => hread true (by omega), hread false⟩
  | false =>
    have hread := hword ['f', 'a', 'l', 's', 'e'] (by decide) (by decide) (by simp [isBreak])
    exact ⟨fun hm => hread true (by omega), hread false⟩

theorem startsText_bracket {x : Char} (hx : x = '[' ∨ x = '\x7b') (cs : List Char) :
    StartsText (x :: cs) := by
  rcases hx with rfl | rfl <;> exact startsText_cons.2 (by decide)

theorem readsValue_array {items : List Json} (h : ∀ x ∈ items, ReadsValue x) :
    ReadsValue (.array items) := by
  intro ts i outer m t ht hcolumn
  cases items with
  | nil =>
    have hread : ∀ b, i < m.column →
        (Lexer.clear ts i outer b ⟨' ' :: (endLine ['[', ']'] ++ t.chars), m⟩).Reaches
          (.flowSequenceEnd :: .flowSequenceStart :: ts) i outer t := fun _ hm =>
      reaches_scalar (startsText_bracket (.inl rfl) _) (List.cons_ne_nil _ _)
        (fun _ hi => Lexer.leadsTo_emptyList hi ht) hm
    exact ⟨fun hm => hread true (by omega), hread false⟩
  | cons x xs =>
    obtain ⟨hx, hxs⟩ := List.forall_mem_cons.1 h
    refine ⟨fun hm => ?_, fun hm => ?_⟩
    · -- In a list, the signs stand further right.
      have htext : Json.yamlLines (i + 2) (.array (x :: xs)) ++ t.chars =
          '-' :: ' ' :: (x.yamlLines (i + 2 + 2) ++ (Json.yamlItems (i + 2) xs ++ t.chars)) := by
        simp [Json.yamlLines]
      rw [htext]
      exact (Lexer.leadsTo_spaces Lexer.startsText_hyphen 1).reaches
        (reaches_indentedItems ht hcolumn hx hxs (congrArg (· + 1) hm))
    · -- Below a key, the signs stand at its column.
      let first : Tail :=
        ⟨0, i, '-' :: ' ' :: (x.yamlLines (i + 2) ++ (Json.yamlItems i xs ++ t.chars))⟩
      have htext : Json.yamlValue i (.array (x :: xs)) ++ t.chars = '\n' :: first.chars := by
        simp [first, Json.yamlValue, Tail.chars, Tail.blanks]
      have hfirst := first.column_pass m
      have hcolumn' : ((m.pass ('\n' :: first.blanks)).pass ['-']).column = i + 1 := by
        rw [Mark.pass_cons_of_not_break rfl]
        exact congrArg (· + 1) hfirst
      have hlines : (Lexer.clear ts i outer false ⟨'\n' :: first.chars, m⟩).LeadsTo _ :=
        Lexer.leadsTo_lines Lexer.startsText_hyphen fun _ h => by cases h
      rw [htext]
      exact (hlines.trans (Lexer.leadsTo_entry (by rw [hfirst]))).reaches
        (reaches_items ht hcolumn hx hxs hcolumn')

theorem readsValue_object {fields : List (String × Json)} (hkeys : ∀ f ∈ fields, IsFieldName f.1)
    (h : ∀ f ∈ fields, ReadsValue f.2) : ReadsValue (.object fields) := by
  intro ts i outer m t ht hcolumn
  cases fields with
  | nil =>
    have hread : ∀ b, i < m.column →
        (Lexer.clear ts i outer b ⟨' ' :: (endLine ['\x7b', '\x7d'] ++ t.chars), m⟩).Reaches
          (.flowMappingEnd :: .flowMappingStart :: ts) i outer t := fun _ hm =>
      reaches_scalar (startsText_bracket (.inr rfl) _) (List.cons_ne_nil _ _)
        (fun _ hi => Lexer.leadsTo_emptyMapping hi ht) hm
    exact ⟨fun hm => hread true (by omega), hread false⟩
  | cons f fields =>
    obtain ⟨k, v⟩ := f
    obtain ⟨hk : IsFieldName k, hkeys⟩ := List.forall_mem_cons.1 hkeys
    obtain ⟨hv : ReadsValue v, hfields⟩ := List.forall_mem_cons.1 h
    let first : Tail := ⟨0, i + 2,
      k.toList ++ ':' :: (v.yamlValue (i + 2) ++ (Json.yamlFields (i + 2) fields ++ t.chars))⟩
    have hstarts : StartsText first.rest := Lexer.startsText_fieldName hk _
    have hread : ∀ m : Mark, m.column = i + 2 → (Lexer.clear ts i outer true ⟨first.rest, m⟩).Reaches
        (((writtenNode t.breaks (.object ((k, v) :: fields))).tokens .block).reverse ++ ts) i outer t :=
      fun _ => reaches_indentedFields ht hcolumn hk hv hkeys hfields
    refine ⟨fun hm => ?_, fun hm => ?_⟩
    · -- In a list, the first name stands on the line of the sign.
      have htext : Json.yamlLines (i + 2) (.object ((k, v) :: fields)) ++ t.chars = first.rest := by
        simp [first, Json.yamlLines, keyChars_of_isFieldName hk]
      rw [htext]
      exact (Lexer.leadsTo_spaces hstarts 1).reaches (hread _ (congrArg (· + 1) hm))
    · -- Below a key, it stands on a line of its own.
      have htext : Json.yamlValue i (.object ((k, v) :: fields)) ++ t.chars = '\n' :: first.chars := by
        simp [first, Json.yamlValue, Tail.chars, Tail.blanks, keyChars_of_isFieldName hk]
      have hlines : (Lexer.clear ts i outer false ⟨'\n' :: first.chars, m⟩).LeadsTo _ :=
        Lexer.leadsTo_lines hstarts fun _ h => by cases h
      rw [htext]
      exact hlines.reaches (hread _ (first.column_pass m))

/-- **Values.** Written values are read back, in a list and below a key. -/
theorem readsValue_of_textual {v : Json} (h : v.Textual) : ReadsValue v := by
  induction h with
  | bool b => exact readsValue_bool b
  | string s => exact readsValue_string s
  | array _ ih => exact readsValue_array ih
  | object hkeys _ ih => exact readsValue_object hkeys ih

end ComponentViews.Yaml
