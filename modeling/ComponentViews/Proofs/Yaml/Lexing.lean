import ComponentViews.Proofs.Yaml.Lines

/-!
# Tokens that follow

Whether the tokens of a text are found depends on the place where the next is looked for, and on
nothing that was passed before. So the tokens from one place are those from another, later one, and a
text is read by a chain of such places. The fuel never runs out on the way: it is more than what is
left of the text, of which each token takes a character at least.

Blanks, keys that are given up and levels that end are settled before the next token, so places that
settle alike are not told apart.

## Main definitions

* `Lexer.settle?`: what is done before the next token.
* `Lexer.LeadsTo`: the tokens from one place are those from another.
* `Lexer.clear`: a place outside of brackets where nothing waits for its colon.

## Main results

* `Lexer.LeadsTo.of_settle`, `Lexer.LeadsTo.of_token`: places that settle alike, and one token.
* `Lexer.leadsTo_close`: a list or mapping ends before what is further left.
* `Lexer.all?_clear_nil`: at the end of the text all tokens have been found.
-/

namespace ComponentViews.Yaml

namespace Lexer

/-! ## Places and tokens -/

/-- Pass white space, give up keys whose colon would come too late, and end what is further right than
the next token. -/
def settle? (l : Lexer) : Option Lexer :=
  l.skipBlank.dropStale?.map fun l => l.dedentTo l.cursor.column

/-- The next token is found where a place has been settled. -/
theorem next?_eq (fuel : Nat) (l : Lexer) :
    l.next? fuel = l.settle?.bind fun l =>
      match l.cursor.rest with
      | [] => l.endDocument?.map (·, true)
      | x :: cs => (l.token? fuel x cs).map (·, false) := by
  rw [next?, settle?, Option.bind_map]
  cases l.skipBlank.dropStale? with
  | none => rfl
  | some l =>
    simp only [Option.bind_eq_bind, Option.bind_some, Function.comp_apply]
    cases (l.dedentTo l.cursor.column).cursor.rest with
    | nil => exact (Option.map_eq_bind ..).symm
    | cons x cs => exact (Option.map_eq_bind ..).symm

/-- The tokens from a place are those from another, where the fuel still suffices. -/
def LeadsTo (l m : Lexer) : Prop :=
  ∀ fuel, l.cursor.rest.length < fuel →
    ∃ fuel', m.cursor.rest.length < fuel' ∧ all? fuel l = all? fuel' m

namespace LeadsTo

variable {l m n : Lexer}

theorem trans (h : LeadsTo l m) (h' : LeadsTo m n) : LeadsTo l n := by
  intro fuel hfuel
  obtain ⟨fuel', hfuel', he⟩ := h fuel hfuel
  obtain ⟨fuel'', hfuel'', he'⟩ := h' fuel' hfuel'
  exact ⟨fuel'', hfuel'', he.trans he'⟩

/-- Places that settle alike have the same tokens. -/
theorem of_settle (h : l.settle? = m.settle?)
    (hle : m.cursor.rest.length ≤ l.cursor.rest.length) : LeadsTo l m := by
  intro fuel hfuel
  -- No token is found on the way, so the fuel stays.
  refine ⟨fuel, Nat.lt_of_le_of_lt hle hfuel, ?_⟩
  cases fuel with
  | zero => cases hfuel
  | succ fuel => rw [all?, all?, next?_eq, next?_eq, h]

/-- A token is found, and it takes some of the text. -/
theorem of_token {x : Char} {cs : List Char} (hl : l.settle? = some m) (hrest : m.cursor.rest = x :: cs)
    (hle : m.cursor.rest.length ≤ l.cursor.rest.length)
    (htoken : ∀ fuel, m.cursor.rest.length < fuel → m.token? fuel x cs = some n)
    (hlt : n.cursor.rest.length < m.cursor.rest.length) : LeadsTo l n := by
  intro fuel hfuel
  cases fuel with
  | zero => cases hfuel
  | succ fuel =>
    -- The token costs one unit of fuel and takes one character at least.
    refine ⟨fuel, by omega, ?_⟩
    have hnext : l.next? (fuel + 1) = some (n, false) := by
      rw [next?_eq, hl, Option.bind_some, hrest]
      dsimp only
      rw [htoken (fuel + 1) (by omega)]
      rfl
    rw [all?, hnext]
    rfl

end LeadsTo

/-! ## Clear places -/

/-- A place outside of brackets where nothing waits for its colon. -/
def clear (ts : List Token) (indent : Int) (outer : List Int) (keyAllowed : Bool) (c : Cursor) :
    Lexer :=
  { cursor := c, tokens := ts, count := ts.length, indent, outer, keyAllowed }

variable {ts : List Token} {i o : Int} {outer : List Int} {b : Bool} {c : Cursor} {m : Mark}
  {cs : List Char}

theorem dedentTo_clear_of_le {column : Int} (h : i ≤ column) :
    (clear ts i outer b c).dedentTo column = clear ts i outer b c := by
  cases outer with
  | nil => rfl
  | cons o outer => exact if_neg (Int.not_lt.2 h)

/-- A level that is further right ends. -/
theorem dedentTo_clear_of_lt {column : Int} (h : column < i) :
    (clear ts i (o :: outer) b c).dedentTo column =
      (clear (.blockEnd :: ts) o outer b c).dedentTo column :=
  if_pos h

/-- Nothing is given up as long as each colon may still come. -/
theorem dropStale?_of_fresh {l : Lexer}
    (h : ∀ key ∈ l.key :: l.outerKeys, ∀ k ∈ key, isStale l.cursor.mark k = false) :
    l.dropStale? = some l := by
  have hrequired : ((l.key :: l.outerKeys).any fun key =>
      key.any fun k => isStale l.cursor.mark k && k.required) = false := by
    refine List.any_eq_false.2 fun key hkey => ?_
    cases key with
    | none => exact Bool.false_ne_true
    | some k => simp [h (some k) hkey k rfl]
  have hfresh : ∀ key ∈ l.key :: l.outerKeys,
      (key.filter fun k => !isStale l.cursor.mark k) = key := by
    intro key hkey
    cases key with
    | none => rfl
    | some k => simp [Option.filter, h (some k) hkey k rfl]
  obtain ⟨hkey, houter⟩ := List.forall_mem_cons.1 hfresh
  rw [dropStale?, hrequired, if_neg Bool.false_ne_true]
  dsimp only
  rw [hkey, List.map_congr_left houter, List.map_id']

/-- What waits for its colon is given up on a later line, unless it has to be a key. -/
theorem dropStale?_of_passed {key : Option PossibleKey}
    (h : ∀ k ∈ key, k.required = false ∧ k.mark.line < c.mark.line) :
    ({ clear ts i outer b c with key } : Lexer).dropStale? = some (clear ts i outer b c) := by
  cases key with
  | none => rfl
  | some k =>
    obtain ⟨hrequired, hline⟩ := h k rfl
    simp [dropStale?, clear, isStale, hrequired, hline]

/-- Spaces within a line are passed. -/
theorem settle?_clear (h : StartsText cs) (n : Nat) :
    (clear ts i outer b ⟨spaces n ++ cs, m⟩).settle? =
      some ((clear ts i outer b ⟨cs, m.pass (spaces n)⟩).dedentTo (m.pass (spaces n)).column) := by
  have hblank : (clear ts i outer b ⟨spaces n ++ cs, m⟩).skipBlank =
      clear ts i outer b ⟨cs, m.pass (spaces n)⟩ := by
    simp only [skipBlank, clear, inFlow, List.isEmpty_nil, Bool.not_true, blankEnd_within h]
  rw [settle?, hblank]
  rfl

/-- Blanks at the start of a text do not matter. -/
theorem leadsTo_spaces (h : StartsText cs) (n : Nat) :
    LeadsTo (clear ts i outer b ⟨spaces n ++ cs, m⟩)
      (clear ts i outer b ⟨cs, m.pass (spaces n)⟩) := by
  have hsettle : (clear ts i outer b ⟨cs, m.pass (spaces n)⟩).settle? = _ := settle?_clear h 0
  refine .of_settle ((settle?_clear h n).trans hsettle.symm) ?_
  simp [clear]

/-- A token is found at the start of a text. -/
theorem leadsTo_token {x : Char} {n : Lexer} (h : StartsText (x :: cs)) (hm : i ≤ m.column)
    (htoken : ∀ fuel, (x :: cs).length < fuel →
      (clear ts i outer b ⟨x :: cs, m⟩).token? fuel x cs = some n)
    (hlt : n.cursor.rest.length < (x :: cs).length) :
    LeadsTo (clear ts i outer b ⟨x :: cs, m⟩) n := by
  have hsettle : (clear ts i outer b ⟨x :: cs, m⟩).settle? = some (clear ts i outer b ⟨x :: cs, m⟩) :=
    (settle?_clear h 0).trans (congrArg some (dedentTo_clear_of_le hm))
  exact .of_token hsettle rfl (Nat.le_refl _) htoken hlt

/-- What may be a key and need not be one is given up on a later line. -/
theorem leadsTo_passed (h : StartsText cs) {key : Option PossibleKey}
    (hkey : ∀ k ∈ key, k.required = false ∧ k.mark.line < m.line) :
    LeadsTo { clear ts i outer b ⟨cs, m⟩ with key } (clear ts i outer b ⟨cs, m⟩) := by
  have hblank : ({ clear ts i outer b ⟨cs, m⟩ with key } : Lexer).skipBlank =
      { clear ts i outer b ⟨cs, m⟩ with key } := by
    simp only [skipBlank, clear, inFlow, List.isEmpty_nil, Bool.not_true, blankEnd_of_startsText h]
  refine .of_settle ?_ (Nat.le_refl _)
  rw [settle?, hblank, dropStale?_of_passed hkey]
  exact (settle?_clear h 0).symm

/-- After the lines of a value, what follows is reached at its column. -/
theorem leadsTo_lines {t : Tail} (h : StartsText t.rest) {key : Option PossibleKey}
    (hkey : ∀ k ∈ key, k.required = false ∧ k.mark.line ≤ m.line) :
    LeadsTo { clear ts i outer b ⟨'\n' :: t.chars, m⟩ with key }
      (clear ts i outer true ⟨t.rest, m.pass ('\n' :: t.blanks)⟩) := by
  have hblank : ({ clear ts i outer b ⟨'\n' :: t.chars, m⟩ with key } : Lexer).skipBlank =
      { clear ts i outer true ⟨t.rest, m.pass ('\n' :: t.blanks)⟩ with key } := by
    simp only [skipBlank, clear, inFlow, List.isEmpty_nil, Bool.not_true, t.blankEnd_chars h]
  have hpassed : dropStale?
      { clear ts i outer true ⟨t.rest, m.pass ('\n' :: t.blanks)⟩ with key } = some _ :=
    dropStale?_of_passed fun k hk =>
      ⟨(hkey k hk).1, Nat.lt_of_le_of_lt (hkey k hk).2 (t.line_lt_pass m)⟩
  refine .of_settle ?_ ?_
  · rw [settle?, hblank, hpassed]
    exact (settle?_clear h 0).symm
  · simp [clear, Tail.chars]
    omega

/-- A list or mapping ends before what is further left. -/
theorem leadsTo_close (h : StartsText c.rest) (hc : (c.column : Int) < i) :
    LeadsTo (clear ts i (o :: outer) b c) (clear (.blockEnd :: ts) o outer b c) := by
  have hl : (clear ts i (o :: outer) b c).settle? = _ := settle?_clear h 0
  have hm : (clear (.blockEnd :: ts) o outer b c).settle? = _ := settle?_clear h 0
  refine .of_settle (hl.trans ?_) (Nat.le_refl _)
  exact (congrArg some (dedentTo_clear_of_lt hc)).trans hm.symm

/-- At the end of the text the outermost level ends, and all tokens have been found. -/
theorem all?_clear_nil {fuel : Nat} (hfuel : 0 < fuel) :
    all? fuel (clear ts 0 [-1] b ⟨[], m⟩) = some (.blockEnd :: ts) := by
  have hsettle : (clear ts 0 [-1] b ⟨[], m⟩).settle? = some (clear ts 0 [-1] b ⟨[], m⟩) := by
    have h : (clear ts 0 [-1] b ⟨[], m⟩).settle? = _ := settle?_clear startsText_nil 0
    refine h.trans (congrArg some (dedentTo_clear_of_le ?_))
    exact Int.natCast_nonneg _
  cases fuel with
  | zero => cases hfuel
  | succ fuel =>
    rw [all?, next?_eq, hsettle]
    rfl

end Lexer

end ComponentViews.Yaml
