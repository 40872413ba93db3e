import ComponentViews.Yaml.Block
import ComponentViews.Yaml.Directive
import ComponentViews.Yaml.Plain
import ComponentViews.Yaml.Quoted

/-!
# Tokens of a text

The tokens are found from left to right. A change of indentation starts and ends lists and
mappings. Whether something is a key is seen only at the colon after it; then the token for a key,
and with it perhaps the start of a mapping, is put in before it. The colon must follow on the same
line within 1024 bytes.

## Main definitions

* `PossibleKey`: the start of something that may turn out to be a key.
* `Lexer`: the tokens so far and what decides about the next.
* `Lexer.next?`: find the next token.
* `tokens?`: the tokens of a text.
-/

namespace ComponentViews.Yaml

/-- The start of something that may turn out to be a key. -/
structure PossibleKey where
  /-- Whether it must be a key, because of its indentation. -/
  required : Bool
  /-- The number of tokens before it. -/
  position : Nat
  /-- The place. -/
  mark : Mark
  deriving Repr

/-- The tokens found so far, and what decides about the next. -/
structure Lexer where
  /-- The place up to which tokens have been found. -/
  cursor : Cursor
  /-- The tokens so far, last first. -/
  tokens : List Token := []
  /-- How many tokens there are so far. -/
  count : Nat := 0
  /-- The column of the list or mapping, negative outside of all. -/
  indent : Int := -1
  /-- The columns of those around it, innermost first. -/
  outer : List Int := []
  /-- Whether a key may start here. -/
  keyAllowed : Bool := true
  /-- What may turn out to be a key, within the innermost brackets. -/
  key : Option PossibleKey := none
  /-- What may turn out to be a key within the brackets around, innermost first. -/
  outerKeys : List (Option PossibleKey) := []
  deriving Repr

namespace Lexer

/-- Whether this is between brackets. -/
def inFlow (l : Lexer) : Bool := !l.outerKeys.isEmpty

/-- Add a token. -/
def emit (l : Lexer) (t : Token) : Lexer :=
  { l with tokens := t :: l.tokens, count := l.count + 1 }

/-- Add a token before the last ones, so that the given number of tokens come before it. -/
def insert (l : Lexer) (position : Nat) (t : Token) : Lexer :=
  let after := l.count - position
  { l with tokens := l.tokens.take after ++ t :: l.tokens.drop after, count := l.count + 1 }

/-- Add a token and go on at a place. -/
def emitAt (l : Lexer) (t : Token) (c : Cursor) : Lexer := { l.emit t with cursor := c }

/-! ## Keys -/

/-- Give up the possible key within the innermost brackets. -/
def dropKey? (l : Lexer) : Option Lexer :=
  if l.key.any (·.required) then none else some { l with key := none }

/-- Something that may turn out to be a key starts here. -/
def startKey? (l : Lexer) : Option Lexer :=
  if l.keyAllowed then do
    let required := !l.inFlow && l.indent = l.cursor.column
    let l ← l.dropKey?
    pure { l with key := some ⟨required, l.count, l.cursor.mark⟩ }
  else some l

/-- Whether the colon for a possible key would come too late here. -/
def isStale (m : Mark) (k : PossibleKey) : Bool :=
  k.mark.line < m.line || k.mark.index + 1024 < m.index

/-- Give up the possible keys whose colon would come too late. -/
def dropStale? (l : Lexer) : Option Lexer :=
  let stale := isStale l.cursor.mark
  if (l.key :: l.outerKeys).any fun k => k.any fun k => stale k && k.required then none
  else
    let fresh (k : Option PossibleKey) : Option PossibleKey := k.filter fun k => !stale k
    some { l with key := fresh l.key, outerKeys := l.outerKeys.map fresh }

/-! ## Indentation -/

/-- Start a list or mapping at a column that is further right, with its token at a position. -/
def indentTo (l : Lexer) (column position : Nat) (t : Token) : Lexer :=
  if !l.inFlow && l.indent < column then
    { l.insert position t with indent := column, outer := l.indent :: l.outer }
  else l

/-- End lists and mappings that are further right than a column, given those around. -/
def dedent (column : Int) (l : Lexer) : List Int → Lexer
  | [] => l
  | i :: outer =>
    if column < l.indent then dedent column { l.emit .blockEnd with indent := i, outer } outer
    else l

/-- End lists and mappings that are further right than a column. -/
def dedentTo (l : Lexer) (column : Int) : Lexer :=
  if l.inFlow then l else l.dedent column l.outer

/-! ## Tokens -/

/-- The place after white space, comments and line breaks, and whether a key may start there: after
a line break it may. Tabs count as white space only where no key may start, and a byte order mark
does so at the start of a line. -/
def blankEnd (inFlow : Bool) :
    (inComment keyAllowed : Bool) → Mark → List Char → Cursor × Bool
  | _, keyAllowed, m, '\r' :: '\n' :: cs =>
    blankEnd inFlow false (keyAllowed || !inFlow) (m.newline ['\r', '\n']) cs
  | inComment, keyAllowed, m, x :: cs =>
    if isBreak x then blankEnd inFlow false (keyAllowed || !inFlow) (m.newline [x]) cs
    -- Outside of brackets a tab is no white space where a key may start.
    else if inComment || x = ' ' || (x = '\t' && (inFlow || !keyAllowed)) ||
        (x = '\ufeff' && m.column = 0) then
      blankEnd inFlow inComment keyAllowed (m.advance [x]) cs
    else if x = '#' then blankEnd inFlow true keyAllowed (m.advance [x]) cs
    else (⟨x :: cs, m⟩, keyAllowed)
  | _, keyAllowed, m, [] => (⟨[], m⟩, keyAllowed)

/-- Pass white space, comments and line breaks. -/
def skipBlank (l : Lexer) : Lexer :=
  let (cursor, keyAllowed) := blankEnd l.inFlow false l.keyAllowed l.cursor.mark l.cursor.rest
  { l with cursor, keyAllowed }

/-- The tokens for the signs of a document and of directives end all indentation. -/
def endDocument? (l : Lexer) : Option Lexer := do
  let l ← (l.dedentTo (-1)).dropKey?
  pure { l with keyAllowed := false }

/-- An opening bracket. -/
def openFlow? (l : Lexer) (t : Token) : Option Lexer := do
  let l ← l.startKey?
  pure { l.emitAt t (l.cursor.skip 1) with
    key := none, outerKeys := l.key :: l.outerKeys, keyAllowed := true }

/-- A closing bracket. -/
def closeFlow? (l : Lexer) (t : Token) : Option Lexer := do
  let l ← l.dropKey?
  let l := match l.outerKeys with
    | k :: outerKeys => { l with key := k, outerKeys }
    | [] => l
  pure { l.emitAt t (l.cursor.skip 1) with keyAllowed := false }

/-- A comma between brackets. -/
def flowEntry? (l : Lexer) : Option Lexer := do
  let l ← l.dropKey?
  pure { l.emitAt .flowEntry (l.cursor.skip 1) with keyAllowed := true }

/-- Start a list or mapping here, if its sign may stand here. -/
def indentHere? (l : Lexer) (t : Token) : Option Lexer :=
  if l.inFlow then some l
  else if l.keyAllowed then some (l.indentTo l.cursor.column l.count t)
  else none

/-- The sign before an item. -/
def blockEntry? (l : Lexer) : Option Lexer := do
  let l ← l.indentHere? .blockSequenceStart
  let l ← l.dropKey?
  pure { l.emitAt .blockEntry (l.cursor.skip 1) with keyAllowed := true }

/-- The sign before a key. -/
def explicitKey? (l : Lexer) : Option Lexer := do
  let l ← l.indentHere? .blockMappingStart
  let l ← l.dropKey?
  pure { l.emitAt .key (l.cursor.skip 1) with keyAllowed := !l.inFlow }

/-- The sign before a value. If something before it may be a key, it is one. -/
def value? (l : Lexer) : Option Lexer := do
  let l ← match l.key with
    | some k =>
      -- What came before the colon turns out to be a key: its token, and perhaps the start of its
      -- mapping, come before that.
      let l := (l.insert k.position .key).indentTo k.mark.column k.position .blockMappingStart
      pure { l with key := none, keyAllowed := false }
    | none => do
      -- The key is left out, or it was announced by its own sign.
      let l ← l.indentHere? .blockMappingStart
      pure { l with keyAllowed := !l.inFlow }
  pure (l.emitAt .value (l.cursor.skip 1))

/-- A token that may be a key, or the start of one. -/
def content? (l : Lexer) (scan : Cursor → Option (Token × Cursor)) : Option Lexer := do
  let l ← l.startKey?
  let (t, c) ← scan l.cursor
  pure { l.emitAt t c with keyAllowed := false }

/-- A plain scalar. If it ends after a line break, a key may start after it. -/
def plain? (fuel : Nat) (l : Lexer) : Option Lexer := do
  let l ← l.startKey?
  let (text, broken, c) ← plainScalar? fuel l.inFlow (l.indent + 1) l.cursor
  pure { l.emitAt (.scalar .plain text) c with keyAllowed := broken }

/-- A block scalar. -/
def block? (fuel : Nat) (l : Lexer) (literal : Bool) : Option Lexer := do
  let l ← l.dropKey?
  let (text, c) ← blockScalar? fuel literal l.indent (l.cursor.skip 1)
  let style := if literal then ScalarStyle.literal else .other
  pure { l.emitAt (.scalar style text) c with keyAllowed := true }

/-- Whether a plain scalar may start with a character, given what follows it. -/
def startsPlain (inFlow : Bool) (c : Char) (cs : List Char) : Bool :=
  !(isGap c || isBreak c ||
      ['-', '?', ':', ',', '[', ']', '\x7b', '\x7d', '#', '&', '*', '!', '|', '>', '\'', '"', '%',
        '@', '\x60'].contains c) ||
    (c = '-' && !startsWithAny [' ', '\t'] cs) ||
    (!inFlow && (c = '?' || c = ':') && !startsGap cs)

/-- Find the token that starts here. A scalar has fewer parts than the fuel. -/
def token? (fuel : Nat) (l : Lexer) (x : Char) (cs : List Char) : Option Lexer :=
  let c := l.cursor
  -- Signs at the start of a line.
  if c.column = 0 && x = '%' then do
    let l ← l.endDocument?
    let (t, c) ← directive? (c.skip 1)
    pure (l.emitAt t c)
  else if c.atDocumentMarker then do
    let l ← l.endDocument?
    pure (l.emitAt (if x = '-' then .documentStart else .documentEnd) (c.skip 3))
  -- Brackets and what stands between them.
  else if x = '[' then l.openFlow? .flowSequenceStart
  else if x = '\x7b' then l.openFlow? .flowMappingStart
  else if x = ']' then l.closeFlow? .flowSequenceEnd
  else if x = '\x7d' then l.closeFlow? .flowMappingEnd
  else if x = ',' then l.flowEntry?
  -- Signs of structure, which need white space after them outside of brackets.
  else if x = '-' && startsGap cs then l.blockEntry?
  else if x = '?' && (l.inFlow || startsGap cs) then l.explicitKey?
  else if x = ':' && (l.inFlow || startsGap cs) then l.value?
  -- References, names and tags.
  else if x = '*' then
    l.content? fun c => (nodeName? (c.skip 1)).map fun (name, c) => (.alias name, c)
  else if x = '&' then
    l.content? fun c => (nodeName? (c.skip 1)).map fun (name, c) => (.anchor name, c)
  else if x = '!' then
    l.content? fun c =>
      (tagProperty? l.inFlow c).map fun (handle, suffix, c) => (.tag handle suffix, c)
  -- Scalars.
  else if x = '|' && !l.inFlow then l.block? fuel true
  else if x = '>' && !l.inFlow then l.block? fuel false
  else if x = '\'' || x = '"' then
    l.content? fun c =>
      (quotedScalar? fuel (x = '"') (c.skip 1)).map fun (text, c) => (.scalar .other text, c)
  else if startsPlain l.inFlow x cs then l.plain? fuel
  else none

/-- Find the next token. Without one, the end of the text ends all indentation. -/
def next? (fuel : Nat) (l : Lexer) : Option (Lexer × Bool) := do
  let l := l.skipBlank
  let l ← l.dropStale?
  -- A token further left than the list or mapping ends it.
  let l := l.dedentTo l.cursor.column
  match l.cursor.rest with
  | [] => do
    let l ← l.endDocument?
    pure (l, true)
  | x :: cs => do
    let l ← l.token? fuel x cs
    pure (l, false)

/-- Find all tokens, last first. -/
def all? : Nat → Lexer → Option (List Token)
  | 0, _ => none
  | fuel + 1, l => do
    let (l, done) ← l.next? (fuel + 1)
    if done then pure l.tokens else all? fuel l

end Lexer

/-- The tokens of a text. Each takes a character of the text at least. -/
def tokens? (s : List Char) : Option (List Token) :=
  if s.all isReadable then
    (Lexer.all? (s.length + 1) { cursor := ⟨s, {}⟩ }).map List.reverse
  else none

end ComponentViews.Yaml
