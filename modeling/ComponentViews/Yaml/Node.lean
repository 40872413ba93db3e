import ComponentViews.Yaml.Token

/-!
# Nodes of YAML

A document is a node: a scalar, a list, a mapping, or a reference to a node that has a name.

The tokens of a document are read as nodes by their grammar. What is left out is an empty scalar.

## Main definitions

* `Node`: nodes, with references of any kind.
* `NodeReader.node?`: the node at the start of a list of tokens.
* `document?`: the node of a whole text, if the text has one document at most.
-/

namespace ComponentViews.Yaml

/-- What comes before a node: its name and its tag. -/
structure Properties (α : Type) where
  /-- The name. -/
  anchor : Option α := none
  /-- The tag. -/
  tag : Option Tag := none
  deriving Repr

/-- A node, where names are of a given kind. -/
inductive Node (α : Type) where
  /-- A reference. -/
  | alias (name : α)
  /-- A scalar. -/
  | scalar (properties : Properties α) (style : ScalarStyle) (text : List Char)
  /-- A list. -/
  | sequence (properties : Properties α) (items : List (Node α))
  /-- Keys with their values. -/
  | mapping (properties : Properties α) (entries : List (Node α × Node α))
  deriving Repr

/-- A node as written. -/
abbrev NamedNode := Node (List Char)

/-- The scalar in place of what is left out. -/
def Node.empty {α : Type} : Node α := .scalar {} .plain []

/-- Abbreviations for tags with what they stand for. -/
abbrev TagTable := List (List Char × Tag)

/-- The abbreviations that need no directive. -/
def TagTable.usual : TagTable :=
  [(['!'], .bare), (['!', '!'], .standardStart)]

/-- A tag in full. -/
def TagTable.resolve? (table : TagTable) (handle : List Char) (suffix : Tag) : Option Tag :=
  if handle.isEmpty then some suffix
  else (table.find? fun e => e.1 = handle).map fun e => e.2 ++ suffix

/-- The name and the tag that come first, each at most once, and the tokens after them. -/
def properties? (table : TagTable) :
    List Token → Option (Properties (List Char) × List Token)
  | .anchor name :: .tag handle suffix :: ts
  | .tag handle suffix :: .anchor name :: ts => do
    let tag ← table.resolve? handle suffix
    pure (⟨some name, some tag⟩, ts)
  | .anchor name :: ts => some (⟨some name, none⟩, ts)
  | .tag handle suffix :: ts => do
    let tag ← table.resolve? handle suffix
    pure (⟨none, some tag⟩, ts)
  | ts => some ({}, ts)

/-- Whether the tokens are those after an empty item of a list. -/
def endsItem : List Token → Bool
  | .blockEntry :: _ | .blockEnd :: _ => true
  | _ => false

/-- Whether the tokens are those after an empty key or value. -/
def endsPair : List Token → Bool
  | .key :: _ | .value :: _ | .blockEnd :: _ => true
  | _ => false

/-- Whether the tokens are those after an empty item between brackets. -/
def endsFlowItem : List Token → Bool
  | .flowEntry :: _ | .flowSequenceEnd :: _ => true
  | _ => false

/-- Whether the tokens are those after an empty key or value between braces. -/
def endsFlowPair : List Token → Bool
  | .flowEntry :: _ | .flowMappingEnd :: _ => true
  | _ => false

/-- Where a node stands. -/
inductive Place where
  /-- In a block, where a list may stand without more indentation. -/
  | value
  /-- In a block. -/
  | block
  /-- Between brackets. -/
  | flow
  deriving DecidableEq, Repr

namespace NodeReader

mutual

/-- The node that comes first, and the tokens after it. -/
def node? (table : TagTable) : Nat → Place → List Token → Option (NamedNode × List Token)
  | 0, _, _ => none
  | _ + 1, _, .alias name :: ts => some (.alias name, ts)
  | fuel + 1, place, ts => do
    let (p, ts) ← properties? table ts
    match ts with
    | .blockEntry :: _ =>
      -- Below a key, a list may stand at the indentation of the key.
      if place = .value then do
        let (items, ts) ← indentless? table fuel ts
        pure (.sequence p items, ts)
      else emptyNode? p ts
    | .scalar style text :: ts => pure (.scalar p style text, ts)
    | .flowSequenceStart :: ts => do
      let (items, ts) ← flowItems? table fuel true ts
      pure (.sequence p items, ts)
    | .flowMappingStart :: ts => do
      let (entries, ts) ← flowPairs? table fuel true ts
      pure (.mapping p entries, ts)
    -- Indentation means nothing between brackets.
    | .blockSequenceStart :: rest =>
      if place = .flow then emptyNode? p ts
      else do
        let (items, ts) ← blockItems? table fuel rest
        pure (.sequence p items, ts)
    | .blockMappingStart :: rest =>
      if place = .flow then emptyNode? p ts
      else do
        let (entries, ts) ← blockPairs? table fuel rest
        pure (.mapping p entries, ts)
    | ts => emptyNode? p ts

/-- An empty scalar, which has to have a name or a tag. -/
def emptyNode? (p : Properties (List Char)) (ts : List Token) : Option (NamedNode × List Token) :=
  if p.anchor.isSome || p.tag.isSome then some (.scalar p .plain [], ts) else none

/-- The items of a list that is indented. -/
def blockItems? (table : TagTable) : Nat → List Token → Option (List NamedNode × List Token)
  | 0, _ => none
  | fuel + 1, .blockEntry :: ts => do
    let (item, ts) ← if endsItem ts then some (.empty, ts) else node? table fuel .block ts
    let (items, ts) ← blockItems? table fuel ts
    pure (item :: items, ts)
  | _ + 1, .blockEnd :: ts => some ([], ts)
  | _ + 1, _ => none

/-- The items of a list without indentation of its own. -/
def indentless? (table : TagTable) : Nat → List Token → Option (List NamedNode × List Token)
  | 0, _ => none
  | fuel + 1, .blockEntry :: ts => do
    let (item, ts) ←
      if endsItem ts || endsPair ts then some (.empty, ts) else node? table fuel .block ts
    let (items, ts) ← indentless? table fuel ts
    pure (item :: items, ts)
  | _ + 1, ts => some ([], ts)

/-- The keys with their values of a mapping that is indented. -/
def blockPairs? (table : TagTable) :
    Nat → List Token → Option (List (NamedNode × NamedNode) × List Token)
  | 0, _ => none
  | fuel + 1, .key :: ts => do
    let (key, ts) ← if endsPair ts then some (.empty, ts) else node? table fuel .value ts
    let (value, ts) ← blockValue? table fuel ts
    let (entries, ts) ← blockPairs? table fuel ts
    pure ((key, value) :: entries, ts)
  | _ + 1, .blockEnd :: ts => some ([], ts)
  | _ + 1, _ => none

/-- The value for a key of a mapping that is indented. -/
def blockValue? (table : TagTable) : Nat → List Token → Option (NamedNode × List Token)
  | 0, _ => none
  | fuel + 1, .value :: ts => if endsPair ts then some (.empty, ts) else node? table fuel .value ts
  | _ + 1, ts => some (.empty, ts)

/-- The items of a list between brackets; the first has no comma before it. -/
def flowItems? (table : TagTable) :
    Nat → Bool → List Token → Option (List NamedNode × List Token)
  | 0, _, _ => none
  | _ + 1, _, .flowSequenceEnd :: ts => some ([], ts)
  | fuel + 1, first, ts => do
    let ts ← if first then some ts else flowComma? ts
    match ts with
    | .flowSequenceEnd :: ts => pure ([], ts)
    -- An item with a key is a mapping with this one entry.
    | .key :: ts => do
      let (entry, ts) ← flowEntry? table fuel ts
      let (items, ts) ← flowItems? table fuel false ts
      pure (.mapping {} [entry] :: items, ts)
    | ts => do
      let (item, ts) ← node? table fuel .flow ts
      let (items, ts) ← flowItems? table fuel false ts
      pure (item :: items, ts)

/-- The tokens after a comma. -/
def flowComma? : List Token → Option (List Token)
  | .flowEntry :: ts => some ts
  | _ => none

/-- A key with its value as an item of a list between brackets. Where the key is left out, the
token after it is passed over. -/
def flowEntry? (table : TagTable) :
    Nat → List Token → Option ((NamedNode × NamedNode) × List Token)
  | 0, _ => none
  | fuel + 1, ts => do
    let (key, ts) ←
      match ts with
      | .value :: rest => some (.empty, rest)
      | ts => if endsFlowItem ts then some (.empty, ts.tail) else node? table fuel .flow ts
    match ts with
    | .value :: ts => do
      let (value, ts) ← if endsFlowItem ts then some (.empty, ts) else node? table fuel .flow ts
      pure ((key, value), ts)
    | ts => pure ((key, .empty), ts)

/-- The keys with their values between braces; the first has no comma before it. -/
def flowPairs? (table : TagTable) :
    Nat → Bool → List Token → Option (List (NamedNode × NamedNode) × List Token)
  | 0, _, _ => none
  | _ + 1, _, .flowMappingEnd :: ts => some ([], ts)
  | fuel + 1, first, ts => do
    let ts ← if first then some ts else flowComma? ts
    match ts with
    | .flowMappingEnd :: ts => pure ([], ts)
    | .key :: ts => do
      let (key, ts) ←
        match ts with
        | .value :: _ => some (.empty, ts)
        | ts => if endsFlowPair ts then some (.empty, ts) else node? table fuel .flow ts
      let (value, ts) ← flowValue? table fuel ts
      let (entries, ts) ← flowPairs? table fuel false ts
      pure ((key, value) :: entries, ts)
    | ts => do
      let (key, ts) ← node? table fuel .flow ts
      let (entries, ts) ← flowPairs? table fuel false ts
      pure ((key, .empty) :: entries, ts)

/-- The value for a key between braces. -/
def flowValue? (table : TagTable) : Nat → List Token → Option (NamedNode × List Token)
  | 0, _ => none
  | fuel + 1, .value :: ts =>
    if endsFlowPair ts then some (.empty, ts) else node? table fuel .flow ts
  | _ + 1, ts => some (.empty, ts)

end

end NodeReader

/-! ## Documents -/

/-- What the directives at the start of a document say, and the tokens after them. A version or an
abbreviation that is repeated is a mistake, and so is a version that is not known. -/
def directives? : Bool → TagTable → List Token → Option (TagTable × List Token)
  | versioned, table, .version major minor :: ts =>
    if versioned || major ≠ 1 || (minor ≠ 1 && minor ≠ 2) then none
    else directives? true table ts
  | versioned, table, .tagDirective handle expansion :: ts =>
    if table.any fun e => e.1 = handle then none
    else directives? versioned (table ++ [(handle, expansion)]) ts
  | _, table, ts => some (table, ts)

/-- Whether a document without content ends here. -/
def endsDocument : List Token → Bool
  | [] | .version _ _ :: _ | .tagDirective _ _ :: _ => true
  | .documentStart :: _ | .documentEnd :: _ => true
  | _ => false

/-- The content of a document, with the abbreviations that it declares. A node takes a token at
least, so there are not more levels than tokens. -/
def content? (table : TagTable) (ts : List Token) : Option (NamedNode × List Token) :=
  NodeReader.node? (table ++ TagTable.usual) (3 * ts.length + 3) .block ts

/-- The first document, and the tokens after it. -/
def firstDocument? (ts : List Token) : Option (NamedNode × List Token) := do
  match ts with
  | .version _ _ :: _ | .tagDirective _ _ :: _ | .documentStart :: _ =>
    match ← directives? false [] ts with
    | (table, .documentStart :: ts) =>
      if endsDocument ts then pure (.empty, ts) else content? table ts
    | _ => none
  | ts => content? [] ts

/-- The document of a text, which has one at most. After it only signs for its end may follow.
Without a document, the text is an empty scalar. -/
def document? (ts : List Token) : Option NamedNode :=
  if ts.isEmpty then some .empty
  else do
    let (node, rest) ← firstDocument? ts
    if rest.all (· == .documentEnd) then pure node else none

end ComponentViews.Yaml
