import ComponentViews.Proofs.Yaml.Documents
import ComponentViews.Proofs.Yaml.Scalars

/-!
# Nodes are read back from their tokens

The tokens of a node in a block are those of its parts between the signs for its kind. They are read
as the node, whatever follows, and there is fuel enough. A node without names is linked as it is.

The node that is written for a value differs from the value only where empty lines follow the text: a
block at its end may take them for its own.

## Main definitions

* `Node.tokens`: the tokens of a node.
* `Node.Bare`: nodes without names, tags and references.
* `writtenNode`: the node that is written for a value, with empty lines after it.

## Main results

* `Node.Bare.reads`: nodes are read back from their tokens.
* `document?_tokens`: a node is read from all the tokens of its text.
* `link?_writtenNode`: written nodes are linked as they are.
-/

namespace ComponentViews.Yaml

/-! ## Tokens -/

mutual

/-- The tokens of a node in a block. A list in the place of a value is not indented. -/
def Node.tokens (place : Place) : NamedNode → List Token
  | .alias name => [.alias name]
  | .scalar _ style text => [.scalar style text]
  | .sequence _ items =>
    if items.isEmpty then [.flowSequenceStart, .flowSequenceEnd]
    else if place = .value then itemTokens items
    else .blockSequenceStart :: (itemTokens items ++ [.blockEnd])
  | .mapping _ entries =>
    if entries.isEmpty then [.flowMappingStart, .flowMappingEnd]
    else .blockMappingStart :: (entryTokens entries ++ [.blockEnd])

/-- The tokens of the items of a list. -/
def itemTokens : List NamedNode → List Token
  | [] => []
  | x :: xs => .blockEntry :: (x.tokens .block ++ itemTokens xs)

/-- The tokens of keys with their values. -/
def entryTokens : List (NamedNode × NamedNode) → List Token
  | [] => []
  | (k, v) :: entries =>
    .key :: (k.tokens .value ++ .value :: (v.tokens .value ++ entryTokens entries))

end

/-- A node has no name and no tag, and there are no references in it. -/
inductive Node.Bare {α : Type} : Node α → Prop
  | scalar (style : ScalarStyle) (text : List Char) : Bare (.scalar {} style text)
  | sequence {items : List (Node α)} (h : ∀ x ∈ items, Bare x) : Bare (.sequence {} items)
  | mapping {entries : List (Node α × Node α)} (hkeys : ∀ e ∈ entries, Bare e.1)
    (h : ∀ e ∈ entries, Bare e.2) : Bare (.mapping {} entries)

namespace Node.Bare

/-- The tokens of a node do not begin like those after an empty one. -/
theorem exists_tokens_block {n : NamedNode} (h : n.Bare) :
    ∃ t ts, n.tokens .block = t :: ts ∧ ∀ more, endsItem (t :: more) = false ∧
      endsPair (t :: more) = false := by
  cases h with
  | scalar style text => exact ⟨_, _, rfl, fun _ => ⟨rfl, rfl⟩⟩
  | @sequence items _ =>
    cases items with
    | nil => exact ⟨_, _, rfl, fun _ => ⟨rfl, rfl⟩⟩
    | cons x xs => exact ⟨_, _, rfl, fun _ => ⟨rfl, rfl⟩⟩
  | @mapping entries _ _ =>
    cases entries with
    | nil => exact ⟨_, _, rfl, fun _ => ⟨rfl, rfl⟩⟩
    | cons e entries => exact ⟨_, _, rfl, fun _ => ⟨rfl, rfl⟩⟩

theorem exists_tokens_value {n : NamedNode} (h : n.Bare) :
    ∃ t ts, n.tokens .value = t :: ts ∧ ∀ more, endsPair (t :: more) = false := by
  cases h with
  | scalar style text => exact ⟨_, _, rfl, fun _ => rfl⟩
  | @sequence items _ =>
    cases items with
    | nil => exact ⟨_, _, rfl, fun _ => rfl⟩
    | cons x xs => exact ⟨_, _, rfl, fun _ => rfl⟩
  | @mapping entries _ _ =>
    cases entries with
    | nil => exact ⟨_, _, rfl, fun _ => rfl⟩
    | cons e entries => exact ⟨_, _, rfl, fun _ => rfl⟩

end Node.Bare

/-! ## Reading nodes -/

/-- No further item follows. -/
def EndsItems (ts : List Token) : Prop := ts.head? ≠ some .blockEntry

namespace NodeReader

/-- A node is read back in a block, whatever follows; in the place of a value, no further item may
follow. -/
def Reads (n : NamedNode) : Prop :=
  ∀ place ≠ Place.flow, ∀ fuel rest, 2 * (n.tokens place).length + 2 ≤ fuel →
    (place = .value → EndsItems rest) →
    ∀ table, node? table fuel place (n.tokens place ++ rest) = some (n, rest)

theorem blockItems?_itemTokens {items : List NamedNode} (hbare : ∀ x ∈ items, x.Bare)
    (h : ∀ x ∈ items, Reads x) {fuel : Nat} (hfuel : 2 * (itemTokens items).length + 1 ≤ fuel)
    (rest : List Token) (table : TagTable) :
    blockItems? table fuel (itemTokens items ++ .blockEnd :: rest) = some (items, rest) := by
  induction items generalizing fuel with
  | nil =>
    obtain ⟨fuel, rfl⟩ := Nat.exists_eq_succ_of_ne_zero (Nat.ne_of_gt hfuel)
    rfl
  | cons x xs ih =>
    obtain ⟨fuel, rfl⟩ := Nat.exists_eq_succ_of_ne_zero (show fuel ≠ 0 by omega)
    obtain ⟨hx, hxs⟩ := List.forall_mem_cons.1 h
    obtain ⟨hbarex, hbarexs⟩ := List.forall_mem_cons.1 hbare
    simp only [itemTokens, List.length_cons, List.length_append] at hfuel
    obtain ⟨t, ts, ht, hends⟩ := hbarex.exists_tokens_block
    have hread := hx .block (by decide) fuel (itemTokens xs ++ .blockEnd :: rest) (by omega)
      nofun table
    have hstart : endsItem (x.tokens .block ++ (itemTokens xs ++ .blockEnd :: rest)) = false := by
      rw [ht]
      exact (hends _).1
    rw [itemTokens, List.cons_append, List.append_assoc, blockItems?, hstart]
    simp only [Bool.false_eq_true, if_false, hread, Option.bind_eq_bind, Option.bind_some]
    rw [ih hbarexs hxs (by omega)]
    rfl

theorem indentless?_itemTokens {items : List NamedNode} (hbare : ∀ x ∈ items, x.Bare)
    (h : ∀ x ∈ items, Reads x) {fuel : Nat} (hfuel : 2 * (itemTokens items).length + 1 ≤ fuel)
    {rest : List Token} (hrest : EndsItems rest) (table : TagTable) :
    indentless? table fuel (itemTokens items ++ rest) = some (items, rest) := by
  induction items generalizing fuel with
  | nil =>
    obtain ⟨fuel, rfl⟩ := Nat.exists_eq_succ_of_ne_zero (Nat.ne_of_gt hfuel)
    rw [itemTokens, List.nil_append, indentless?]
    rintro ts rfl
    exact hrest rfl
  | cons x xs ih =>
    obtain ⟨fuel, rfl⟩ := Nat.exists_eq_succ_of_ne_zero (show fuel ≠ 0 by omega)
    obtain ⟨hx, hxs⟩ := List.forall_mem_cons.1 h
    obtain ⟨hbarex, hbarexs⟩ := List.forall_mem_cons.1 hbare
    simp only [itemTokens, List.length_cons, List.length_append] at hfuel
    obtain ⟨t, ts, ht, hends⟩ := hbarex.exists_tokens_block
    have hread := hx .block (by decide) fuel (itemTokens xs ++ rest) (by omega) nofun table
    -- The item is not taken for an empty one, since it has a token of its own.
    have hstart : (endsItem (x.tokens .block ++ (itemTokens xs ++ rest)) ||
        endsPair (x.tokens .block ++ (itemTokens xs ++ rest))) = false := by
      rw [ht, List.cons_append, (hends _).1, (hends _).2]
      rfl
    rw [itemTokens, List.cons_append, List.append_assoc, indentless?, hstart]
    simp only [Bool.false_eq_true, if_false, hread, Option.bind_eq_bind, Option.bind_some]
    rw [ih hbarexs hxs (by omega)]
    rfl

theorem endsItems_entryTokens (entries : List (NamedNode × NamedNode)) (rest : List Token) :
    EndsItems (entryTokens entries ++ .blockEnd :: rest) := by
  cases entries <;> simp [EndsItems, entryTokens]

theorem blockPairs?_entryTokens {entries : List (NamedNode × NamedNode)}
    (hbarekeys : ∀ e ∈ entries, e.1.Bare) (hbare : ∀ e ∈ entries, e.2.Bare)
    (hkeys : ∀ e ∈ entries, Reads e.1) (h : ∀ e ∈ entries, Reads e.2) {fuel : Nat}
    (hfuel : 2 * (entryTokens entries).length + 1 ≤ fuel) (rest : List Token) (table : TagTable) :
    blockPairs? table fuel (entryTokens entries ++ .blockEnd :: rest) = some (entries, rest) := by
  induction entries generalizing fuel with
  | nil =>
    obtain ⟨fuel, rfl⟩ := Nat.exists_eq_succ_of_ne_zero (Nat.ne_of_gt hfuel)
    rfl
  | cons e entries ih =>
    obtain ⟨k, v⟩ := e
    obtain ⟨fuel, rfl⟩ := Nat.exists_eq_succ_of_ne_zero (show fuel ≠ 0 by omega)
    obtain ⟨hk : Reads k, hkeys⟩ := List.forall_mem_cons.1 hkeys
    obtain ⟨hv : Reads v, h⟩ := List.forall_mem_cons.1 h
    obtain ⟨hbarek : k.Bare, hbarekeys⟩ := List.forall_mem_cons.1 hbarekeys
    obtain ⟨hbarev : v.Bare, hbare⟩ := List.forall_mem_cons.1 hbare
    -- The value is read one level deeper than its key.
    simp only [entryTokens, List.length_cons, List.length_append] at hfuel
    obtain ⟨fuel, rfl⟩ := Nat.exists_eq_succ_of_ne_zero (show fuel ≠ 0 by omega)
    have hkey := hk .value (by decide) (fuel + 1)
      (.value :: (v.tokens .value ++ (entryTokens entries ++ .blockEnd :: rest))) (by omega)
      (fun _ => by simp [EndsItems]) table
    have hvalue := hv .value (by decide) fuel (entryTokens entries ++ .blockEnd :: rest) (by omega)
      (fun _ => endsItems_entryTokens entries rest) table
    have hstartk : ∀ more, endsPair (k.tokens .value ++ more) = false := fun more => by
      obtain ⟨t, ts, ht, hends⟩ := hbarek.exists_tokens_value
      rw [ht]
      exact hends _
    have hstartv : ∀ more, endsPair (v.tokens .value ++ more) = false := fun more => by
      obtain ⟨t, ts, ht, hends⟩ := hbarev.exists_tokens_value
      rw [ht]
      exact hends _
    have hpair : blockValue? table (fuel + 1)
        (.value :: (v.tokens .value ++ (entryTokens entries ++ .blockEnd :: rest))) =
          some (v, entryTokens entries ++ .blockEnd :: rest) := by
      rw [blockValue?, hstartv, if_neg Bool.false_ne_true, hvalue]
    simp only [entryTokens, List.cons_append, List.append_assoc]
    rw [blockPairs?, hstartk]
    simp only [Bool.false_eq_true, if_false, hkey, hpair, Option.bind_eq_bind, Option.bind_some]
    rw [ih hbarekeys hbare hkeys h (by omega)]
    rfl

end NodeReader

open NodeReader in
/-- **Nodes.** A node without names and tags is read back from its tokens. -/
theorem Node.Bare.reads {n : NamedNode} (h : n.Bare) : Reads n := by
  -- The parts of a node have fewer tokens, so less fuel suffices for them.
  induction h with
  | scalar style text =>
    intro place hplace fuel rest hfuel hrest table
    obtain ⟨fuel, rfl⟩ := Nat.exists_eq_add_of_le' (show 1 ≤ fuel by omega)
    rfl
  | @sequence items hitems ih =>
    intro place hplace fuel rest hfuel hrest table
    obtain ⟨fuel, rfl⟩ := Nat.exists_eq_add_of_le' (show 2 ≤ fuel by omega)
    cases items with
    | nil => rfl
    | cons x xs =>
      cases place with
      | flow => exact absurd rfl hplace
      | value =>
        have htokens : (Node.sequence {} (x :: xs)).tokens .value = itemTokens (x :: xs) := rfl
        rw [htokens] at hfuel ⊢
        have hread := indentless?_itemTokens hitems ih (show _ ≤ fuel + 1 by omega) (hrest rfl)
          table
        have hnode : node? table (fuel + 2) .value (itemTokens (x :: xs) ++ rest) =
            (indentless? table (fuel + 1) (itemTokens (x :: xs) ++ rest)).bind
              fun found => some (.sequence {} found.1, found.2) := rfl
        rw [hnode, hread]
        rfl
      | block =>
        have htokens : (Node.sequence {} (x :: xs)).tokens .block =
          .blockSequenceStart :: (itemTokens (x :: xs) ++ [.blockEnd]) := rfl
        rw [htokens, List.length_cons, List.length_append] at hfuel
        have hread := blockItems?_itemTokens hitems ih (show _ ≤ fuel + 1 by omega) rest table
        have hnode : ∀ ts, node? table (fuel + 2) .block (.blockSequenceStart :: ts) =
            (blockItems? table (fuel + 1) ts).bind
              fun found => some (.sequence {} found.1, found.2) := fun _ => rfl
        rw [htokens, List.cons_append, List.append_assoc, hnode, List.singleton_append, hread]
        rfl
  | @mapping entries hbarekeys hbare hkeys ih =>
    intro place hplace fuel rest hfuel hrest table
    obtain ⟨fuel, rfl⟩ := Nat.exists_eq_add_of_le' (show 2 ≤ fuel by omega)
    cases entries with
    | nil => rfl
    | cons e entries =>
      have htokens : (Node.mapping {} (e :: entries)).tokens place =
        .blockMappingStart :: (entryTokens (e :: entries) ++ [.blockEnd]) := rfl
      rw [htokens, List.length_cons, List.length_append] at hfuel
      have hread := blockPairs?_entryTokens hbarekeys hbare hkeys ih (show _ ≤ fuel + 1 by omega)
        rest table
      have hnode : ∀ ts, node? table (fuel + 2) place (.blockMappingStart :: ts) =
          (blockPairs? table (fuel + 1) ts).bind
            fun found => some (.mapping {} found.1, found.2) := fun ts => by
        cases place with
        | flow => exact absurd rfl hplace
        | _ => rfl
      rw [htokens, List.cons_append, List.append_assoc, hnode, List.singleton_append, hread]
      rfl

/-- A text whose only node is read from all of its tokens is that node. -/
theorem document?_tokens {n : NamedNode} (h : n.Bare) : document? (n.tokens .block) = some n := by
  obtain ⟨t, ts, ht, -⟩ := h.exists_tokens_block
  have hread := h.reads .block nofun (3 * (n.tokens .block).length + 3) [] (by omega) nofun
    ([] ++ TagTable.usual)
  rw [List.append_nil] at hread
  have hfirst : firstDocument? (n.tokens .block) = content? [] (n.tokens .block) := by
    cases h with
    | scalar style text => rfl
    | @sequence items _ => cases items <;> rfl
    | @mapping entries _ _ => cases entries <;> rfl
  have hempty : (n.tokens .block).isEmpty = false := by rw [ht]; rfl
  rw [document?, hempty, hfirst, content?, hread]
  rfl

/-! ## Written nodes -/

mutual

/-- The node that is written for a value, with empty lines after it. -/
def writtenNode {α : Type} (n : Nat) : Json → Node α
  | .null => .scalar {} .plain ['n', 'u', 'l', 'l']
  | .bool true => .scalar {} .plain ['t', 'r', 'u', 'e']
  | .bool false => .scalar {} .plain ['f', 'a', 'l', 's', 'e']
  | .number m => .scalar {} .plain m.chars
  | .string s => .scalar {} (spelling s.toList).style (readBefore n s.toList)
  | .array items => .sequence {} (writtenItems n items)
  | .object fields => .mapping {} (writtenEntries n fields)

/-- The nodes that are written for the items of a list. Empty lines follow the last. -/
def writtenItems {α : Type} (n : Nat) : List Json → List (Node α)
  | [] => []
  | x :: xs => writtenNode (if xs.isEmpty then n else 0) x :: writtenItems n xs

/-- The nodes that are written for names of fields and their values. -/
def writtenEntries {α : Type} (n : Nat) : List (String × Json) → List (Node α × Node α)
  | [] => []
  | (k, v) :: fields =>
    (.scalar {} .plain k.toList, writtenNode (if fields.isEmpty then n else 0) v) ::
      writtenEntries n fields

end

section Written

variable {α : Type} {items : List Json} {fields : List (String × Json)}

theorem forall_mem_writtenItems {P : Node α → Prop} (h : ∀ x ∈ items, ∀ n, P (writtenNode n x))
    (n : Nat) : ∀ y ∈ writtenItems n items, P y := by
  induction items with
  | nil => exact List.forall_mem_nil _
  | cons x xs ih =>
    obtain ⟨hx, hxs⟩ := List.forall_mem_cons.1 h
    exact List.forall_mem_cons.2 ⟨hx _, ih hxs⟩

theorem forall_mem_writtenEntries {P : Node α × Node α → Prop}
    (h : ∀ f ∈ fields, ∀ n, P (.scalar {} .plain f.1.toList, writtenNode n f.2)) (n : Nat) :
    ∀ e ∈ writtenEntries n fields, P e := by
  induction fields with
  | nil => exact List.forall_mem_nil _
  | cons f fields ih =>
    obtain ⟨hf, hfields⟩ := List.forall_mem_cons.1 h
    exact List.forall_mem_cons.2 ⟨hf _, ih hfields⟩

theorem bare_writtenNode {v : Json} (h : v.Textual) (n : Nat) : (writtenNode n v : Node α).Bare := by
  induction h generalizing n with
  | bool b => cases b <;> exact .scalar _ _
  | string s => exact .scalar _ _
  | array _ ih => exact .sequence (forall_mem_writtenItems ih n)
  | object _ _ ih =>
    exact .mapping (forall_mem_writtenEntries (fun _ _ _ => .scalar _ _) n)
      (forall_mem_writtenEntries ih n)

/-- A node is linked as it is, whatever names there are. -/
def LinksAlike (v : Json) : Prop :=
  ∀ n names, link? names (writtenNode n v) = some (writtenNode n v, names)

theorem linkItems?_writtenItems (h : ∀ x ∈ items, LinksAlike x) (n : Nat) (names : Names) :
    linkItems? names (writtenItems n items) = some (writtenItems n items, names) := by
  induction items with
  | nil => rfl
  | cons x xs ih =>
    obtain ⟨hx, hxs⟩ := List.forall_mem_cons.1 h
    rw [writtenItems, linkItems?, hx]
    simp only [Option.bind_eq_bind, Option.bind_some, ih hxs]
    rfl

theorem linkEntries?_writtenEntries (h : ∀ f ∈ fields, LinksAlike f.2) (n : Nat) (names : Names) :
    linkEntries? names (writtenEntries n fields) = some (writtenEntries n fields, names) := by
  induction fields with
  | nil => rfl
  | cons f fields ih =>
    obtain ⟨hf, hfields⟩ := List.forall_mem_cons.1 h
    have hkey : link? names (.scalar {} .plain f.1.toList) =
      some (.scalar {} .plain f.1.toList, names) := rfl
    rw [writtenEntries, linkEntries?, hkey]
    simp only [Option.bind_eq_bind, Option.bind_some, hf _ names, ih hfields]
    rfl

end Written

/-- Written nodes are linked as they are. -/
theorem link?_writtenNode {v : Json} (h : v.Textual) : LinksAlike v := by
  induction h with
  | bool b => cases b <;> exact fun _ _ => rfl
  | string s => exact fun _ _ => rfl
  | array _ ih =>
    intro n names
    rw [writtenNode, writtenNode, link?]
    simp only [Names.linkProperties, linkItems?_writtenItems ih, Option.bind_eq_bind, Option.bind_some]
    rfl
  | object _ _ ih =>
    intro n names
    rw [writtenNode, writtenNode, link?]
    simp only [Names.linkProperties, linkEntries?_writtenEntries ih, Option.bind_eq_bind,
      Option.bind_some]
    rfl

end ComponentViews.Yaml
