import ComponentViews.Yaml.Node

/-!
# References between nodes

Names of nodes are replaced by numbers, in the order of the text. A reference leads to the node
that carries its number; where several do, to the last of them. A node may contain a reference to
itself.

## Main definitions

* `Names`: the names so far with their numbers.
* `link?`: a node with numbers in place of names, if each reference follows a node of its name.
* `Node.definitions`: the nodes that carry numbers.
* `Node.eventCount`: the size of a node.
-/

namespace ComponentViews.Yaml

/-- A node with numbers in place of names. -/
abbrev LinkedNode := Node Nat

/-- The names so far, each once, with the numbers that they stand for. -/
abbrev Names := List (List Char × Nat)

namespace Names

/-- The number that a name stands for. -/
def find? (names : Names) (name : List Char) : Option Nat :=
  (names.lookup name)

/-- Let a name stand for the number of names so far. -/
def define (names : Names) (name : List Char) : Names :=
  (name, names.length) :: names.filter fun e => e.1 ≠ name

/-- Replace the name of a node, which from then on stands for its number. -/
def linkProperties (names : Names) (p : Properties (List Char)) : Properties Nat × Names :=
  match p.anchor with
  | some name => (⟨some names.length, p.tag⟩, names.define name)
  | none => (⟨none, p.tag⟩, names)

end Names

mutual

/-- Replace names by numbers, given the names before; with the names after. -/
def link? (names : Names) : NamedNode → Option (LinkedNode × Names)
  | .alias name => (names.find? name).map fun n => (.alias n, names)
  | .scalar p style text =>
    let (p, names) := names.linkProperties p
    some (.scalar p style text, names)
  -- The name of a list is known within the list already.
  | .sequence p items => do
    let (p, names) := names.linkProperties p
    let (items, names) ← linkItems? names items
    pure (.sequence p items, names)
  | .mapping p entries => do
    let (p, names) := names.linkProperties p
    let (entries, names) ← linkEntries? names entries
    pure (.mapping p entries, names)

/-- Replace names by numbers in the items of a list. -/
def linkItems? (names : Names) : List NamedNode → Option (List LinkedNode × Names)
  | [] => some ([], names)
  | x :: xs => do
    let (x, names) ← link? names x
    let (xs, names) ← linkItems? names xs
    pure (x :: xs, names)

/-- Replace names by numbers in keys and their values. -/
def linkEntries? (names : Names) :
    List (NamedNode × NamedNode) → Option (List (LinkedNode × LinkedNode) × Names)
  | [] => some ([], names)
  | (k, v) :: rest => do
    let (k, names) ← link? names k
    let (v, names) ← link? names v
    let (rest, names) ← linkEntries? names rest
    pure ((k, v) :: rest, names)

end

/-- The definition that a node makes, if it carries a number. -/
def Properties.definition (p : Properties Nat) (n : LinkedNode) : List (Nat × LinkedNode) :=
  match p.anchor with
  | some k => [(k, n)]
  | none => []

mutual

/-- The nodes that carry numbers, in the order of the text. -/
def Node.definitions : LinkedNode → List (Nat × LinkedNode)
  | .alias _ => []
  | .scalar p style text => p.definition (.scalar p style text)
  | .sequence p items => p.definition (.sequence p items) ++ definitionsOfItems items
  | .mapping p entries => p.definition (.mapping p entries) ++ definitionsOfEntries entries

/-- The nodes that carry numbers in the items of a list. -/
def definitionsOfItems : List LinkedNode → List (Nat × LinkedNode)
  | [] => []
  | x :: xs => x.definitions ++ definitionsOfItems xs

/-- The nodes that carry numbers in keys and their values. -/
def definitionsOfEntries : List (LinkedNode × LinkedNode) → List (Nat × LinkedNode)
  | [] => []
  | (k, v) :: rest => k.definitions ++ (v.definitions ++ definitionsOfEntries rest)

end

mutual

/-- The size of a node: scalars and references, and the ends of lists and mappings. -/
def Node.eventCount {α : Type} : Node α → Nat
  | .alias _ => 1
  | .scalar _ _ _ => 1
  | .sequence _ items => eventsOfItems items + 2
  | .mapping _ entries => eventsOfEntries entries + 2

/-- The size of the items of a list. -/
def eventsOfItems {α : Type} : List (Node α) → Nat
  | [] => 0
  | x :: xs => x.eventCount + eventsOfItems xs

/-- The size of keys and their values. -/
def eventsOfEntries {α : Type} : List (Node α × Node α) → Nat
  | [] => 0
  | (k, v) :: rest => k.eventCount + (v.eventCount + eventsOfEntries rest)

end

end ComponentViews.Yaml
