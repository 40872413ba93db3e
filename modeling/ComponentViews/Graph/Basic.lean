import ComponentViews.Graph.Document

/-!
# Type graphs

A type graph answers questions about its types. Whoever follows the types of a graph needs the
answers only, so these are an interface of their own. Asked about an id that it does not know, a
graph gives empty answers.

A graph made from a document knows every id that is referred to: the ids of the document are
distinct, and each reference of a type and each export leads to one of them.

## Main definitions

* `TypeGraph`: the questions, with their answers.
* `Fallback`, `Fallback.usual`: the answers about ids that no type has.
* `Graph`, `Graph.node?`: types found by their ids.
* `Graph.flags`, `Graph.symbolName`, `Graph.unionTypes`, …: the answers of a graph.
* `Graph.ofDocument`: the graph of a consistent document.
* `GraphError`: why there is no graph.
-/

namespace ComponentViews

/-! ## Questions and answers -/

/-- The answers to all that is asked about types. -/
structure TypeGraph where
  /-- What kind of type it is. -/
  flags : TypeId → TypeFlags
  /-- The rendering of a type. -/
  render : TypeId → String
  /-- The name of a nominal type. -/
  symbolName : TypeId → Option String
  /-- The branches, if the type is a union. -/
  unionTypes : TypeId → Option (List TypeId)
  /-- The branches, if the type is an intersection. -/
  intersectionTypes : TypeId → Option (List TypeId)
  /-- The arguments of a generic type. -/
  typeArguments : TypeId → List TypeId
  /-- The ways to call a type. -/
  callSignatures : TypeId → List Signature
  /-- The members of a type, in the order of their declaration. -/
  properties : TypeId → List PropertySymbol

/-- The answers about ids that no type has. -/
structure Fallback extends TypeGraph where
  /-- Whether the rendering has to be put in parentheses before a suffix. -/
  needsParens : TypeId → Bool

/-- Empty answers, and a rendering that shows the id. -/
def Fallback.usual : Fallback where
  flags _ := TypeFlags.empty
  render t := "<unresolved " ++ t.text ++ ">"
  symbolName _ := none
  unionTypes _ := none
  intersectionTypes _ := none
  typeArguments _ := []
  callSignatures _ := []
  properties _ := []
  needsParens _ := false

/-- The branches, if the type is a union. It is one by its flag or by having branches. -/
def TypeNode.unionTypes (n : TypeNode) : Option (List TypeId) :=
  if n.flags.contains TypeFlags.unionType ∨ n.union ≠ [] then some n.union else none

/-- The branches, if the type is an intersection. It is one by its flag or by having branches. -/
def TypeNode.intersectionTypes (n : TypeNode) : Option (List TypeId) :=
  if n.flags.contains TypeFlags.intersectionType ∨ n.intersection ≠ [] then some n.intersection
  else none

/-- The branches of a type that is no union are none. -/
@[simp] theorem TypeNode.getD_unionTypes (n : TypeNode) : n.unionTypes.getD [] = n.union := by
  unfold unionTypes
  split
  · rfl
  · rename_i h
    simp_all

/-- The branches of a type that is no intersection are none. -/
@[simp] theorem TypeNode.getD_intersectionTypes (n : TypeNode) :
    n.intersectionTypes.getD [] = n.intersection := by
  unfold intersectionTypes
  split
  · rfl
  · rename_i h
    simp_all

/-! ## Graphs -/

/-- Types that can be found by their ids, and the exports that come with them. -/
structure Graph where
  /-- The types. -/
  types : List TypeNode
  /-- The exports, in the order of the source. -/
  components : List ComponentEntry
  deriving Repr

namespace Graph

/-- The ids of the types. -/
def ids (g : Graph) : List TypeId := g.types.map (·.id)

/-- The type with an id. -/
def node? (g : Graph) (t : TypeId) : Option TypeNode := g.types.find? fun n => n.id = t

/-- The number of types. -/
def size (g : Graph) : Nat := g.types.length

/-- The first export with a name. -/
def component? (g : Graph) (name : String) : Option ComponentEntry :=
  g.components.find? fun c => c.name = name

/-- What the type with an id answers; without such a type, something else. -/
def answer {α : Type} (g : Graph) (t : TypeId) (question : TypeNode → α) (otherwise : α) : α :=
  match g.node? t with
  | some n => question n
  | none => otherwise

/-- What kind of type it is. -/
def flags (g : Graph) (t : TypeId) (f : Fallback := .usual) : TypeFlags :=
  g.answer t (·.flags) (f.flags t)

/-- The name of a nominal type. -/
def symbolName (g : Graph) (t : TypeId) (f : Fallback := .usual) : Option String :=
  g.answer t (·.symbol) (f.symbolName t)

/-- The branches, if the type is a union. -/
def unionTypes (g : Graph) (t : TypeId) (f : Fallback := .usual) : Option (List TypeId) :=
  g.answer t (·.unionTypes) (f.unionTypes t)

/-- The branches, if the type is an intersection. -/
def intersectionTypes (g : Graph) (t : TypeId) (f : Fallback := .usual) : Option (List TypeId) :=
  g.answer t (·.intersectionTypes) (f.intersectionTypes t)

/-- The arguments of a generic type. -/
def typeArguments (g : Graph) (t : TypeId) (f : Fallback := .usual) : List TypeId :=
  g.answer t (·.typeArguments) (f.typeArguments t)

/-- The ways to call a type. -/
def callSignatures (g : Graph) (t : TypeId) (f : Fallback := .usual) : List Signature :=
  g.answer t (·.signatures) (f.callSignatures t)

/-- The members of a type, in the order of their declaration. -/
def properties (g : Graph) (t : TypeId) (f : Fallback := .usual) : List PropertySymbol :=
  g.answer t (·.properties) (f.properties t)

theorem answer_of_node? {α : Type} {g : Graph} {t : TypeId} {n : TypeNode}
    (h : g.node? t = some n) (question : TypeNode → α) (otherwise : α) :
    g.answer t question otherwise = question n := by
  simp [answer, h]

/-- A type that is found has the id under which it is found. -/
theorem id_of_node? {g : Graph} {t : TypeId} {n : TypeNode} (h : g.node? t = some n) :
    n.id = t := by
  simpa using List.find?_some h

/-- A type that is found is one of the graph's. -/
theorem mem_types_of_node? {g : Graph} {t : TypeId} {n : TypeNode} (h : g.node? t = some n) :
    n ∈ g.types :=
  List.mem_of_find?_eq_some h

/-- The ids that lead to a type are those of the types. -/
theorem isSome_node? (g : Graph) (t : TypeId) : (g.node? t).isSome ↔ t ∈ g.ids := by
  simp only [node?, ids, List.find?_isSome, List.mem_map, decide_eq_true_eq]

end Graph

/-! ## Graphs of documents -/

/-- Why a graph could not be loaded. -/
inductive GraphError where
  /-- The file could not be read, for the cause given. -/
  | unreadable (path cause : String)
  /-- The name of the file does not end like one of a graph document. -/
  | unsupportedFormat (path : String)
  /-- The text is not a graph document in JSON. -/
  | invalidJson
  /-- The text is not a graph document in YAML. -/
  | invalidYaml
  /-- Two types have one id. -/
  | duplicateId (id : TypeId)
  /-- A type refers to an id that no type has. -/
  | danglingReference (source target : TypeId)
  /-- The type of an export is an id that no type has. -/
  | unknownComponentType (component : String) (type : TypeId)
  deriving DecidableEq, Repr

/-- The message for an error. What a parser has to say about a text is not part of it. -/
def GraphError.message : GraphError → String
  | .unreadable path cause => s!"Failed to read {path}: {cause}"
  | .unsupportedFormat path =>
    s!"Unsupported graph format: {path} (expected .json, .yaml or .yml)"
  | .invalidJson => "Invalid JSON in graph document:"
  | .invalidYaml => "Invalid YAML in graph document:"
  | .duplicateId id => s!"Duplicate type id {id}"
  | .danglingReference source target => s!"Type {source} refers to unknown type {target}"
  | .unknownComponentType component type =>
    s!"Component {component} refers to unknown type {type}"

/-- The first element that occurs before, in the list or among those seen. -/
def firstRepeated? {α : Type} [DecidableEq α] (seen : List α) : List α → Option α
  | [] => none
  | x :: xs => if x ∈ seen then some x else firstRepeated? (x :: seen) xs

/-- The first reference of a type that leads to none of the ids. -/
def TypeNode.missing? (ids : List TypeId) (n : TypeNode) : Option TypeId :=
  n.references.find? fun t => t ∉ ids

/-- Why a document has no graph: a repeated id, else a reference that leads nowhere, else an
export whose type is unknown, each the first in the order of the document. -/
def GraphDocument.defect? (d : GraphDocument) : Option GraphError :=
  let ids := d.types.map (·.id)
  -- Each kind of defect is looked for in the whole document before the next kind.
  match firstRepeated? [] ids with
  | some id => some (.duplicateId id)
  | none =>
    match d.types.findSome? fun n => (n.missing? ids).map fun t => (n.id, t) with
    | some (source, target) => some (.danglingReference source target)
    | none =>
      match d.components.find? fun c => c.type ∉ ids with
      | some c => some (.unknownComponentType c.name c.type)
      | none => none

/-- The graph of a document that has no defect. -/
def Graph.ofDocument (d : GraphDocument) : Except GraphError Graph :=
  match d.defect? with
  | some e => .error e
  | none => .ok ⟨d.types, d.components⟩

/-- Nothing is repeated in a list without duplicates, and only there. -/
theorem firstRepeated?_eq_none_iff {α : Type} [DecidableEq α] (seen xs : List α) :
    firstRepeated? seen xs = none ↔ xs.Nodup ∧ ∀ x ∈ xs, x ∉ seen := by
  induction xs generalizing seen with
  | nil => simp [firstRepeated?]
  | cons x xs ih =>
    unfold firstRepeated?
    split
    · rename_i h
      simp [h]
    · rename_i h
      rw [ih]
      grind

end ComponentViews
