import ComponentViews.Data.Source
import ComponentViews.Graph.Flags

/-!
# Graph documents

A graph document lists the types of a type graph and the components that are exported with them.
A type refers to others by their ids. A document may be inconsistent; `Graph.ofDocument` says when
it is not.

## Main definitions

* `TypeNode`, `Signature`, `PropertySymbol`, `ComponentEntry`, `GraphDocument`: the contents.
* `TypeNode.references`: the ids that a type refers to.
* `GraphDocument.read`: a document from any notation.
* `GraphDocument.toJson`: a document as a JSON value.
-/

namespace ComponentViews

/-- The id of a type. -/
structure TypeId where
  /-- The number that is the id. -/
  value : UInt32
  deriving DecidableEq, Repr

/-- An id as it is shown in messages. -/
def TypeId.text (t : TypeId) : String := "#" ++ toString t.value.toNat

instance : ToString TypeId := ⟨TypeId.text⟩

/-- A way to call a type. -/
structure Signature where
  /-- Types of the parameters, in order. -/
  parameters : List TypeId
  /-- Type of the result. -/
  returnType : TypeId
  deriving DecidableEq, Repr

/-- A named member of an object type. -/
structure PropertySymbol where
  /-- The declared name. -/
  name : String
  /-- The type. -/
  type : TypeId
  /-- The documentation, lines separated by line feeds. -/
  documentation : String
  deriving DecidableEq, Repr

/-- One type of a graph. -/
structure TypeNode where
  /-- The id by which others refer to it. -/
  id : TypeId
  /-- What kind of type it is. -/
  flags : TypeFlags := TypeFlags.empty
  /-- The rendering by a type checker; without it the type is rendered from its structure. -/
  display : Option String := none
  /-- The name of a nominal type. -/
  symbol : Option String := none
  /-- The value of a literal type. -/
  value : Option Json := none
  /-- The branches of a union. -/
  union : List TypeId := []
  /-- The branches of an intersection. -/
  intersection : List TypeId := []
  /-- The arguments of a generic type. -/
  typeArguments : List TypeId := []
  /-- The ways to call the type. -/
  signatures : List Signature := []
  /-- The members, in the order of their declaration. -/
  properties : List PropertySymbol := []
  deriving Repr

/-- An exported declaration that may be a component. -/
structure ComponentEntry where
  /-- The exported name. -/
  name : String
  /-- The type of the exported value. -/
  type : TypeId
  deriving DecidableEq, Repr

/-- Types and exported components. -/
structure GraphDocument where
  /-- The types. -/
  types : List TypeNode
  /-- The exports, in the order of the source. -/
  components : List ComponentEntry
  deriving Repr

/-- The ids in a signature. -/
def Signature.references (s : Signature) : List TypeId :=
  s.parameters ++ [s.returnType]

/-- The ids that a type refers to: branches, arguments, signatures and members. -/
def TypeNode.references (n : TypeNode) : List TypeId :=
  n.union ++ n.intersection ++ n.typeArguments ++ n.signatures.flatMap Signature.references ++
    n.properties.map (·.type)

/-! ## Reading -/

section Reading

variable {σ : Type} {m : Type → Type} [Monad m] [MonadExceptOf Unit m] [DataSource σ m]

/-- An id. -/
def TypeId.read (s : σ) : m TypeId := do
  let n ← DataSource.word s
  pure ⟨n⟩

/-- A set of flags, written as text. -/
def TypeFlags.read (s : σ) : m TypeFlags := do
  let t ← DataSource.text s
  match TypeFlags.ofText? t with
  | some f => pure f
  | none => throw ()

/-- A signature. -/
def Signature.read (s : σ) : m Signature := do
  let f ← readFields ["parameters", "return_type"] s
  let parameters ← f.withDefault "parameters" [] (readList TypeId.read)
  let returnType ← f.required "return_type" TypeId.read
  pure { parameters, returnType }

/-- A member of an object type. -/
def PropertySymbol.read (s : σ) : m PropertySymbol := do
  let f ← readFields ["name", "type", "documentation"] s
  let name ← f.required "name" DataSource.text
  let type ← f.required "type" TypeId.read
  let documentation ← f.withDefault "documentation" "" DataSource.text
  pure { name, type, documentation }

/-- A type. -/
def TypeNode.read (s : σ) : m TypeNode := do
  let f ← readFields ["id", "flags", "display", "symbol", "value", "union", "intersection",
    "type_arguments", "signatures", "properties"] s
  let id ← f.required "id" TypeId.read
  let flags ← f.withDefault "flags" TypeFlags.empty TypeFlags.read
  let display ← f.option "display" DataSource.text
  let symbol ← f.option "symbol" DataSource.text
  let value ← f.option "value" DataSource.value
  let union ← f.withDefault "union" [] (readList TypeId.read)
  let intersection ← f.withDefault "intersection" [] (readList TypeId.read)
  let typeArguments ← f.withDefault "type_arguments" [] (readList TypeId.read)
  let signatures ← f.withDefault "signatures" [] (readList Signature.read)
  let properties ← f.withDefault "properties" [] (readList PropertySymbol.read)
  pure { id, flags, display, symbol, value, union, intersection, typeArguments, signatures,
         properties }

/-- An export. -/
def ComponentEntry.read (s : σ) : m ComponentEntry := do
  let f ← readFields ["name", "type"] s
  let name ← f.required "name" DataSource.text
  let type ← f.required "type" TypeId.read
  pure { name, type }

/-- A document. -/
def GraphDocument.read (s : σ) : m GraphDocument := do
  let f ← readFields ["types", "components"] s
  let types ← f.withDefault "types" [] (readList TypeNode.read)
  let components ← f.withDefault "components" [] (readList ComponentEntry.read)
  pure { types, components }

end Reading

/-! ## Writing -/

/-- A field that is left out if its list is empty. -/
def listField {α : Type} (name : String) (toJson : α → Json) (xs : List α) :
    List (String × Json) :=
  if xs.isEmpty then [] else [(name, .array (xs.map toJson))]

/-- A field that is left out if it has no value. -/
def optionField {α : Type} (name : String) (toJson : α → Json) : Option α → List (String × Json)
  | some a => [(name, toJson a)]
  | none => []

/-- An id as a JSON value. -/
def TypeId.toJson (t : TypeId) : Json := .int t.value.toNat

/-- A signature as a JSON value. -/
def Signature.toJson (s : Signature) : Json :=
  .object [("parameters", .array (s.parameters.map TypeId.toJson)),
    ("return_type", s.returnType.toJson)]

/-- A member as a JSON value; empty documentation is left out. -/
def PropertySymbol.toJson (p : PropertySymbol) : Json :=
  .object ([("name", .string p.name), ("type", p.type.toJson)] ++
    if p.documentation = "" then [] else [("documentation", .string p.documentation)])

/-- A type as a JSON value; what is absent or empty is left out, flags are always written. -/
def TypeNode.toJson (n : TypeNode) : Json :=
  .object ([("id", n.id.toJson), ("flags", .string n.flags.text)] ++
    optionField "display" .string n.display ++ optionField "symbol" .string n.symbol ++
    optionField "value" (fun v => v) n.value ++ listField "union" TypeId.toJson n.union ++
    listField "intersection" TypeId.toJson n.intersection ++
    listField "type_arguments" TypeId.toJson n.typeArguments ++
    listField "signatures" Signature.toJson n.signatures ++
    listField "properties" PropertySymbol.toJson n.properties)

/-- An export as a JSON value. -/
def ComponentEntry.toJson (c : ComponentEntry) : Json :=
  .object [("name", .string c.name), ("type", c.type.toJson)]

/-- A document as a JSON value. -/
def GraphDocument.toJson (d : GraphDocument) : Json :=
  .object [("types", .array (d.types.map TypeNode.toJson)),
    ("components", .array (d.components.map ComponentEntry.toJson))]

end ComponentViews
