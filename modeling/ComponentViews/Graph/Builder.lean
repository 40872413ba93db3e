import ComponentViews.Graph.Basic

/-!
# Building type graphs

A graph can be built type by type. Ids are given out in order, beginning with zero, so the types
are found by their position. Only ids that were given out should be referred to; then the document
that results is consistent.

## Main definitions

* `GraphBuilder`: the types and exports so far.
* `GraphBuilder.add`: add a type and give out its id.
* `GraphBuilder.primitive`, `GraphBuilder.union`, `GraphBuilder.component`, …: types of each kind.
* `GraphBuilder.document`, `GraphBuilder.graph`: what has been built.
-/

namespace ComponentViews

/-- The types and exports of a graph that is being built. -/
structure GraphBuilder where
  /-- The types so far, in the order of their ids. -/
  types : List TypeNode := []
  /-- The exports so far. -/
  components : List ComponentEntry := []
  deriving Repr

namespace GraphBuilder

/-- The id that the next type gets. -/
def nextId (b : GraphBuilder) : TypeId := ⟨UInt32.ofNat b.types.length⟩

/-- Add a type, whatever id it has, under the next id. -/
def add (b : GraphBuilder) (n : TypeNode) : TypeId × GraphBuilder :=
  (b.nextId, { b with types := b.types ++ [{ n with id := b.nextId }] })

/-- Add a type without structure. -/
def primitive (b : GraphBuilder) (flags : TypeFlags) : TypeId × GraphBuilder :=
  b.add { id := b.nextId, flags }

/-- Add the type of one value. -/
def literal (b : GraphBuilder) (flags : TypeFlags) (value : Json) : TypeId × GraphBuilder :=
  b.add { id := b.nextId, flags, value := some value }

/-- Add the type of one string. -/
def stringLiteral (b : GraphBuilder) (value : String) : TypeId × GraphBuilder :=
  b.literal TypeFlags.stringLiteral (.string value)

/-- Add the type of one integer. -/
def numberLiteral (b : GraphBuilder) (value : Int) : TypeId × GraphBuilder :=
  b.literal TypeFlags.numberLiteral (.int value)

/-- Add the type of one truth value. -/
def booleanLiteral (b : GraphBuilder) (value : Bool) : TypeId × GraphBuilder :=
  b.literal TypeFlags.booleanLiteral (.bool value)

/-- Add a union. -/
def union (b : GraphBuilder) (branches : List TypeId) : TypeId × GraphBuilder :=
  b.add { id := b.nextId, flags := TypeFlags.unionType, union := branches }

/-- Add an intersection. -/
def intersection (b : GraphBuilder) (branches : List TypeId) : TypeId × GraphBuilder :=
  b.add { id := b.nextId, flags := TypeFlags.intersectionType, intersection := branches }

/-- Add a nominal type with arguments. -/
def generic (b : GraphBuilder) (symbol : String) (arguments : List TypeId) :
    TypeId × GraphBuilder :=
  b.add { id := b.nextId, flags := TypeFlags.object, symbol := some symbol
          typeArguments := arguments }

/-- Add a nominal type. -/
def named (b : GraphBuilder) (symbol : String) : TypeId × GraphBuilder :=
  b.generic symbol []

/-- Add a type of lists. -/
def array (b : GraphBuilder) (element : TypeId) : TypeId × GraphBuilder :=
  b.generic "Array" [element]

/-- Add a type of objects with members. -/
def object (b : GraphBuilder) (properties : List PropertySymbol) : TypeId × GraphBuilder :=
  b.add { id := b.nextId, flags := TypeFlags.object, properties }

/-- Add a type of functions. -/
def function (b : GraphBuilder) (parameters : List TypeId) (returnType : TypeId) :
    TypeId × GraphBuilder :=
  b.add { id := b.nextId, flags := TypeFlags.object, signatures := [{ parameters, returnType }] }

/-- Export a type. -/
def exportAs (b : GraphBuilder) (name : String) (t : TypeId) : TypeId × GraphBuilder :=
  (t, { b with components := b.components ++ [{ name, type := t }] })

/-- Add and export the type of components with the given properties. -/
def component (b : GraphBuilder) (name : String) (props : TypeId) : TypeId × GraphBuilder :=
  let (element, b) := b.named "Element"
  let (t, b) := b.function [props] element
  b.exportAs name t

/-- Give a type a rendering of its own. -/
def display (b : GraphBuilder) (t : TypeId) (text : String) : TypeId × GraphBuilder :=
  (t, { b with
    types := b.types.modify t.value.toNat fun n => { n with display := some text } })

/-- The document built so far. -/
def document (b : GraphBuilder) : GraphDocument :=
  { types := b.types, components := b.components }

/-- The graph built so far, whether or not the document is consistent. -/
def graph (b : GraphBuilder) : Graph :=
  { types := b.types, components := b.components }

end GraphBuilder

end ComponentViews
