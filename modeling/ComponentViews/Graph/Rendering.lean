import ComponentViews.Graph.Basic
import ComponentViews.Json.Writer

/-!
# Rendering types

A type is rendered as a type checker would print it: by the rendering that comes with it, or else
from its structure, down to a limited depth. A type deeper than that is rendered as an ellipsis,
so the rendering of a type that contains itself ends too.

## Main definitions

* `TypeNode.layout`: the rendering of a type from its structure, given those of its parts.
* `Graph.renderWithin`, `Graph.render`: the rendering of a type.
* `Graph.answering`, `Graph.queries`: all that a graph answers.
-/

namespace ComponentViews

/-- Types deeper than this are not rendered from their structure. -/
def maxRenderDepth : Nat := 12

/-- Whether the structure of a type has to be put in parentheses before a suffix. -/
def TypeNode.needsParens (n : TypeNode) : Bool :=
  n.display.isNone &&
    (!n.union.isEmpty || !n.intersection.isEmpty || (n.symbol.isNone && !n.signatures.isEmpty))

/-- The rendering of a nominal type with its arguments. A generic array has a form of its own. -/
def layoutNominal (needsParens : TypeId → Bool) (child : TypeId → String) (symbol : String) :
    List TypeId → String
  | [] => symbol
  | [element] =>
    if symbol = "Array" then
      if needsParens element then "(" ++ child element ++ ")[]" else child element ++ "[]"
    else symbol ++ "<" ++ child element ++ ">"
  | arguments => symbol ++ "<" ++ String.intercalate ", " (arguments.map child) ++ ">"

/-- The rendering of a way to call a type. -/
def Signature.layout (child : TypeId → String) (s : Signature) : String :=
  let parameters := s.parameters.zipIdx.map fun (p, i) => s!"arg{i}: {child p}"
  "(" ++ String.intercalate ", " parameters ++ ") => " ++ child s.returnType

/-- The rendering of the members of an object type. -/
def layoutMembers (child : TypeId → String) (members : List PropertySymbol) : String :=
  let texts := members.map fun p => p.name ++ ": " ++ child p.type ++ ";"
  "\x7b " ++ String.intercalate " " texts ++ " \x7d"

/-- The rendering of a type from its structure, given the renderings of the types in it. The first
of these counts: value, union, intersection, name, signature, members, flags. -/
def TypeNode.layout (needsParens : TypeId → Bool) (child : TypeId → String) (n : TypeNode) :
    String :=
  match n.value with
  | some v => v.compact
  | none =>
    -- Branches are not put in parentheses; only the elements of an array are.
    if n.union ≠ [] then String.intercalate " | " (n.union.map child)
    else if n.intersection ≠ [] then String.intercalate " & " (n.intersection.map child)
    else
      match n.symbol, n.signatures with
      | some symbol, _ => layoutNominal needsParens child symbol n.typeArguments
      | none, s :: _ => s.layout child
      | none, [] =>
        if n.properties ≠ [] then layoutMembers child n.properties
        else n.flags.keyword?.getD "unknown"

namespace Graph

/-- Whether the structure of a type has to be put in parentheses before a suffix. -/
def needsParens (g : Graph) (f : Fallback) (t : TypeId) : Bool :=
  g.answer t TypeNode.needsParens (f.needsParens t)

/-- The rendering of a type where structure of the given depth may be shown. -/
def renderWithin (g : Graph) (f : Fallback) : Nat → TypeId → String
  | room, t =>
    match g.node? t with
    | none => f.render t
    | some n =>
      -- A rendering that comes with a type is used at any depth.
      match n.display, room with
      | some display, _ => display
      | none, 0 => "..."
      | none, room + 1 => n.layout (g.needsParens f) (g.renderWithin f room)

/-- The rendering of a type. -/
def render (g : Graph) (t : TypeId) (f : Fallback := .usual) : String :=
  g.renderWithin f maxRenderDepth t

/-- All that a graph answers. -/
def answering (g : Graph) (f : Fallback) : TypeGraph where
  flags t := g.flags t f
  render t := g.render t f
  symbolName t := g.symbolName t f
  unionTypes t := g.unionTypes t f
  intersectionTypes t := g.intersectionTypes t f
  typeArguments t := g.typeArguments t f
  callSignatures t := g.callSignatures t f
  properties t := g.properties t f

/-- All that a graph answers, with empty answers about ids that it does not know. -/
def queries (g : Graph) : TypeGraph := g.answering .usual

instance : Coe Graph TypeGraph := ⟨queries⟩

variable {g : Graph} {t : TypeId} {n : TypeNode}

/-- A type with a rendering of its own is rendered so. -/
theorem renderWithin_of_display {display : String} (h : g.node? t = some n)
    (hd : n.display = some display) (f : Fallback) (room : Nat) :
    g.renderWithin f room t = display := by
  cases room <;> simp [renderWithin, h, hd]

/-- A type without one is not rendered where there is no room. -/
theorem renderWithin_zero (h : g.node? t = some n) (hd : n.display = none) (f : Fallback) :
    g.renderWithin f 0 t = "..." := by
  simp [renderWithin, h, hd]

/-- A type is rendered from its structure with one level less for its parts. -/
theorem renderWithin_succ (h : g.node? t = some n) (hd : n.display = none) (f : Fallback)
    (room : Nat) :
    g.renderWithin f (room + 1) t = n.layout (g.needsParens f) (g.renderWithin f room) := by
  simp [renderWithin, h, hd]

end Graph

end ComponentViews
