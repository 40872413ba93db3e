import ComponentViews.Conventions
import ComponentViews.Descriptor
import ComponentViews.Graph.Basic
import ComponentViews.Log

/-!
# Classification

A type of a graph is classified by the first rule that applies to it: primitive types, lists, the
type of all that can be rendered, types of styles, intersections, unions, objects. The rule is
found without looking into other types. Lists, intersections and unions are then classified by
their parts, while a type that is met inside itself is not classified again.

A classification ends whatever the graph answers: an id that is entered was not entered before, so
the ids that have not been entered become fewer.

## Main definitions

* `Classifier`: the answers of a graph with the conventions by which its types are recognized.
* `Classifier.rule`: the rule that applies to a type.
* `Classifier.unionOf`, `Classifier.intersectionOf`: a type from the outcomes of its branches.
* `Classifier.applyRule`: a type from its parts by a rule.
* `Classifier.classifyIn`, `Classifier.classify`: the descriptor of a type, or why there is none.
-/

namespace ComponentViews

/-- What stands in the way of a descriptor. -/
inductive Obstacle where
  /-- The type is part of itself. -/
  | circular
  /-- A type of lists has another number of arguments than one. -/
  | argumentCount (found : Nat)
  /-- No branch of an intersection has a descriptor. -/
  | noBranch
  /-- No rule applies. -/
  | noRule
  deriving DecidableEq, Repr

/-- An obstacle in words. -/
def Obstacle.text : Obstacle → String
  | .circular => "circular type reference"
  | .argumentCount found => s!"expected one element type argument, found {found}"
  | .noBranch => "no intersection branch could be classified"
  | .noRule => "no validator matches this type"

/-- Why a type has no descriptor. -/
inductive ClassifyError where
  /-- It is a type of functions. -/
  | functionType (typeName : String)
  /-- Something stands in the way. -/
  | unclassifiable (typeName : String) (obstacle : Obstacle)
  deriving DecidableEq, Repr

/-- The message for an error. -/
def ClassifyError.message : ClassifyError → String
  | .functionType typeName => s!"{typeName} is a function type"
  | .unclassifiable typeName obstacle =>
    s!"Failed to find propType for {typeName}: {obstacle.text}"

/-- A descriptor, or why there is none. -/
abbrev Outcome := Except ClassifyError Descriptor

/-- What the first rule that applies to a type says. -/
inductive Rule where
  /-- The outcome, whatever the parts of the type. -/
  | settled (outcome : Outcome)
  /-- The type is one of lists with elements of the only argument. -/
  | array (arguments : List TypeId)
  /-- The type is an intersection. -/
  | intersection (branches : List TypeId)
  /-- The type is a union. -/
  | union (branches : List TypeId)
  deriving Repr

/-- The types whose classification a rule may ask for. -/
def Rule.parts : Rule → List TypeId
  | .settled _ => []
  | .array arguments => arguments
  | .intersection branches => branches
  | .union branches => branches

/-- The contribution of a branch to a union. -/
inductive UnionPart where
  /-- One value, by its rendering. -/
  | literal (rendered : String)
  /-- A type with its descriptor. -/
  | typed (descriptor : Descriptor)
  deriving Repr

/-- The rendering of a value. -/
def UnionPart.literal? : UnionPart → Option String
  | .literal r => some r
  | .typed _ => none

/-- The descriptor of a type. -/
def UnionPart.typed? : UnionPart → Option Descriptor
  | .literal _ => none
  | .typed d => some d

/-- The descriptors of the parts of a union, with one descriptor for all values at the place of the
first of them. -/
def gatherLiterals (values : List String) : List UnionPart → List Descriptor
  | [] => []
  | .typed d :: parts => d :: gatherLiterals values parts
  | .literal _ :: parts => .oneOf values :: parts.filterMap UnionPart.typed?

/-- The members of a union: its parts, where values are gathered and of descriptors with one text
the first is kept. -/
def unionMembers (parts : List UnionPart) : List Descriptor :=
  let values := distinctBy id [] (parts.filterMap UnionPart.literal?)
  distinctBy Descriptor.text [] (gatherLiterals values parts)

/-- The answers of a graph with the conventions by which its types are recognized. -/
structure Classifier where
  /-- The answers. -/
  graph : TypeGraph
  /-- The conventions. -/
  conventions : Conventions

namespace Classifier

/-- Whether a type is that of all that can be rendered. -/
def isNode (c : Classifier) (t : TypeId) : Bool :=
  c.conventions.isNodeMarker (c.graph.render t)

/-- An error about a type. -/
def obstructed (c : Classifier) (t : TypeId) (obstacle : Obstacle) : Outcome :=
  .error (.unclassifiable (c.graph.render t) obstacle)

/-- The rule for a type whose flags and rendering settle nothing: by its branches, or else by
being an object. -/
def structuralRule (c : Classifier) (t : TypeId) : Rule :=
  match c.graph.intersectionTypes t, c.graph.unionTypes t with
  | some branches, _ => .intersection branches
  | none, some branches => .union branches
  | none, none =>
    if (c.graph.flags t).contains TypeFlags.object then
      if c.graph.callSignatures t ≠ [] then .settled (.error (.functionType (c.graph.render t)))
      else .settled (.ok .any)
    else .settled (c.obstructed t .noRule)

/-- The first rule that applies to a type. Narrowing often leaves only the value `false` of a truth
value, so its rendering counts as the type of truth values. -/
def rule (c : Classifier) (t : TypeId) : Rule :=
  let flags := c.graph.flags t
  let rendered := c.graph.render t
  -- What the flags say comes first, then names, and structure last.
  if flags.contains TypeFlags.boolean ∨ rendered = "false" then .settled (.ok .bool)
  else if flags.intersects TypeFlags.numberLike then .settled (.ok .number)
  else if flags.intersects TypeFlags.stringLike then .settled (.ok .string)
  else if flags.intersects (TypeFlags.any ∪ TypeFlags.unknown) then .settled (.ok .any)
  else if (c.graph.symbolName t).any c.conventions.isArrayMarker then
    .array (c.graph.typeArguments t)
  else if c.conventions.isNodeMarker rendered then .settled (.ok .node)
  else if c.conventions.isStyleMarker rendered then .settled (.ok .object)
  else c.structuralRule t

/-- Whether a type is the given truth value. -/
def isBooleanLiteral (c : Classifier) (value : Bool) (t : TypeId) : Bool :=
  (c.graph.flags t).contains TypeFlags.booleanLiteral &&
    c.graph.render t = (if value then "true" else "false")

/-- Whether both truth values are among the branches. -/
def hasBooleanPair (c : Classifier) (branches : List TypeId) : Bool :=
  branches.any (c.isBooleanLiteral true) && branches.any (c.isBooleanLiteral false)

/-! ## Types from their branches -/

/-- The descriptor of an intersection from the outcomes of its branches: the first that says
something, or else the descriptor of all values if there is any descriptor. -/
def intersectionOf (c : Classifier) (t : TypeId) (outcomes : List Outcome) : Outcome :=
  let found := outcomes.filterMap fun
    | .ok d => some d
    | .error _ => none
  -- A descriptor of all values says nothing, so it only serves where no branch says more.
  match found.find? fun d => !d.isAny, found with
  | some d, _ => .ok d
  | none, d :: _ => .ok d
  | none, [] => c.obstructed t .noBranch

/-- The descriptor of a union from its parts. A union without parts accepts all values, which is
reported. -/
def unionOf (c : Classifier) (t : TypeId) (parts : List UnionPart) : Logged Outcome :=
  match unionMembers parts with
  | [] => do
    Logged.warn
      s!"No branch of {c.graph.render t} could be classified, using PropTypes.any"
    pure (.ok .any)
  | [d] => pure (.ok d)
  | ds => pure (.ok (.oneOfType ds))

section Branches

variable {m : Type → Type} [Monad m] [MonadLiftT Logged m]

/-- The outcome of a branch of an intersection, given its classification, which a single value does
not need. What is left out is reported. -/
def intersectionBranch (c : Classifier) (b : TypeId) (classifyBranch : Unit → m Outcome) :
    m Outcome := do
  if (c.graph.flags b).isLiteral then pure (.ok (.oneOf [c.graph.render b]))
  else
    match ← classifyBranch () with
    | .ok d => pure (.ok d)
    | .error e =>
      Logged.debug s!"Dropping intersection branch: {e.message}"
      pure (.error e)

/-- The contribution of a branch to a union, given its classification, which a single value does not
need. Both truth values together contribute their type. What is left out is reported. -/
def unionBranch (c : Classifier) (booleanPair : Bool) (b : TypeId)
    (classifyBranch : Unit → m Outcome) : m (Option UnionPart) := do
  let flags := c.graph.flags b
  -- The pair is found among all branches, so both of its members contribute the same type.
  if booleanPair ∧ flags.contains TypeFlags.booleanLiteral then pure (some (.typed .bool))
  else if flags.isLiteral then pure (some (.literal (c.graph.render b)))
  else
    match ← classifyBranch () with
    | .ok d => pure (some (.typed d))
    | .error e =>
      Logged.debug s!"Dropping union branch: {e.message}"
      pure none

/-- The outcome for a type by a rule, given the classification of its parts. However the parts are
classified, the rule is the same. -/
def applyRule (c : Classifier) (t : TypeId) :
    (rule : Rule) → (classifyPart : (b : TypeId) → b ∈ rule.parts → m Outcome) → m Outcome
  | .settled outcome, _ => pure outcome
  -- An element without a descriptor leaves the list without one.
  | .array [element], classifyPart => do
    let outcome ← classifyPart element List.mem_cons_self
    pure (outcome.map .arrayOf)
  | .array arguments, _ => pure (c.obstructed t (.argumentCount arguments.length))
  | .intersection branches, classifyPart => do
    let outcomes ← branches.attach.mapM fun ⟨b, hb⟩ =>
      c.intersectionBranch b fun _ => classifyPart b hb
    pure (c.intersectionOf t outcomes)
  | .union branches, classifyPart => do
    let parts ← branches.attach.mapM fun ⟨b, hb⟩ =>
      c.unionBranch (c.hasBooleanPair branches) b fun _ => classifyPart b hb
    c.unionOf t (parts.filterMap id)

end Branches

/-! ## Ids that have not been entered -/

/-- All ids that there are. -/
noncomputable def allIds : List TypeId :=
  (List.range UInt32.size).map fun n => ⟨UInt32.ofNat n⟩

theorem mem_allIds (t : TypeId) : t ∈ allIds := by
  have ht : (⟨UInt32.ofNat t.value.toNat⟩ : TypeId) = t := by simp
  exact List.mem_map.2 ⟨t.value.toNat, by simpa using t.value.toNat_lt_size, ht⟩

/-- Of some ids those that are not among the ids entered. -/
def unentered (ids entered : List TypeId) : List TypeId :=
  ids.filter fun t => t ∉ entered

/-- Entering one of the ids leaves fewer of them to enter. -/
theorem length_unentered_lt {ids entered : List TypeId} {t : TypeId} (ht : t ∈ ids)
    (hn : t ∉ entered) : (unentered ids (t :: entered)).length < (unentered ids entered).length := by
  have hsub : unentered ids (t :: entered) = (unentered ids entered).filter fun s => s ≠ t := by
    simp only [unentered, List.filter_filter]
    refine List.filter_congr fun s _ => ?_
    by_cases hs : s = t <;> simp [hs]
  -- The id itself is what the smaller list lacks.
  rw [hsub]
  exact List.length_filter_lt_length_iff_exists.2
    ⟨t, by simp [unentered, ht, hn], by simp⟩

/-! ## Classification -/

/-- The outcome for a type that is met while those entered are being classified. -/
def classifyIn (c : Classifier) (entered : List TypeId) (t : TypeId) : Logged Outcome :=
  if _h : t ∈ entered then pure (c.obstructed t .circular)
  -- The parts are classified with this type entered, so it is not entered again within them.
  else c.applyRule t (c.rule t) fun b _ => classifyIn c (t :: entered) b
termination_by (unentered allIds entered).length
decreasing_by exact length_unentered_lt (mem_allIds t) _h

/-- The outcome for a type. -/
def classify (c : Classifier) (t : TypeId) : Logged Outcome := c.classifyIn [] t

theorem classifyIn_of_mem (c : Classifier) {entered : List TypeId} {t : TypeId}
    (h : t ∈ entered) : c.classifyIn entered t = pure (c.obstructed t .circular) := by
  rw [classifyIn, dif_pos h]

theorem classifyIn_of_not_mem (c : Classifier) {entered : List TypeId} {t : TypeId}
    (h : t ∉ entered) :
    c.classifyIn entered t =
      c.applyRule t (c.rule t) fun b _ => c.classifyIn (t :: entered) b := by
  rw [classifyIn, dif_neg h]

end Classifier

end ComponentViews
