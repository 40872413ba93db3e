import ComponentViews.Graph.Builder
import ComponentViews.Proofs.Graph.Consistency
import ComponentViews.Proofs.Json.Scalars
import Mathlib.Algebra.Ring.Nat

/-!
# Runs of a graph builder

A graph is built by steps, each of which is given ids and gives one out. Whatever ids the steps are
given, a type has its position as id, so the ids of up to 2^32 types are distinct. If each id was
given out before, then references lead from a type to earlier types only, and what is built is
consistent.

## Main definitions

* `BuildStep`, `GraphBuilder.performAll`: the steps, and what many of them build.
* `GraphBuilder.Grounded`: each id that a step is given was given out before.
* `GraphBuilder.EachType`: a property of all types and their positions.
* `GraphBuilder.BuiltAt`, `GraphBuilder.Descending`: what the steps preserve.

## Main results

* `GraphBuilder.EachType.builtAt_performAll`: in every run ids are positions, and values are
  literals.
* `GraphBuilder.Descending.performAll`: in a grounded run references lead to earlier types.
* `GraphBuilder.consistent_document_iff`: what is built is consistent if all ids are those of types.
-/

namespace ComponentViews

/-- A value that a type of one value can be given: a string, an integer of 64 bits, a truth value. -/
inductive Json.IsLiteral : Json → Prop
  | string (s : String) : IsLiteral (.string s)
  | integer (n : Int64) : IsLiteral (.int n.toInt)
  | bool (b : Bool) : IsLiteral (.bool b)

/-- One thing that is done to a graph that is being built. -/
inductive BuildStep where
  /-- Add a type without structure. -/
  | primitive (flags : TypeFlags)
  /-- Add the type of one string. -/
  | stringLiteral (value : String)
  /-- Add the type of one integer of 64 bits. -/
  | numberLiteral (value : Int64)
  /-- Add the type of one truth value. -/
  | booleanLiteral (value : Bool)
  /-- Add a union. -/
  | union (branches : List TypeId)
  /-- Add an intersection. -/
  | intersection (branches : List TypeId)
  /-- Add a nominal type with arguments. -/
  | generic (symbol : String) (arguments : List TypeId)
  /-- Add a nominal type. -/
  | named (symbol : String)
  /-- Add a type of lists. -/
  | array (element : TypeId)
  /-- Add a type of objects with members. -/
  | object (properties : List PropertySymbol)
  /-- Add a type of functions. -/
  | function (parameters : List TypeId) (returnType : TypeId)
  /-- Add and export the type of components with the given properties. -/
  | component (name : String) (props : TypeId)
  /-- Export a type. -/
  | exportAs (name : String) (type : TypeId)
  /-- Give a type a rendering of its own. -/
  | display (type : TypeId) (text : String)

/-- The ids that a step is given. -/
def BuildStep.arguments : BuildStep → List TypeId
  | .primitive _ | .stringLiteral _ | .numberLiteral _ | .booleanLiteral _ | .named _ => []
  | .union branches | .intersection branches => branches
  | .generic _ arguments => arguments
  | .array element => [element]
  | .object properties => properties.map (·.type)
  | .function parameters returnType => parameters ++ [returnType]
  | .component _ props => [props]
  | .exportAs _ type | .display type _ => [type]

namespace GraphBuilder

/-- The id that a step gives out, and what has been built after it. -/
def perform (b : GraphBuilder) : BuildStep → TypeId × GraphBuilder
  | .primitive flags => b.primitive flags
  | .stringLiteral value => b.stringLiteral value
  | .numberLiteral value => b.numberLiteral value.toInt
  | .booleanLiteral value => b.booleanLiteral value
  | .union branches => b.union branches
  | .intersection branches => b.intersection branches
  | .generic symbol arguments => b.generic symbol arguments
  | .named symbol => b.named symbol
  | .array element => b.array element
  | .object properties => b.object properties
  | .function parameters returnType => b.function parameters returnType
  | .component name props => b.component name props
  | .exportAs name type => b.exportAs name type
  | .display type text => b.display type text

/-- What has been built after some steps. -/
def performAll (b : GraphBuilder) : List BuildStep → GraphBuilder
  | [] => b
  | s :: steps => (b.perform s).2.performAll steps

/-- Each id that a step is given was given out by an earlier step, or before. -/
def Grounded (given : List TypeId) (b : GraphBuilder) : List BuildStep → Prop
  | [] => True
  | s :: steps =>
    (∀ t ∈ s.arguments, t ∈ given) ∧ Grounded ((b.perform s).1 :: given) (b.perform s).2 steps

instance decidableGrounded : ∀ given b steps, Decidable (Grounded given b steps)
  | _, _, [] => inferInstanceAs (Decidable True)
  | given, b, s :: steps =>
    have := decidableGrounded ((b.perform s).1 :: given) (b.perform s).2 steps
    inferInstanceAs (Decidable (_ ∧ _))

/-- Each type has a property together with its position. -/
def EachType (P : Nat → TypeNode → Prop) (b : GraphBuilder) : Prop :=
  ∀ k n, b.types[k]? = some n → P k n

variable {b : GraphBuilder} {P : Nat → TypeNode → Prop}

/-! ## The kinds of steps -/

@[simp] theorem length_types_add (b : GraphBuilder) (n : TypeNode) :
    (b.add n).2.types.length = b.types.length + 1 := by
  simp [add]

@[simp] theorem length_types_display (b : GraphBuilder) (t : TypeId) (text : String) :
    (b.display t text).2.types.length = b.types.length := by
  simp [display]

theorem length_types_le_perform (b : GraphBuilder) (s : BuildStep) :
    b.types.length ≤ (b.perform s).2.types.length := by
  cases s with
  | component name props =>
    change _ ≤ ((b.add _).2.add _).2.types.length
    rw [length_types_add, length_types_add]
    omega
  | exportAs name type => exact Nat.le_refl _
  | display type text => exact Nat.le_of_eq (b.length_types_display type text).symm
  | _ =>
    change _ ≤ (b.add _).2.types.length
    rw [length_types_add]
    omega

theorem eachType_empty : EachType P {} := by
  intro k n hn
  cases hn

theorem EachType.add (h : EachType P b) {n : TypeNode}
    (hn : P b.types.length { n with id := b.nextId }) : EachType P (b.add n).2 := by
  intro k m hm
  rcases Nat.lt_trichotomy k b.types.length with hlt | rfl | hgt
  · exact h k m (by rwa [GraphBuilder.add, List.getElem?_append_left hlt] at hm)
  · simp only [GraphBuilder.add, List.getElem?_concat_length, Option.some.injEq] at hm
    exact hm ▸ hn
  · rw [List.getElem?_eq_none (by rw [length_types_add]; exact hgt)] at hm
    cases hm

theorem EachType.exportAs (h : EachType P b) (name : String) (t : TypeId) :
    EachType P (b.exportAs name t).2 := h

theorem EachType.display (h : EachType P b) (t : TypeId) (text : String)
    (hdisplay : ∀ k n, P k n → P k { n with display := some text }) :
    EachType P (b.display t text).2 := by
  intro k m hm
  simp only [GraphBuilder.display, List.getElem?_modify] at hm
  obtain ⟨n, hn, rfl⟩ := Option.map_eq_some_iff.1 hm
  split
  · exact hdisplay k n (h k n hn)
  · exact h k n hn

/-! ## Every run -/

/-- A type has its position as id, and its value, if it has one, is a literal. -/
structure BuiltAt (k : Nat) (n : TypeNode) : Prop where
  id_eq : n.id = ⟨UInt32.ofNat k⟩
  literal : ∀ v ∈ n.value, v.IsLiteral

theorem BuiltAt.of_value_none {k : Nat} {n : TypeNode} (hid : n.id = ⟨UInt32.ofNat k⟩)
    (hvalue : n.value = none) : BuiltAt k n :=
  ⟨hid, fun v hv => by rw [hvalue] at hv; cases hv⟩

theorem BuiltAt.of_value_some {k : Nat} {n : TypeNode} {v : Json}
    (hid : n.id = ⟨UInt32.ofNat k⟩) (hvalue : n.value = some v) (hv : v.IsLiteral) :
    BuiltAt k n :=
  ⟨hid, fun _ hw => Option.some.inj (hvalue.symm.trans hw) ▸ hv⟩

/-- What a step adds has its position as id, and what is there already keeps it. -/
theorem EachType.builtAt_perform (h : EachType BuiltAt b) (s : BuildStep) :
    EachType BuiltAt (b.perform s).2 := by
  cases s with
  | stringLiteral value => exact h.add (.of_value_some rfl rfl (.string value))
  | numberLiteral value => exact h.add (.of_value_some rfl rfl (.integer value))
  | booleanLiteral value => exact h.add (.of_value_some rfl rfl (.bool value))
  | component name props =>
    exact ((h.add (.of_value_none rfl rfl)).add (.of_value_none rfl rfl)).exportAs name _
  | exportAs name type => exact h.exportAs name type
  | display type text => exact h.display type text fun _ _ hn => ⟨hn.id_eq, hn.literal⟩
  | _ => exact h.add (.of_value_none rfl rfl)

/-- In every run ids are positions and values are literals. -/
theorem EachType.builtAt_performAll (h : EachType BuiltAt b) (steps : List BuildStep) :
    EachType BuiltAt (b.performAll steps) := by
  induction steps generalizing b with
  | nil => exact h
  | cons s steps ih => exact ih (h.builtAt_perform s)

/-! ## Grounded runs -/

/-- References lead to earlier positions, and exports are types. -/
structure Descending (b : GraphBuilder) : Prop where
  references : EachType (fun k n => ∀ t ∈ n.references, t.value.toNat < k) b
  components : ∀ c ∈ b.components, c.type.value.toNat < b.types.length

/-- Ids begin anew after 2^32 types, so they are never too large. -/
theorem toNat_nextId_le (b : GraphBuilder) : b.nextId.value.toNat ≤ b.types.length := by
  rw [nextId, UInt32.toNat_ofNat']
  exact Nat.mod_le _ _

theorem toNat_nextId_lt (b : GraphBuilder) (n : TypeNode) :
    b.nextId.value.toNat < (b.add n).2.types.length := by
  rw [length_types_add]
  exact Nat.lt_succ_of_le b.toNat_nextId_le

theorem toNat_perform_lt (s : BuildStep)
    (hs : ∀ t ∈ s.arguments, t.value.toNat < b.types.length) :
    (b.perform s).1.value.toNat < (b.perform s).2.types.length := by
  cases s with
  | component name props => exact toNat_nextId_lt _ _
  | exportAs name type => exact hs type List.mem_cons_self
  | display type text =>
    rw [perform, length_types_display]
    exact hs type List.mem_cons_self
  | _ => exact toNat_nextId_lt b _

theorem descending_empty : Descending {} := ⟨eachType_empty, List.forall_mem_nil _⟩

theorem Descending.add (h : Descending b) {n : TypeNode}
    (hn : ∀ t ∈ n.references, t.value.toNat < b.types.length) : Descending (b.add n).2 := by
  refine ⟨h.references.add hn, fun c hc => ?_⟩
  rw [length_types_add]
  exact Nat.lt_succ_of_lt (h.components c hc)

theorem Descending.exportAs (h : Descending b) {t : TypeId} (ht : t.value.toNat < b.types.length)
    (name : String) : Descending (b.exportAs name t).2 := by
  refine ⟨h.references, fun c hc => ?_⟩
  rcases List.mem_append.1 hc with hc | hc
  · exact h.components c hc
  · rw [List.mem_singleton.1 hc]
    exact ht

theorem Descending.display (h : Descending b) (t : TypeId) (text : String) :
    Descending (b.display t text).2 := by
  refine ⟨h.references.display t text fun _ _ => id, fun c hc => ?_⟩
  rw [length_types_display]
  exact h.components c hc

theorem Descending.perform (h : Descending b) (s : BuildStep)
    (hs : ∀ t ∈ s.arguments, t.value.toNat < b.types.length) : Descending (b.perform s).2 := by
  cases s with
  | component name props =>
    -- Two types are added: that of the result, and a function from the properties to it.
    have hprops := hs props List.mem_cons_self
    refine Descending.exportAs (.add (.add h ?_) ?_) (toNat_nextId_lt _ _) name
    · simp [TypeNode.references]
    · intro t ht
      rw [length_types_add]
      rcases List.mem_pair.1 ht with rfl | rfl
      · exact Nat.lt_succ_of_lt hprops
      · exact Nat.lt_succ_of_le b.toNat_nextId_le
  | exportAs name type => exact h.exportAs (hs type List.mem_cons_self) name
  | display type text => exact h.display type text
  | primitive _ | stringLiteral _ | numberLiteral _ | booleanLiteral _ | named _ =>
    exact h.add (List.forall_mem_nil _)
  | _ =>
    refine h.add fun t ht => hs t ?_
    simpa [TypeNode.references, BuildStep.arguments, Signature.references] using ht

/-- In a grounded run references lead to earlier types. -/
theorem Descending.performAll (h : Descending b) {given : List TypeId}
    (hgiven : ∀ t ∈ given, t.value.toNat < b.types.length) {steps : List BuildStep}
    (hsteps : Grounded given b steps) : Descending (b.performAll steps) := by
  induction steps generalizing b given with
  | nil => exact h
  | cons s steps ih =>
    obtain ⟨hs, hrest⟩ := hsteps
    have harguments : ∀ t ∈ s.arguments, t.value.toNat < b.types.length :=
      fun t ht => hgiven t (hs t ht)
    refine ih (h.perform s harguments) (fun t ht => ?_) hrest
    -- What was given out before is still there, as no step takes a type away.
    rcases List.mem_cons.1 ht with rfl | ht
    · exact toNat_perform_lt s harguments
    · exact Nat.lt_of_lt_of_le (hgiven t ht) (b.length_types_le_perform s)

/-! ## What is built -/

section Built

variable (hb : EachType BuiltAt b) (hsize : b.types.length ≤ 2 ^ 32)
include hb

theorem ids_eq : b.types.map (·.id) =
    (List.range b.types.length).map fun k => (⟨UInt32.ofNat k⟩ : TypeId) := by
  refine List.ext_getElem (by simp) fun k hk _ => ?_
  have hlt : k < b.types.length := by simpa using hk
  rw [List.getElem_map, List.getElem_map, List.getElem_range]
  exact (hb k _ (List.getElem?_eq_getElem hlt)).id_eq

include hsize

/-- An id is that of a type if it is smaller than the number of types. -/
theorem mem_ids_iff (t : TypeId) : t ∈ b.types.map (·.id) ↔ t.value.toNat < b.types.length := by
  rw [ids_eq hb, List.mem_map]
  constructor
  · rintro ⟨k, hk, rfl⟩
    rw [List.mem_range] at hk
    rwa [UInt32.toNat_ofNat_of_lt' (Nat.lt_of_lt_of_le hk hsize)]
  · intro ht
    exact ⟨t.value.toNat, List.mem_range.2 ht, by rw [UInt32.ofNat_toNat]⟩

theorem nodup_ids : (b.types.map (·.id)).Nodup := by
  rw [ids_eq hb]
  refine List.Nodup.map_on (fun j hj k hk h => ?_) List.nodup_range
  have hvalue : UInt32.ofNat j = UInt32.ofNat k := congrArg TypeId.value h
  have hlt : ∀ i ∈ List.range b.types.length, i < 2 ^ 32 :=
    fun i hi => Nat.lt_of_lt_of_le (List.mem_range.1 hi) hsize
  rw [← UInt32.toNat_ofNat_of_lt' (hlt j hj), hvalue, UInt32.toNat_ofNat_of_lt' (hlt k hk)]

/-- What is built is consistent if all ids in it are smaller than the number of types. -/
theorem consistent_document_iff :
    b.document.Consistent ↔
      (∀ n ∈ b.types, ∀ t ∈ n.references, t.value.toNat < b.types.length) ∧
        ∀ c ∈ b.components, c.type.value.toNat < b.types.length := by
  have hmem := mem_ids_iff hb hsize
  constructor
  · rintro ⟨-, hreferences, hcomponents⟩
    exact ⟨fun n hn t ht => (hmem t).1 (hreferences n hn t ht),
      fun c hc => (hmem c.type).1 (hcomponents c hc)⟩
  · rintro ⟨hreferences, hcomponents⟩
    exact ⟨nodup_ids hb hsize, fun n hn t ht => (hmem t).2 (hreferences n hn t ht),
      fun c hc => (hmem c.type).2 (hcomponents c hc)⟩

end Built

end GraphBuilder

end ComponentViews
