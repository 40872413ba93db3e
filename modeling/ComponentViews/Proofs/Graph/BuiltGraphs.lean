import ComponentViews.Proofs.Classification.Acyclic
import ComponentViews.Proofs.Graph.Serialization

/-!
# Graphs that were built

A builder makes a graph of its types without looking whether they are consistent. In a grounded run
this is the graph of the document that was built, and that of the texts of this document, and as
references lead to earlier types only, no type is met while it is being classified.

## Main results

* `Classifier.not_mem_of_occurs`: where edges lead down no type is met within itself.
* `Graph.ofDocument_ne_duplicateId`: where ids are distinct no duplicate id is reported.
* `GraphBuilder.graph_of_steps`: what runs of a builder make.
-/

namespace ComponentViews

open Relation

/-- Where edges lead to smaller ranks no type is met within itself. -/
theorem Classifier.not_mem_of_occurs {c : Classifier} {rank : TypeId → Nat}
    (h : ∀ t b, c.graph.Edge t b → rank b < rank t) {s : List TypeId} {t u : TypeId}
    (hu : c.Occurs [] t s u) : u ∉ s ∧ NotCircular (c.classifyIn s u).value := by
  have hacyclic : ∀ v, c.graph.Acyclic v := TypeGraph.acyclic_of_rank h
  have hentered := hu.not_mem_of_reaches (hacyclic t) fun _ _ => List.not_mem_nil
  -- Outside its own ancestors a type is classified as it would be without looking for them.
  refine ⟨hentered u ReflTransGen.refl, ?_⟩
  rw [classifyIn_eq_plain ⟨u, hacyclic u⟩ s hentered]
  exact notCircular_classifyPlain _

theorem Graph.ofDocument_ne_duplicateId {d : GraphDocument} (h : (d.types.map (·.id)).Nodup)
    (id : TypeId) : ofDocument d ≠ .error (.duplicateId id) := by
  have hnone : firstRepeated? [] (d.types.map (·.id)) = none :=
    (firstRepeated?_eq_none_iff _ _).2 ⟨h, fun _ _ => List.not_mem_nil⟩
  have hdefect : d.defect? ≠ some (.duplicateId id) := by
    simp only [GraphDocument.defect?, hnone]
    split
    · simp
    · split <;> simp
  rw [ofDocument]
  split
  · rename_i e he
    intro herror
    exact hdefect (he.trans (congrArg some (Except.error.inj herror)))
  · simp

namespace GraphBuilder

variable {b : GraphBuilder}

theorem toNat_id_eq (hb : EachType BuiltAt b) (hsize : b.types.length ≤ 2 ^ 32) {k : Nat}
    {n : TypeNode} (hn : b.types[k]? = some n) : n.id.value.toNat = k := by
  obtain ⟨hk, -⟩ := List.getElem?_eq_some_iff.1 hn
  rw [(hb k n hn).id_eq]
  exact UInt32.toNat_ofNat_of_lt' (Nat.lt_of_lt_of_le hk hsize)

/-- A type that is built is made of types with smaller ids. -/
theorem lt_of_mem_constituents (hb : EachType BuiltAt b) (hsize : b.types.length ≤ 2 ^ 32)
    (hd : Descending b) {n : TypeNode} (hn : n ∈ b.types) {t : TypeId} (ht : t ∈ n.constituents) :
    t.value.toNat < n.id.value.toNat := by
  obtain ⟨k, hk⟩ := List.mem_iff_getElem?.1 hn
  rw [toNat_id_eq hb hsize hk]
  refine hd.references k n hk t ?_
  exact List.mem_append_left _ (List.mem_append_left _ ht)

theorem Descending.consistent (hd : Descending b) (hb : EachType BuiltAt b)
    (hsize : b.types.length ≤ 2 ^ 32) : b.document.Consistent := by
  refine (consistent_document_iff hb hsize).2 ⟨fun n hn t ht => ?_, hd.components⟩
  obtain ⟨k, hk⟩ := List.mem_iff_getElem?.1 hn
  obtain ⟨hlt, -⟩ := List.getElem?_eq_some_iff.1 hk
  exact (hd.references k n hk t ht).trans hlt

theorem ofText_document (hb : EachType BuiltAt b) {text : String}
    (htext : text = b.document.toJson.compact ∨ text = b.document.toJson.pretty) :
    GraphDocument.ofText .json text = .ok b.document := by
  have hliteral : ∀ n ∈ b.document.types, ∀ v ∈ n.value, v.IsLiteral := by
    intro n hn
    obtain ⟨k, hk⟩ := List.mem_iff_getElem?.1 hn
    exact (hb k n hk).literal
  have hread := GraphDocument.ofText_json htext (fun n hn v hv => (hliteral n hn v hv).plain)
    fun n hn v hv => (hliteral n hn v hv).ordered
  rwa [withoutNulls_document hb] at hread

/-- **Graphs are built without being checked.** Whatever ids the steps of a run are given, up to 2^32
types have distinct ids, and the document has a graph if every id in it is smaller than the number
of types. In a grounded run ids are positions, references lead to smaller ids, and the graph that is
built is that of the document and of its texts; no type is ever met within itself. -/
theorem graph_of_steps (steps : List BuildStep)
    (hsize : (performAll {} steps).types.length ≤ 2 ^ 32) :
    let b := performAll {} steps
    (Grounded [] {} steps →
      (∀ (k : Nat) (n : TypeNode), b.types[k]? = some n →
        n.id.value.toNat = k ∧ ∀ t ∈ n.references, t.value.toNat < k) ∧
      Graph.ofDocument b.document = .ok b.graph ∧
      (∀ text, text = b.document.toJson.compact ∨ text = b.document.toJson.pretty →
        Graph.ofText .json text = .ok b.graph) ∧
      ∀ conventions : Conventions,
        let c : Classifier := ⟨b.graph, conventions⟩
        ∀ t s u, c.Occurs [] t s u → u ∉ s ∧ Classifier.NotCircular (c.classifyIn s u).value) ∧
    (∀ id, Graph.ofDocument b.document ≠ .error (.duplicateId id)) ∧
    ((∃ g, Graph.ofDocument b.document = .ok g) ↔
      (∀ n ∈ b.types, ∀ t ∈ n.references, t.value.toNat < b.types.length) ∧
        ∀ c ∈ b.components, c.type.value.toNat < b.types.length) := by
  intro b
  -- Ids are positions; in a grounded run, types refer to earlier positions only.
  have hb : EachType BuiltAt b := eachType_empty.builtAt_performAll steps
  refine ⟨fun hgrounded => ?_, Graph.ofDocument_ne_duplicateId (nodup_ids hb hsize), ?_⟩
  · have hd : Descending b := descending_empty.performAll (List.forall_mem_nil _) hgrounded
    have hgraph : Graph.ofDocument b.document = .ok b.graph :=
      (Graph.ofDocument_eq_ok_iff _ _).2 ⟨hd.consistent hb hsize, rfl⟩
    refine ⟨fun k n hn => ⟨toNat_id_eq hb hsize hn, hd.references k n hn⟩, hgraph,
      fun text htext => ?_, ?_⟩
    · rw [Graph.ofText, ofText_document hb htext]
      exact hgraph
    · intro conventions c t s u hu
      exact Classifier.not_mem_of_occurs
        (Graph.lt_of_edge fun n hn t ht => lt_of_mem_constituents hb hsize hd hn ht) hu
  · -- A document has a graph exactly if it is consistent.
    rw [← consistent_document_iff hb hsize]
    simp only [Graph.ofDocument_eq_ok_iff]
    exact ⟨fun ⟨_, h, _⟩ => h, fun h => ⟨_, h, rfl⟩⟩

/-- A component whose label is a string or a number, or a list of either. -/
def badgeSteps : List BuildStep :=
  [.primitive TypeFlags.string, .numberLiteral (-5), .union [⟨0⟩, ⟨1⟩], .array ⟨2⟩,
    .union [⟨3⟩, ⟨2⟩], .object [⟨"label", ⟨4⟩, "Line\nfeed"⟩], .component "Badge" ⟨5⟩,
    .display ⟨2⟩ "Label", .exportAs "Labels" ⟨3⟩]

/-- The graph of the badge is that of its document and of the text of the document. -/
theorem graph_of_steps_badge :
    let b := performAll {} badgeSteps
    b.types.length ≤ 2 ^ 32 ∧ Grounded [] {} badgeSteps ∧
      Graph.ofDocument b.document = .ok b.graph ∧
      Graph.ofText .json b.document.toJson.pretty = .ok b.graph ∧
      Classifier.NotCircular ((⟨b.graph, {}⟩ : Classifier).classify ⟨4⟩).value := by
  intro b
  have hsize : b.types.length ≤ 2 ^ 32 := by decide
  have hgrounded : Grounded [] {} badgeSteps := by decide
  obtain ⟨-, hgraph, htext, hclassify⟩ := (graph_of_steps badgeSteps hsize).1 hgrounded
  exact ⟨hsize, hgrounded, hgraph, htext _ (.inr rfl), (hclassify {} ⟨4⟩ [] ⟨4⟩ .root).2⟩

end GraphBuilder

end ComponentViews
