import ComponentViews.Graph.Loading
import ComponentViews.Proofs.Graph.Building
import ComponentViews.Proofs.Graph.Flags
import ComponentViews.Proofs.Json.Faithful

/-!
# Graph documents are read back

A document that is written as a JSON value is read back from all data that shows the value, but for
one thing: where the value of a literal type is the null value, it is read as absent. Neither a
document that was read from a text nor one that was built has such a value.

## Main definitions

* `GraphDocument.withoutNulls`: a document without the values of types that are null.

## Main results

* `TypeNode.recovers`, `GraphDocument.recovers`: what is written is read back.
* `GraphDocument.plain_toJson`: a document whose values are plain is written as a plain value.
* `GraphDocument.withoutNulls_of_ofText`, `GraphBuilder.withoutNulls_document`: documents that were
  read or built have no null values.
* `GraphDocument.read_toJson`: reading is the inverse of writing.
-/

namespace ComponentViews

/-- A value other than the null value. -/
def Json.nonNull? : Json → Option Json
  | .null => none
  | v => some v

/-- A type without its value if that is the null value. -/
def TypeNode.withoutNull (n : TypeNode) : TypeNode := { n with value := n.value.bind Json.nonNull? }

/-- A document with the values left out that are the null value. -/
def GraphDocument.withoutNulls (d : GraphDocument) : GraphDocument :=
  { d with types := d.types.map TypeNode.withoutNull }

section Reading

variable {σ : Type} [DataSource σ Option] {Shows : σ → Json → Prop} {Legible : Json → Prop}

/-! ## Reading what is written -/

theorem TypeId.recovers (hf : Faithful Shows Legible) (t : TypeId) :
    Recovers Shows read t.toJson t := by
  intro s hs
  simp [read, hf.word hs]

theorem recovers_typeIds (hf : Faithful Shows Legible) (ts : List TypeId) :
    Recovers Shows (readList TypeId.read) (.array (ts.map TypeId.toJson)) ts :=
  hf.recovers_list_self fun t _ => t.recovers hf

theorem TypeFlags.recovers (hf : Faithful Shows Legible) (f : TypeFlags) :
    Recovers Shows read (.string f.text) f := by
  intro s hs
  simp [read, hf.text hs, ofText?_text]

theorem Signature.recovers (hf : Faithful Shows Legible) (x : Signature) :
    Recovers Shows read x.toJson x := by
  intro s hs
  obtain ⟨f, hfields, h⟩ := hf.exists_readFields ["parameters", "return_type"] (.refl _)
    (by decide) hs
  have hparameters : f.withDefault "parameters" [] (readList TypeId.read) = some x.parameters :=
    h.withDefault_of_some (by simp [valueOf?_cons]) (recovers_typeIds hf _) []
  have hreturnType : f.required "return_type" TypeId.read = some x.returnType :=
    h.required (by simp [valueOf?_cons]) (x.returnType.recovers hf)
  simp [read, hfields, hparameters, hreturnType]

theorem PropertySymbol.recovers (hf : Faithful Shows Legible) (p : PropertySymbol) :
    Recovers Shows read p.toJson p := by
  intro s hs
  obtain ⟨f, hfields, h⟩ := hf.exists_readFields ["name", "type", "documentation"]
    (by
      rw [List.map_append]
      refine (List.Sublist.refl ["name", "type"]).append ?_
      split
      · exact List.nil_sublist _
      · exact .refl _)
    (by decide) hs
  have hname : f.required "name" DataSource.text = some p.name :=
    h.required (by simp [valueOf?_cons]) (hf.recovers_text _)
  have htype : f.required "type" TypeId.read = some p.type :=
    h.required (by simp [valueOf?_cons]) (p.type.recovers hf)
  have hdocumentation : f.withDefault "documentation" "" DataSource.text =
      some p.documentation := by
    -- Empty documentation is not written; it is the default.
    by_cases hempty : p.documentation = ""
    · rw [hempty]
      exact h.withDefault_of_none (by simp [valueOf?_cons, hempty]) ""
    · exact h.withDefault_of_some (by simp [valueOf?_cons, hempty]) (hf.recovers_text _) ""
  simp [read, hfields, hname, htype, hdocumentation]

/-- The value of a type is read as it is, but for the null value. -/
theorem option_value (hf : Faithful Shows Legible) {f : Fields σ} {fields : List (String × Json)}
    {name : String} (h : f.Reflect Shows fields) {o : Option Json}
    (hv : valueOf? fields name = o) (hlegible : ∀ v ∈ o, Legible v) :
    f.option name DataSource.value = some (o.bind Json.nonNull?) := by
  have hid : valueOf? fields name = o.map id := by rw [Option.map_id, hv, id]
  -- The null value is written, but it is how an absent value is read.
  cases o with
  | none => exact h.optionField hf hid fun _ hnone => nomatch hnone
  | some v =>
    cases v with
    | null => exact h.option_of_null hf hv
    | _ =>
      refine h.optionField hf hid fun w hw => ?_
      obtain rfl := Option.some.inj hw
      exact ⟨Json.noConfusion, fun s hs => hf.value hs (hlegible _ rfl)⟩

theorem TypeNode.recovers (hf : Faithful Shows Legible) (n : TypeNode)
    (hvalue : ∀ v ∈ n.value, Legible v) : Recovers Shows read n.toJson n.withoutNull := by
  intro s hs
  obtain ⟨f, hfields, h⟩ := hf.exists_readFields
    ["id", "flags", "display", "symbol", "value", "union", "intersection",
      "type_arguments", "signatures", "properties"]
    (by
      simp only [List.map_append]
      exact ((((((((List.Sublist.refl ["id", "flags"]).append
        (keys_optionField_sublist _ _)).append (keys_optionField_sublist _ _)).append
        (keys_optionField_sublist _ _)).append (keys_listField_sublist _ _)).append
        (keys_listField_sublist _ _)).append (keys_listField_sublist _ _)).append
        (keys_listField_sublist _ _)).append (keys_listField_sublist _ _))
    (by decide) hs
  -- Each field is found where it is written, and has its default where it is left out.
  have hid : f.required "id" TypeId.read = some n.id :=
    h.required (by simp [valueOf?_cons]) (n.id.recovers hf)
  have hflags : f.withDefault "flags" TypeFlags.empty TypeFlags.read = some n.flags :=
    h.withDefault_of_some (by simp [valueOf?_cons]) (n.flags.recovers hf) _
  have hdisplay : f.option "display" DataSource.text = some n.display :=
    h.optionField hf (by simp [valueOf?_append, valueOf?_cons]) fun _ _ =>
      ⟨Json.noConfusion, hf.recovers_text _⟩
  have hsymbol : f.option "symbol" DataSource.text = some n.symbol :=
    h.optionField hf (by simp [valueOf?_append, valueOf?_cons]) fun _ _ =>
      ⟨Json.noConfusion, hf.recovers_text _⟩
  have hvalue : f.option "value" DataSource.value = some (n.value.bind Json.nonNull?) :=
    option_value hf h (by simp [valueOf?_append, valueOf?_cons]) hvalue
  have hunion : f.withDefault "union" [] (readList TypeId.read) = some n.union :=
    h.listField hf (by simp [valueOf?_append, valueOf?_cons]) fun t _ => t.recovers hf
  have hintersection : f.withDefault "intersection" [] (readList TypeId.read) =
      some n.intersection :=
    h.listField hf (by simp [valueOf?_append, valueOf?_cons]) fun t _ => t.recovers hf
  have htypeArguments : f.withDefault "type_arguments" [] (readList TypeId.read) =
      some n.typeArguments :=
    h.listField hf (by simp [valueOf?_append, valueOf?_cons]) fun t _ => t.recovers hf
  have hsignatures : f.withDefault "signatures" [] (readList Signature.read) = some n.signatures :=
    h.listField hf (by simp [valueOf?_append, valueOf?_cons]) fun x _ => x.recovers hf
  have hproperties : f.withDefault "properties" [] (readList PropertySymbol.read) =
      some n.properties :=
    h.listField hf (by simp [valueOf?_append, valueOf?_cons]) fun p _ => p.recovers hf
  simp [read, hfields, hid, hflags, hdisplay, hsymbol, hvalue, hunion, hintersection,
    htypeArguments, hsignatures, hproperties, withoutNull]

theorem ComponentEntry.recovers (hf : Faithful Shows Legible) (c : ComponentEntry) :
    Recovers Shows read c.toJson c := by
  intro s hs
  obtain ⟨f, hfields, h⟩ := hf.exists_readFields ["name", "type"] (.refl _)
    (by decide) hs
  have hname : f.required "name" DataSource.text = some c.name :=
    h.required (by simp [valueOf?_cons]) (hf.recovers_text _)
  have htype : f.required "type" TypeId.read = some c.type :=
    h.required (by simp [valueOf?_cons]) (c.type.recovers hf)
  simp [read, hfields, hname, htype]

/-- A document is read back, but for the values that are the null value. -/
theorem GraphDocument.recovers (hf : Faithful Shows Legible) (d : GraphDocument)
    (hvalues : ∀ n ∈ d.types, ∀ v ∈ n.value, Legible v) :
    Recovers Shows read d.toJson d.withoutNulls := by
  intro s hs
  obtain ⟨f, hfields, h⟩ := hf.exists_readFields ["types", "components"] (.refl _)
    (by decide) hs
  have htypes : f.withDefault "types" [] (readList TypeNode.read) =
      some (d.types.map TypeNode.withoutNull) :=
    h.withDefault_of_some (by simp [valueOf?_cons])
      (hf.recovers_list fun n hn => n.recovers hf (hvalues n hn)) []
  have hcomponents : f.withDefault "components" [] (readList ComponentEntry.read) =
      some d.components :=
    h.withDefault_of_some (by simp [valueOf?_cons])
      (hf.recovers_list_self fun c _ => c.recovers hf) []
  simp [read, hfields, htypes, hcomponents, withoutNulls]

end Reading

/-! ## Documents without null values -/

theorem TypeNode.withoutNull_eq_self {n : TypeNode} (h : n.value ≠ some .null) :
    n.withoutNull = n := by
  have hvalue : n.value.bind Json.nonNull? = n.value := by
    cases hv : n.value with
    | none => rfl
    | some v =>
      cases v with
      | null => exact absurd hv h
      | _ => rfl
  rw [withoutNull, hvalue]

theorem GraphDocument.withoutNulls_eq_self {d : GraphDocument}
    (h : ∀ n ∈ d.types, n.value ≠ some .null) : d.withoutNulls = d := by
  have htypes : d.types.map TypeNode.withoutNull = d.types :=
    (List.map_congr_left fun n hn => TypeNode.withoutNull_eq_self (h n hn)).trans (List.map_id _)
  rw [withoutNulls, htypes]

theorem GraphBuilder.withoutNulls_document {b : GraphBuilder} (hb : EachType BuiltAt b) :
    b.document.withoutNulls = b.document := by
  refine GraphDocument.withoutNulls_eq_self fun n hn hnull => ?_
  obtain ⟨k, hk⟩ := List.mem_iff_getElem?.1 hn
  nomatch (hb k n hk).literal .null hnull

/-- Only the word for the null value denotes it. -/
theorem JsonSyntax.eq_null_of_value? {t : JsonSyntax} {room : Nat}
    (h : t.value? room = some .null) : t = .null := by
  cases t with
  | null => rfl
  | array items => cases room <;> simp [value?] at h
  | object fields => cases room <;> simp [value?] at h
  | _ => simp [value?] at h

theorem option_value_ne_null {f : Fields JsonText} {name : String} {o : Option Json}
    (h : f.option name DataSource.value = some o) : o ≠ some .null := by
  rintro rfl
  rw [Fields.option] at h
  cases hfind : f.find? name with
  | none => rw [hfind] at h; cases h
  | some t =>
    rw [hfind] at h
    obtain ⟨tree, room⟩ := t
    -- The word for the null value has been taken for an absent value before.
    cases tree with
    | null => cases h
    | _ =>
      simp only [DataSource.optional, DataSource.value, Option.bind_eq_bind, Option.bind_some] at h
      obtain ⟨v, hv, h⟩ := Option.bind_eq_some_iff.1 h
      obtain rfl : v = .null := Option.some.inj (Option.some.inj h)
      cases JsonSyntax.eq_null_of_value? hv

/-- A list that has been read consists of things that have been read. -/
theorem exists_of_mem_readList {σ α : Type} [DataSource σ Option] {read : σ → Option α} {s : σ}
    {xs : List α} (h : readList read s = some xs) : ∀ x ∈ xs, ∃ piece, read piece = some x := by
  obtain ⟨pieces, -, hread⟩ := Option.bind_eq_some_iff.1 h
  clear h
  induction pieces generalizing xs with
  | nil =>
    obtain rfl : [] = xs := Option.some.inj hread
    exact List.forall_mem_nil _
  | cons piece pieces ih =>
    rw [List.mapM_cons] at hread
    obtain ⟨x, hx, hread⟩ := Option.bind_eq_some_iff.1 hread
    obtain ⟨rest, hrest, hread⟩ := Option.bind_eq_some_iff.1 hread
    obtain rfl : x :: rest = xs := Option.some.inj hread
    exact List.forall_mem_cons.2 ⟨⟨piece, hx⟩, ih hrest⟩

theorem TypeNode.value_ne_null_of_read {t : JsonText} {n : TypeNode} (h : read t = some n) :
    n.value ≠ some .null := by
  simp only [read, Option.bind_eq_bind, Option.bind_eq_some_iff] at h
  obtain ⟨f, -, _, -, _, -, _, -, _, -, value, hvalue, _, -, _, -, _, -, _, -, _, -, hn⟩ := h
  obtain rfl := Option.some.inj hn
  exact option_value_ne_null hvalue

/-- A document that is read from a text has no null values. -/
theorem GraphDocument.withoutNulls_of_ofText {text : String} {d : GraphDocument}
    (h : ofText .json text = .ok d) : d.withoutNulls = d := by
  have hread : readJsonText? read text = some d := by
    simp only [ofText] at h
    cases hd : readJsonText? read text with
    | none => rw [hd] at h; cases h
    | some d' => rw [hd] at h; exact congrArg some (Except.ok.inj h)
  obtain ⟨t, -, hread⟩ := Option.bind_eq_some_iff.1 hread
  simp only [read, Option.bind_eq_bind, Option.bind_eq_some_iff] at hread
  obtain ⟨f, -, types, htypes, _, -, hd⟩ := hread
  obtain rfl := Option.some.inj hd
  refine withoutNulls_eq_self fun n hn => ?_
  rw [Fields.withDefault] at htypes
  -- Without the field there are no types; with it, each type was read from a piece.
  cases hfind : f.find? "types" with
  | none =>
    rw [hfind] at htypes
    obtain rfl : [] = types := Option.some.inj htypes
    cases hn
  | some s =>
    rw [hfind] at htypes
    obtain ⟨piece, hpiece⟩ := exists_of_mem_readList htypes n hn
    exact TypeNode.value_ne_null_of_read hpiece

/-! ## Texts -/

theorem TypeId.plain_toJson (t : TypeId) {room : Nat} : t.toJson.Plain room := by
  have hlt : t.value.toNat < 2 ^ 32 := t.value.toNat_lt
  exact .integer ⟨by omega, by omega⟩

theorem plain_typeIds (ts : List TypeId) {room : Nat} :
    (Json.array (ts.map TypeId.toJson)).Plain (room + 1) :=
  .array_map fun t _ => t.plain_toJson

theorem Signature.plain_toJson (x : Signature) {room : Nat} : x.toJson.Plain (room + 2) := by
  refine .object ?_
  simp only [List.forall_mem_cons]
  exact ⟨plain_typeIds _, x.returnType.plain_toJson, List.forall_mem_nil _⟩

theorem PropertySymbol.plain_toJson (p : PropertySymbol) {room : Nat} :
    p.toJson.Plain (room + 1) := by
  refine .object ?_
  simp only [List.forall_mem_append, List.forall_mem_cons]
  refine ⟨⟨.string _, p.type.plain_toJson, List.forall_mem_nil _⟩, ?_⟩
  split
  · exact List.forall_mem_nil _
  · simp only [List.forall_mem_cons]
    exact ⟨.string _, List.forall_mem_nil _⟩

theorem TypeNode.plain_toJson (n : TypeNode) {room : Nat}
    (h : ∀ v ∈ n.value, v.Plain (room + 3)) : n.toJson.Plain (room + 4) := by
  refine .object ?_
  simp only [List.forall_mem_append, List.forall_mem_cons, forall_mem_optionField,
    forall_mem_listField]
  exact ⟨⟨⟨⟨⟨⟨⟨⟨⟨n.id.plain_toJson, .string _, List.forall_mem_nil _⟩, fun t _ => .string t⟩,
    fun t _ => .string t⟩, h⟩, fun _ => plain_typeIds _⟩, fun _ => plain_typeIds _⟩,
    fun _ => plain_typeIds _⟩, fun _ => .array_map fun x _ => x.plain_toJson⟩,
    fun _ => .array_map fun p _ => p.plain_toJson⟩

theorem ComponentEntry.plain_toJson (c : ComponentEntry) {room : Nat} :
    c.toJson.Plain (room + 1) := by
  refine .object ?_
  simp only [List.forall_mem_cons]
  exact ⟨.string _, c.type.plain_toJson, List.forall_mem_nil _⟩

/-- A document whose values are plain is written as a plain value. -/
theorem GraphDocument.plain_toJson (d : GraphDocument) {room : Nat}
    (h : ∀ n ∈ d.types, ∀ v ∈ n.value, v.Plain (room + 3)) : d.toJson.Plain (room + 6) := by
  refine .object ?_
  simp only [List.forall_mem_cons]
  exact ⟨.array_map fun n hn => n.plain_toJson (h n hn), .array_map fun c _ => c.plain_toJson,
    List.forall_mem_nil _⟩

theorem GraphDocument.ofText_json {d : GraphDocument} {text : String}
    (htext : text = d.toJson.compact ∨ text = d.toJson.pretty)
    (hplain : ∀ n ∈ d.types, ∀ v ∈ n.value, v.Plain 124)
    (hordered : ∀ n ∈ d.types, ∀ v ∈ n.value, v.Ordered) :
    ofText .json text = .ok d.withoutNulls := by
  have hrecovers := d.recovers JsonText.faithful hordered
  -- A value is inside the document, its list of types and a type: three of the 127 levels.
  have hroom : d.toJson.Plain (121 + 6) := d.plain_toJson hplain
  have hread : readJsonText? read text = some d.withoutNulls := by
    rcases htext with rfl | rfl
    · exact readJsonText?_compact hrecovers hroom
    · exact readJsonText?_pretty hrecovers hroom
  simp only [ofText, hread]

theorem Json.IsLiteral.plain {v : Json} (h : v.IsLiteral) {room : Nat} : v.Plain room := by
  cases h with
  | string s => exact .string s
  | integer n =>
    have hlt : n.toInt < 2 ^ 63 := n.toInt_lt
    exact .integer ⟨n.le_toInt, by omega⟩
  | bool b => exact .bool b

theorem Json.IsLiteral.ordered {v : Json} (h : v.IsLiteral) : v.Ordered := by
  cases h with
  | string s => exact .string s
  | integer n => exact .number _
  | bool b => exact .bool b

/-! ## The inverse -/

/-- **Reading is the inverse of writing.** A document that is written is read back with its types,
their flags, literal values and members, and its exports, but for literal values that are the null
value, which are read as absent. So a document that was read from a text or built is read back as it
was. -/
theorem GraphDocument.read_toJson :
    (∀ d : GraphDocument, read d.toJson = some d.withoutNulls) ∧
      (∀ (text : String) (d : GraphDocument), ofText .json text = .ok d → read d.toJson = some d) ∧
      ∀ steps : List BuildStep,
        read (GraphBuilder.performAll {} steps).document.toJson =
          some (GraphBuilder.performAll {} steps).document := by
  have hread : ∀ d : GraphDocument, read d.toJson = some d.withoutNulls := fun d =>
    d.recovers Json.faithful (fun _ _ _ _ => trivial) d.toJson rfl
  refine ⟨hread, fun text d h => ?_, fun steps => ?_⟩
  · rw [hread, withoutNulls_of_ofText h]
  · rw [hread, GraphBuilder.withoutNulls_document
      (GraphBuilder.eachType_empty.builtAt_performAll steps)]

/-- A literal type with the null value and with a flag that has no name. -/
def nullLiteral : GraphDocument where
  types := [{ id := ⟨7⟩, flags := ⟨0x80020000⟩, value := some .null }]
  components := []

/-- The text of the null literal is accepted as a type without a value, which is read back. -/
theorem GraphDocument.read_toJson_nullLiteral :
    let d : GraphDocument :=
      { types := [{ id := ⟨7⟩, flags := ⟨0x80020000⟩ }], components := [] }
    ofText .json nullLiteral.toJson.compact = .ok d ∧ read d.toJson = some d := by
  intro d
  have hvalue : ∀ n ∈ nullLiteral.types, ∀ v ∈ n.value, v = .null := by
    simp [nullLiteral]
  have htext : ofText .json nullLiteral.toJson.compact = .ok d := ofText_json (.inl rfl)
    (fun n hn v hv => hvalue n hn v hv ▸ .null) (fun n hn v hv => hvalue n hn v hv ▸ .null)
  exact ⟨htext, read_toJson.2.1 nullLiteral.toJson.compact d htext⟩

end ComponentViews
