import ComponentViews.Proofs.Yaml.Quoted
import ComponentViews.Yaml.Source

/-!
# Documents of a YAML text

Signs at the start of lines stand between the documents of a text. Values that consist of strings,
truth values, lists and objects are written without such signs: a line begins with the name of a field,
a hyphen with a space after it, or white space.

## Main definitions

* `splitDocuments`, `documentTexts`, `readYamlStream?`: the documents of a text.
* `Unmarked`: no line begins like a sign between documents.
* `Json.Textual`: values without numbers, whose fields have simple names.

## Main results

* `splitDocuments_of_unmarked`: a text without signs has one part.
* `Json.Textual.unmarked_yaml`: objects are written without signs.
-/

namespace ComponentViews

open Yaml

/-! ## Documents -/

namespace Yaml

/-- The parts of a text between the signs of documents, which stand at the start of a line, each with
whether the sign before it opens a document. -/
def splitDocuments (opened start : Bool) : List Char → List (Bool × List Char)
  | [] => [(opened, [])]
  | c :: cs =>
    if start && isDocumentMarker (c :: cs) then
      (opened, []) :: splitDocuments (c = '-') false (cs.drop 2)
    else (splitDocuments opened (isBreak c) cs).modifyHead fun (o, part) => (o, c :: part)
termination_by cs => cs.length
decreasing_by
  · simp only [List.length_drop, List.length_cons]
    omega
  · simp

/-- The documents of a text. Without a sign that opens it, a document has a token at least. -/
def documentTexts (cs : List Char) : List (List Char) :=
  ((splitDocuments false true cs).filter fun (opened, part) =>
    opened || tokens? part ≠ some []).map (·.2)

end Yaml

/-- Read all documents of a stream, in which there are no directives. -/
def readYamlStream? {α : Type} (read : YamlPiece → YamlReading α) (s : String) : Option (List α) :=
  (documentTexts s.toList).mapM fun part => readYamlText? read (String.ofList part)

namespace Yaml

/-! ## Texts without signs -/

/-- No line begins with a point, or with a hyphen that has no space after it, if the text begins at the
start of a line or within one. -/
def Unmarked : (start : Bool) → List Char → Prop
  | _, [] => True
  | start, c :: cs =>
    (start → c ≠ '.' ∧ (c = '-' → cs.head? = some ' ')) ∧ Unmarked (isBreak c) cs

theorem unmarked_nil (start : Bool) : Unmarked start [] := trivial

/-- A text without signs is a single part. -/
theorem splitDocuments_of_unmarked {start : Bool} {cs : List Char} (h : Unmarked start cs)
    (opened : Bool) : splitDocuments opened start cs = [(opened, cs)] := by
  induction cs generalizing start with
  | nil => rw [splitDocuments]
  | cons c cs ih =>
    have hmarker : (start && isDocumentMarker (c :: cs)) = false := by
      cases start with
      | false => rfl
      | true =>
        obtain ⟨hpoint, hhyphen⟩ := h.1 rfl
        rw [Bool.true_and]
        unfold isDocumentMarker
        split
        · rename_i heq
          obtain ⟨rfl, rfl⟩ := List.cons.inj heq
          cases hhyphen rfl
        · rename_i heq
          exact absurd (List.cons.inj heq).1 hpoint
        · rfl
    rw [splitDocuments, hmarker, ih h.2]
    rfl

/-- A text without signs has one document at most. -/
theorem documentTexts_of_unmarked {cs : List Char} (h : Unmarked true cs) :
    documentTexts cs = if tokens? cs = some [] then [] else [cs] := by
  rw [documentTexts, splitDocuments_of_unmarked h]
  by_cases hempty : tokens? cs = some [] <;> simp [hempty]

theorem Unmarked.of_true {cs : List Char} (h : Unmarked true cs) (start : Bool) :
    Unmarked start cs := by
  cases cs with
  | nil => trivial
  | cons c cs => exact ⟨fun _ => h.1 rfl, h.2⟩

theorem Unmarked.append {start : Bool} {cs ds : List Char} (hcs : Unmarked start cs)
    (hds : Unmarked true ds) : Unmarked start (cs ++ ds) := by
  induction cs generalizing start with
  | nil => exact hds.of_true start
  | cons c cs ih =>
    refine ⟨fun hstart => ⟨(hcs.1 hstart).1, fun hc => ?_⟩, ih hcs.2⟩
    have hhead : (cs ++ ds).head? = some ' ' := by
      rw [List.head?_append, (hcs.1 hstart).2 hc, Option.some_or]
    exact hhead

theorem Unmarked.flatMap {α : Type} {f : α → List Char} {xs : List α}
    (h : ∀ x ∈ xs, Unmarked true (f x)) : Unmarked true (xs.flatMap f) := by
  induction xs with
  | nil => trivial
  | cons x xs ih =>
    obtain ⟨hx, hxs⟩ := List.forall_mem_cons.1 h
    exact hx.append (ih hxs)

/-- Within a line there are no signs. -/
theorem Unmarked.append_line {cs ds : List Char} (hcs : ∀ c ∈ cs, isBreak c = false)
    (hds : Unmarked false ds) : Unmarked false (cs ++ ds) := by
  induction cs with
  | nil => exact hds
  | cons c cs ih =>
    obtain ⟨hc, hcs⟩ := List.forall_mem_cons.1 hcs
    refine ⟨Bool.noConfusion, ?_⟩
    rw [hc]
    exact ih hcs

theorem unmarked_line {cs : List Char} (hcs : ∀ c ∈ cs, isBreak c = false) : Unmarked false cs := by
  rw [← List.append_nil cs]
  exact Unmarked.append_line hcs trivial

/-- A line may begin with another character. -/
theorem unmarked_cons {c : Char} {cs : List Char} (hpoint : c ≠ '.') (hhyphen : c ≠ '-')
    (h : Unmarked (isBreak c) cs) : Unmarked true (c :: cs) :=
  ⟨fun _ => ⟨hpoint, fun hc => absurd hc hhyphen⟩, h⟩

theorem unmarked_spaces (n : Nat) {cs : List Char} (h : Unmarked true cs) :
    Unmarked true (spaces n ++ cs) := by
  induction n with
  | zero => exact h
  | succ n ih => exact unmarked_cons (by decide) (by decide) (ih.of_true _)

theorem unmarked_item {cs : List Char} (h : Unmarked false cs) : Unmarked true ('-' :: ' ' :: cs) :=
  ⟨fun _ => ⟨by decide, fun _ => rfl⟩, fun hbreak => absurd hbreak (by decide), h⟩

/-! ## Strings -/

/-- What follows a line break within a string is indented. -/
theorem unmarked_indentLines {write : Char → List Char}
    (hwrite : ∀ c, isBreak c = false → ∀ d ∈ write c, isBreak d = false) (indent : Nat)
    (broken : Bool) (cs : List Char) : Unmarked broken (indentLines write (indent + 1) broken cs) := by
  induction cs generalizing broken with
  | nil => trivial
  | cons c cs ih =>
    rw [indentLines]
    split
    · rename_i hc
      have hsign : c ≠ '.' ∧ c ≠ '-' := by
        constructor <;> rintro rfl <;> exact absurd hc (by decide)
      refine ⟨fun _ => ⟨hsign.1, fun h => absurd h hsign.2⟩, ?_⟩
      rw [hc]
      exact ih true
    · rename_i hc
      have hline := Unmarked.append_line (hwrite c (Bool.eq_false_iff.2 hc)) (ih false)
      cases broken with
      | false => exact hline
      | true => exact unmarked_cons (by decide) (by decide) (Unmarked.append_line
          (fun d hd => by rw [List.eq_of_mem_replicate hd]; rfl) hline)

/-- Lines of a string do not begin like signs between documents. -/
theorem unmarked_stringChars (indent : Nat) (s : String) :
    Unmarked false (stringChars (indent + 1) s) := by
  rw [stringChars]
  split
  · exact unmarked_line (isBreak_of_spelling_plain ‹_›)
  · have hquote : Unmarked true ['\''] := unmarked_cons (by decide) (by decide) trivial
    refine ⟨Bool.noConfusion, Unmarked.append ?_ ?_⟩
    · refine unmarked_indentLines (fun c hc d hd => ?_) indent false _
      rw [singleChar] at hd
      split at hd
      · simp only [List.mem_cons, List.not_mem_nil, or_false, or_self] at hd
        rw [hd]
        rfl
      · rwa [List.mem_singleton.1 hd]
    · split
      · exact unmarked_spaces _ hquote
      · exact hquote
  · exact unmarked_line fun _ => isBreak_of_mem_doubleChars
  · have hlines : Unmarked true (indentLines (fun c => [c]) (indent + 1) true s.toList) :=
      unmarked_indentLines (fun c hc d hd => by rwa [List.mem_singleton.1 hd]) indent true _
    have hchomping : ∀ c ∈ chompingChars s.toList, isBreak c = false := by
      rw [chompingChars]
      split <;> (try split_ifs) <;> simp [isBreak]
    rw [blockChars]
    refine ⟨Bool.noConfusion, Unmarked.append_line ?_
      (Unmarked.append_line hchomping ⟨Bool.noConfusion, hlines⟩)⟩
    split <;> simp [isBreak]

theorem unmarked_endLine {cs : List Char} (h : Unmarked false cs) : Unmarked false (endLine cs) := by
  rw [endLine]
  split
  · exact h
  · exact h.append (unmarked_cons (by decide) (by decide) trivial)

end Yaml

/-! ## Values -/

/-- Names of lower-case letters and underscores that are written as they are, and short enough for a
key. -/
def IsFieldName (k : String) : Prop :=
  spelling k.toList = .plain ∧ (∀ c ∈ k.toList, c.isLower ∨ c = '_') ∧ byteCount k.toList ≤ 1024

instance (k : String) : Decidable (IsFieldName k) :=
  have : Decidable (∀ c ∈ k.toList, c.isLower ∨ c = '_') := List.decidableBAll _ _
  inferInstanceAs (Decidable (_ ∧ _))

/-- Values of strings, truth values, lists, and objects whose fields have simple names. -/
inductive Json.Textual : Json → Prop
  | bool (b : Bool) : Textual (.bool b)
  | string (s : String) : Textual (.string s)
  | array {items : List Json} (h : ∀ x ∈ items, Textual x) : Textual (.array items)
  | object {fields : List (String × Json)} (hkeys : ∀ f ∈ fields, IsFieldName f.1)
    (h : ∀ f ∈ fields, Textual f.2) : Textual (.object fields)

namespace Yaml

theorem keyChars_of_isFieldName {k : String} (h : IsFieldName k) : keyChars k = k.toList := by
  have hlines : k.toList.any isBreak = false :=
    List.any_eq_false.2 fun c hc => Bool.eq_false_iff.1 (isBreak_of_spelling_plain h.1 c hc)
  rw [keyChars, hlines, stringChars, h.1]
  rfl

/-- A line that begins with the name of a field is no sign between documents. -/
theorem unmarked_keyChars {k : String} (h : IsFieldName k) {cs : List Char}
    (hcs : Unmarked false cs) : Unmarked true (keyChars k ++ ':' :: cs) := by
  rw [keyChars_of_isFieldName h]
  have hafter : Unmarked false (':' :: cs) := ⟨Bool.noConfusion, hcs⟩
  cases hk : k.toList with
  | nil => exact unmarked_cons (by decide) (by decide) hcs
  | cons c rest =>
    have hname := h
    rw [IsFieldName, hk] at hname
    have hline := List.forall_mem_cons.1 (isBreak_of_spelling_plain hname.1)
    refine unmarked_cons ?_ ?_ ?_
    · rintro rfl
      exact absurd (hname.2.1 '.' List.mem_cons_self) (by decide)
    · rintro rfl
      exact absurd (hname.2.1 '-' List.mem_cons_self) (by decide)
    · rw [hline.1]
      exact Unmarked.append_line hline.2 hafter

/-- The lines of a value are without signs between documents, in a list and below a key. -/
def UnmarkedValue (v : Json) : Prop :=
  ∀ indent, Unmarked false (v.yamlLines (indent + 1)) ∧ Unmarked false (v.yamlValue indent)

theorem unmarked_yamlItems {xs : List Json} (h : ∀ x ∈ xs, UnmarkedValue x) (indent : Nat) :
    Unmarked true (Json.yamlItems indent xs) := by
  induction xs with
  | nil => trivial
  | cons x xs ih =>
    obtain ⟨hx, hxs⟩ := List.forall_mem_cons.1 h
    exact unmarked_spaces _ (unmarked_item ((hx (indent + 1)).1.append (ih hxs)))

theorem unmarked_yamlFields {fields : List (String × Json)}
    (hkeys : ∀ f ∈ fields, IsFieldName f.1) (h : ∀ f ∈ fields, UnmarkedValue f.2) (indent : Nat) :
    Unmarked true (Json.yamlFields indent fields) := by
  induction fields with
  | nil => trivial
  | cons f fields ih =>
    obtain ⟨hk, hkeys⟩ := List.forall_mem_cons.1 hkeys
    obtain ⟨hf, h⟩ := List.forall_mem_cons.1 h
    exact unmarked_spaces _ (unmarked_keyChars hk ((hf indent).2.append (ih hkeys h)))

end Yaml

namespace Json.Textual

theorem unmarkedValue {v : Json} (h : v.Textual) : UnmarkedValue v := by
  have hscalar : ∀ cs, Unmarked false cs →
      Unmarked false (endLine cs) ∧ Unmarked false (' ' :: endLine cs) := fun cs h =>
    ⟨unmarked_endLine h, Bool.noConfusion, unmarked_endLine h⟩
  have hword : ∀ cs : List Char, (∀ c ∈ cs, isBreak c = false) →
      Unmarked false (endLine cs) ∧ Unmarked false (' ' :: endLine cs) := fun cs h =>
    hscalar cs (unmarked_line h)
  intro indent
  induction h generalizing indent with
  | bool b =>
    cases b with
    | true => exact hword ['t', 'r', 'u', 'e'] (by simp [isBreak])
    | false => exact hword ['f', 'a', 'l', 's', 'e'] (by simp [isBreak])
  | string s =>
    exact ⟨(hscalar _ (unmarked_stringChars indent s)).1,
      (hscalar _ (unmarked_stringChars (indent + 1) s)).2⟩
  | @array items _ ih =>
    cases items with
    | nil => exact hword ['[', ']'] (by simp [isBreak])
    | cons x xs =>
      obtain ⟨hx, hxs⟩ := List.forall_mem_cons.1 ih
      have hlines : ∀ indent, Unmarked true
          ('-' :: ' ' :: (x.yamlLines (indent + 2) ++ yamlItems indent xs)) := fun indent =>
        unmarked_item ((hx (indent + 1)).1.append (unmarked_yamlItems hxs indent))
      exact ⟨(hlines _).of_true false, Bool.noConfusion, unmarked_spaces _ (hlines _)⟩
  | @object fields hkeys _ ih =>
    cases fields with
    | nil => exact hword ['\x7b', '\x7d'] (by simp [isBreak])
    | cons f fields =>
      obtain ⟨hk, hkeys⟩ := List.forall_mem_cons.1 hkeys
      obtain ⟨hf, hfields⟩ := List.forall_mem_cons.1 ih
      have hlines : ∀ indent, Unmarked true
          (keyChars f.1 ++ ':' :: (f.2.yamlValue indent ++ yamlFields indent fields)) :=
        fun indent => unmarked_keyChars hk
          ((hf indent).2.append (unmarked_yamlFields hkeys hfields indent))
      exact ⟨(hlines _).of_true false, Bool.noConfusion, unmarked_spaces _ (hlines _)⟩

/-- **Signs between documents.** The text of an object has none of them. -/
theorem unmarked_yaml {fields : List (String × Json)} (h : (Json.object fields).Textual) :
    Unmarked true (Json.object fields).yaml.toList := by
  cases fields with
  | nil =>
    have htext : (Json.object []).yaml.toList = ['\x7b', '\x7d', '\n'] := by decide
    have hbracket : ∀ c ∈ ['\x7d'], isBreak c = false := by simp [isBreak]
    have hend : Unmarked true ['\n'] := unmarked_cons (by decide) (by decide) trivial
    rw [htext]
    exact unmarked_cons (by decide) (by decide) ((unmarked_line hbracket).append hend)
  | cons f fields =>
    cases h with
    | object hkeys h =>
      obtain ⟨hk, hkeys⟩ := List.forall_mem_cons.1 hkeys
      obtain ⟨hf, h⟩ := List.forall_mem_cons.1 h
      rw [yaml]
      simp only [yamlScalar?, String.toList_ofList]
      exact unmarked_keyChars hk ((hf.unmarkedValue 0).2.append
        (unmarked_yamlFields hkeys (fun g hg => (h g hg).unmarkedValue) 0))

end Json.Textual

-- What a text begins with is not looked at any more.
attribute [irreducible] Yaml.Unmarked

end ComponentViews
