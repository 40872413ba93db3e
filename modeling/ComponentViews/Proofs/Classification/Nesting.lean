import ComponentViews.Proofs.Classification.Rules
import Mathlib.Data.List.Basic
import Mathlib.Data.List.Perm.Subperm

/-!
# Nested classifications

A classification can be carried out with one stack of the types in progress, which grows when a
type is entered and shrinks when it is left, and which every part is given and gives back. Such a
walk applies the same rules as `Classifier.classifyIn`, but it might run out of the depth to which
it may nest, lose track of the stack or let it grow. It does none of these: only types of the graph
have parts, and each of them that is entered leaves fewer to enter.

## Main definitions

* `Progress`: the stack, and all stacks that there have been.
* `Classifier.walk`: the classification with a stack, down to a limited depth.
* `Follows`: a walk that yields what a classification yields and gives the stack back.
* `BoundedStack`: a stack without duplicates, on which there is room for one type only beside those
  of the graph.

## Main results

* `walk_follows`: with enough depth, a walk follows the classification.
* `walk_of_graph_ends`: in a graph, one level more than there are types is enough.
-/

namespace ComponentViews

/-- The state of a walk. -/
structure Progress where
  /-- The types in progress, the latest first. -/
  stack : List TypeId
  /-- The stacks that there have been since the start, the latest first. -/
  history : List (List TypeId) := []

namespace Progress

/-- Another stack, which is recorded. -/
def setStack (p : Progress) (stack : List TypeId) : Progress :=
  { stack, history := stack :: p.history }

/-- A type is entered. -/
def push (p : Progress) (t : TypeId) : Progress := p.setStack (t :: p.stack)

/-- The type entered last is left. -/
def pop (p : Progress) : Progress := p.setStack p.stack.tail

end Progress

/-- A computation that changes the stack, reports, and fails where it would nest too deep. -/
abbrev Walk := StateT Progress (OptionT Logged)

namespace Walk

variable {α β : Type}

/-- A walk ends with the value and the reports of a computation, and with the given state. -/
def EndsWith (w : Walk α) (start : Progress) (x : Logged α) (final : Progress) : Prop :=
  (w.run start).run = ⟨some (x.value, final), x.events⟩

theorem endsWith_pure (p : Progress) (a : α) : EndsWith (pure a) p (pure a) p := rfl

theorem endsWith_lift (p : Progress) (x : Logged α) : EndsWith (liftM x) p x p := by
  unfold EndsWith
  ext1 <;> simp

theorem EndsWith.bind {w : Walk α} {x : Logged α} {f : α → Walk β} {g : α → Logged β}
    {p q r : Progress} (hw : w.EndsWith p x q) (hf : (f x.value).EndsWith q (g x.value) r) :
    (w >>= f).EndsWith p (x >>= g) r := by
  unfold EndsWith at *
  rw [StateT.run_bind, OptionT.run_bind, hw]
  ext1 <;> simp [Option.elimM, hf]

/-- The value with which a walk ends is that of the computation. -/
theorem EndsWith.value_eq {w : Walk α} {x : Logged α} {p q : Progress} (h : w.EndsWith p x q)
    {a : α} (ha : (w.run p).run.value.map Prod.fst = some a) : x.value = a := by
  unfold EndsWith at h
  rw [h] at ha
  exact Option.some.inj ha

end Walk

/-- From a stack, a walk ends with the value and the reports of a computation and with the stack it
was given; each stack on the way has the property. -/
def Follows {α : Type} (stack : List TypeId) (P : List TypeId → Prop) (w : Walk α)
    (x : Logged α) : Prop :=
  ∀ history, ∃ later, (∀ s ∈ later, P s) ∧
    w.EndsWith ⟨stack, history⟩ x ⟨stack, later ++ history⟩

namespace Follows

variable {α β : Type} {stack : List TypeId} {P Q : List TypeId → Prop}

theorem mono {w : Walk α} {x : Logged α} (h : Follows stack P w x) (hPQ : ∀ s, P s → Q s) :
    Follows stack Q w x := by
  intro history
  obtain ⟨later, hP, he⟩ := h history
  exact ⟨later, fun s hs => hPQ s (hP s hs), he⟩

theorem pure (a : α) : Follows stack P (pure a) (pure a) := fun history =>
  ⟨[], by simp, Walk.endsWith_pure ⟨stack, history⟩ a⟩

theorem lift (x : Logged α) : Follows stack P (liftM x) x := fun history =>
  ⟨[], by simp, Walk.endsWith_lift ⟨stack, history⟩ x⟩

theorem bind {w : Walk α} {x : Logged α} {f : α → Walk β} {g : α → Logged β}
    (hw : Follows stack P w x) (hf : ∀ a, Follows stack P (f a) (g a)) :
    Follows stack P (w >>= f) (x >>= g) := by
  intro history
  obtain ⟨l₁, h₁, e₁⟩ := hw history
  obtain ⟨l₂, h₂, e₂⟩ := hf x.value (l₁ ++ history)
  refine ⟨l₂ ++ l₁, ?_, ?_⟩
  · intro s hs
    rcases List.mem_append.1 hs with hs | hs
    · exact h₂ s hs
    · exact h₁ s hs
  · rw [List.append_assoc]
    exact e₁.bind e₂

theorem mapM {l : List α} {f : α → Walk β} {g : α → Logged β}
    (h : ∀ a ∈ l, Follows stack P (f a) (g a)) : Follows stack P (l.mapM f) (l.mapM g) := by
  induction l with
  | nil => exact pure []
  | cons a l ih =>
    rw [List.mapM_cons, List.mapM_cons]
    refine bind (h a List.mem_cons_self) fun b => ?_
    refine bind (ih fun x hx => h x (List.mem_cons_of_mem a hx)) fun bs => ?_
    exact pure _

/-! ## Rules that are followed -/

theorem intersectionBranch (c : Classifier) (b : TypeId) {f : Unit → Walk Outcome}
    {g : Unit → Logged Outcome} (h : Follows stack P (f ()) (g ())) :
    Follows stack P (c.intersectionBranch b f) (c.intersectionBranch b g) := by
  unfold Classifier.intersectionBranch
  split
  · exact pure _
  · refine bind h fun o => ?_
    cases o with
    | ok d => exact pure _
    | error e => exact bind (lift _) fun _ => pure _

theorem unionBranch (c : Classifier) (booleanPair : Bool) (b : TypeId) {f : Unit → Walk Outcome}
    {g : Unit → Logged Outcome} (h : Follows stack P (f ()) (g ())) :
    Follows stack P (c.unionBranch booleanPair b f) (c.unionBranch booleanPair b g) := by
  unfold Classifier.unionBranch
  dsimp only
  split
  · exact pure _
  · split
    · exact pure _
    · refine bind h fun o => ?_
      cases o with
      | ok d => exact pure _
      | error e => exact bind (lift _) fun _ => pure _

/-- A rule is followed if the classifications of the parts are. -/
theorem applyRule (c : Classifier) (t : TypeId) (rule : Rule)
    {f : (b : TypeId) → b ∈ rule.parts → Walk Outcome}
    {g : (b : TypeId) → b ∈ rule.parts → Logged Outcome}
    (h : ∀ b hb, Follows stack P (f b hb) (g b hb)) :
    Follows stack P (c.applyRule t rule f) (c.applyRule t rule g) := by
  match rule with
  | .settled outcome => exact pure _
  | .array [] => exact pure _
  | .array [element] => exact bind (h element List.mem_cons_self) fun _ => pure _
  | .array (_ :: _ :: _) => exact pure _
  | .intersection branches =>
    exact bind (mapM fun b _ => intersectionBranch c b.1 (h b.1 b.2)) fun _ => pure _
  | .union branches =>
    exact bind (mapM fun b _ => unionBranch c _ b.1 (h b.1 b.2)) fun _ => lift _

end Follows

namespace Classifier

variable {c : Classifier} {ids : List TypeId}

/-- The outcome for a type, with a stack of the types in progress. Calls nest to a limited depth. -/
def walk (c : Classifier) : Nat → TypeId → Walk Outcome
  | 0, _ => failure
  | depth + 1, t => do
    if t ∈ (← get).stack then pure (c.obstructed t .circular)
    else
      modify (·.push t)
      let outcome ← c.applyRule t (c.rule t) fun b _ => walk c depth b
      modify (·.pop)
      pure outcome

/-- A type that is on the stack is not entered. -/
theorem walk_of_mem {t : TypeId} {p : Progress} (h : t ∈ p.stack) (depth : Nat) :
    (c.walk (depth + 1) t).EndsWith p (pure (c.obstructed t .circular)) p := by
  simp only [Walk.EndsWith, walk]
  ext1 <;> simp [h]

/-- Any other type is entered, has its rule applied and is left. -/
theorem walk_of_not_mem {t : TypeId} {p q : Progress} {x : Logged Outcome} {depth : Nat}
    (h : t ∉ p.stack)
    (hr : (c.applyRule t (c.rule t) fun b _ => c.walk depth b).EndsWith (p.push t) x q) :
    (c.walk (depth + 1) t).EndsWith p x q.pop := by
  simp only [Walk.EndsWith] at hr
  simp only [Walk.EndsWith, walk]
  ext1 <;> simp [h, hr]

/-! ## Stacks -/

/-- A stack holds, on top of another, different types that the other does not hold; all but the
latest are among the ids. -/
def IsAbove (ids stack s : List TypeId) : Prop :=
  ∃ added, s = added ++ stack ∧ added.Nodup ∧ (∀ u ∈ added, u ∉ stack) ∧
    ∀ u ∈ added.tail, u ∈ ids

theorem isAbove_self (ids stack : List TypeId) : IsAbove ids stack stack :=
  ⟨[], by simp⟩

theorem isAbove_cons {stack : List TypeId} {t : TypeId} (h : t ∉ stack) :
    IsAbove ids stack (t :: stack) :=
  ⟨[t], by simp [h]⟩

/-- What is above one type of the ids more is above the rest. -/
theorem IsAbove.of_cons {stack s : List TypeId} {t : TypeId} (hs : IsAbove ids (t :: stack) s)
    (ht : t ∈ ids) (hn : t ∉ stack) : IsAbove ids stack s := by
  obtain ⟨added, rfl, hnd, hd, htl⟩ := hs
  refine ⟨added ++ [t], by simp, ?_, ?_, ?_⟩
  · rw [List.nodup_append]
    refine ⟨hnd, by simp, ?_⟩
    rintro u hu v hv rfl
    exact hd u hu (by simp_all)
  · intro u hu
    rcases List.mem_append.1 hu with hu | hu
    · exact fun hm => hd u hu (List.mem_cons_of_mem t hm)
    · obtain rfl := List.mem_singleton.1 hu
      exact hn
  · cases added with
    | nil => simp
    | cons a as =>
      intro u hu
      rcases List.mem_append.1 hu with hu | hu
      · exact htl u hu
      · obtain rfl := List.mem_singleton.1 hu
        exact ht

/-- A stack without duplicates. Below the latest type there are only types among the ids; the latest
is one of these, and leaves fewer of them to enter, or it has no parts. -/
structure BoundedStack (c : Classifier) (ids s : List TypeId) : Prop where
  nodup : s.Nodup
  length_le : s.length ≤ ids.length + 1
  mem_of_mem_tail : ∀ u ∈ s.tail, u ∈ ids
  shrinks : ∀ u below, s = u :: below → u ∈ ids →
    (unentered ids s).length < (unentered ids below).length
  leaf : ∀ u below, s = u :: below → u ∉ ids → (c.rule u).parts = []

/-- What is above the empty stack is bounded. -/
theorem IsAbove.bounded {s : List TypeId} (h : IsAbove ids [] s)
    (hids : ∀ u b, b ∈ (c.rule u).parts → u ∈ ids) : BoundedStack c ids s := by
  obtain ⟨added, he, hnd, -, htl⟩ := h
  rw [List.append_nil] at he
  subst he
  have hle : s.tail.length ≤ ids.length :=
    (hnd.sublist (List.tail_sublist s)).subperm (fun u hu => htl u hu) |>.length_le
  refine ⟨hnd, ?_, htl, ?_, ?_⟩
  · rw [List.length_tail] at hle
    omega
  · rintro u below rfl hu
    exact length_unentered_lt hu (List.nodup_cons.1 hnd).1
  · rintro u below rfl hu
    exact List.eq_nil_iff_forall_not_mem.2 fun b hb => hu (hids u b hb)

/-! ## Walks -/

/-- With more depth than there are ids left to enter, a walk follows the classification, if only
types among the ids have parts. -/
theorem walk_follows (hids : ∀ u b, b ∈ (c.rule u).parts → u ∈ ids) (depth : Nat)
    (stack : List TypeId) (t : TypeId) (hd : (unentered ids stack).length < depth) :
    Follows stack (IsAbove ids stack) (c.walk depth t) (c.classifyIn stack t) := by
  induction depth generalizing stack t with
  | zero => omega
  | succ depth ih =>
    intro history
    by_cases ht : t ∈ stack
    · refine ⟨[], by simp, ?_⟩
      rw [classifyIn_of_mem c ht]
      exact walk_of_mem ht depth
    · -- The parts are walked on the stack with the type on top, where fewer ids are left.
      have hparts : Follows (t :: stack) (IsAbove ids stack)
          (c.applyRule t (c.rule t) fun b _ => c.walk depth b)
          (c.applyRule t (c.rule t) fun b _ => c.classifyIn (t :: stack) b) := by
        refine Follows.applyRule c t _ fun b hb => ?_
        have hmem : t ∈ ids := hids t b hb
        have hlt := length_unentered_lt hmem ht
        exact (ih (t :: stack) b (by omega)).mono fun s hs => hs.of_cons hmem ht
      obtain ⟨later, hlater, he⟩ := hparts ((t :: stack) :: history)
      refine ⟨stack :: later ++ [t :: stack], ?_, ?_⟩
      · intro s hs
        simp only [List.cons_append, List.mem_cons, List.mem_append, List.not_mem_nil,
          or_false] at hs
        rcases hs with rfl | hs | rfl
        · exact isAbove_self ids s
        · exact hlater s hs
        · exact isAbove_cons ht
      · rw [classifyIn_of_not_mem c ht]
        have hw := walk_of_not_mem (p := ⟨stack, history⟩) ht he
        simpa [Progress.pop, Progress.setStack] using hw

/-! ## Walks in a graph -/

/-- No more types are left to enter than there are. -/
theorem length_unentered_le_size (g : Graph) (stack : List TypeId) :
    (unentered g.ids stack).length ≤ g.size :=
  calc (unentered g.ids stack).length ≤ g.ids.length := List.length_filter_le _ _
    _ = g.size := List.length_map _

/-- A classification can be carried out by a walk, which is recursive on its depth. -/
theorem value_classify_of_walk {g : Graph} {conventions : Conventions} {t : TypeId} {o : Outcome}
    (h : (((mk g conventions).walk (g.size + 1) t).run ⟨[], []⟩).run.value.map Prod.fst = some o) :
    ((mk g conventions).classify t).value = o := by
  have hids : ∀ u b, b ∈ ((mk g conventions).rule u).parts → u ∈ g.ids := fun u b hb =>
    mem_ids_of_mem_parts g conventions hb
  have hdepth := Nat.lt_succ_of_le (length_unentered_le_size g [])
  obtain ⟨later, -, he⟩ := walk_follows hids (g.size + 1) [] t hdepth []
  rw [classify]
  exact he.value_eq h

/-- **Classification in a graph ends.** Begun with the empty stack and with one level more than there
are types, or with more, a walk yields what `classify` yields, and all stacks on the way are bounded.
Begun with any stack, as it is again and again on the way, it only needs more depth than there are
types left to enter; it yields what `classifyIn` yields and gives back the stack that it was given,
whatever the outcome. -/
theorem walk_of_graph_ends (g : Graph) (conventions : Conventions) (t : TypeId) (spare : Nat) :
    let c : Classifier := ⟨g, conventions⟩
    (∃ history,
      (c.walk (g.size + 1 + spare) t).EndsWith ⟨[], []⟩ (c.classify t) ⟨[], history⟩ ∧
        ∀ s ∈ history, BoundedStack c g.ids s) ∧
      ∀ stack, ∃ history,
        (c.walk ((unentered g.ids stack).length + 1 + spare) t).EndsWith ⟨stack, []⟩
          (c.classifyIn stack t) ⟨stack, history⟩ := by
  intro c
  have hids : ∀ u b, b ∈ (c.rule u).parts → u ∈ g.ids := fun u b hb =>
    mem_ids_of_mem_parts g conventions hb
  have hsize := length_unentered_le_size g []
  constructor
  · obtain ⟨later, hlater, he⟩ :=
      walk_follows hids (g.size + 1 + spare) [] t (by omega) []
    exact ⟨later ++ [], he, fun s hs => (hlater s (by simpa using hs)).bounded hids⟩
  · intro stack
    obtain ⟨later, -, he⟩ :=
      walk_follows hids ((unentered g.ids stack).length + 1 + spare) stack t (by omega) []
    exact ⟨later ++ [], he⟩

end Classifier

end ComponentViews
