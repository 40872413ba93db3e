import ComponentViews.Command.Session

/-!
# What comes of sessions

A session that runs on a host with a state has an outcome, a transcript and a state that it leaves.
Some sessions can only report, and some can only fail for certain reasons; both kinds are closed
under doing one after the other and under loops.

## Main definitions

* `Session.result`: what comes of a session.
* `Session.Reports`: a session only reports and has a certain value.
* `Session.FailsOnly`: the errors with which a session can fail are of one kind.

## Main results

* `result_bind`: what comes of sessions one after the other.
* `Reports.bind`, `Reports.forIn`: sessions that only report.
* `FailsOnly.bind`, `FailsOnly.forIn`: sessions that can only fail for certain reasons.
-/

namespace ComponentViews.Session

variable {σ α β : Type}

/-- What comes of a session that begins with a transcript on a host: the outcome, the transcript and
what is left of the host. -/
def result (x : Session (StateM σ) α) (t : Transcript) (s : σ) :
    (Except CommandError α × Transcript) × σ :=
  (x.run t).run s

theorem result_log (x : Logged α) (t : Transcript) (s : σ) :
    result (log x) t s = ((.ok x.value, { t with events := t.events ++ x.events }), s) := rfl

/-- What comes of one session after the other: the second goes on where the first ended, unless that
failed. -/
theorem result_bind (x : Session (StateM σ) α) (f : α → Session (StateM σ) β) (t : Transcript)
    (s : σ) :
    result (x >>= f) t s =
      match result x t s with
      | ((.ok a, t'), s') => result (f a) t' s'
      | ((.error e, t'), s') => ((.error e, t'), s') := by
  have hbind : result (x >>= f) t s =
      ((ExceptT.bindCont f (result x t s).1.1 : StateT Transcript (StateM σ) (Except _ β)).run
        (result x t s).1.2).run (result x t s).2 := rfl
  rw [hbind]
  split <;> rename_i hx <;> rw [hx] <;> rfl

theorem result_onHost (x : StateM σ α) (t : Transcript) (s : σ) :
    result (onHost x) t s = ((.ok (x.run s).1, t), (x.run s).2) := rfl

/-- Sessions one after the other succeed if each of them does. -/
theorem exists_of_result_bind_eq_ok {x : Session (StateM σ) α} {f : α → Session (StateM σ) β}
    {t t'' : Transcript} {s s'' : σ} {b : β} (h : result (x >>= f) t s = ((.ok b, t''), s'')) :
    ∃ a t' s', result x t s = ((.ok a, t'), s') ∧ result (f a) t' s' = ((.ok b, t''), s'') := by
  rw [result_bind] at h
  split at h
  · exact ⟨_, _, _, ‹_›, h⟩
  · cases h

theorem result_orFail_eq_ok {ε : Type} {toError : ε → CommandError} {outcome : Except ε α}
    {t t' : Transcript} {s s' : σ} {a : α}
    (h : result (orFail toError outcome) t s = ((.ok a, t'), s')) :
    outcome = .ok a ∧ t' = t ∧ s' = s := by
  cases outcome with
  | error cause => cases h
  | ok b =>
    cases h
    exact ⟨rfl, rfl, rfl⟩

/-! ## Sessions that only report -/

/-- A session only reports and has a certain value. -/
def Reports (x : Session (StateM σ) α) (a : α) : Prop :=
  ∀ t s, ∃ events, result x t s = ((.ok a, { t with events := t.events ++ events }), s)

theorem reports_pure (a : α) : Reports (pure a : Session (StateM σ) α) a :=
  fun t s => ⟨[], by rw [List.append_nil]; rfl⟩

theorem reports_log (x : Logged α) : Reports (log x : Session (StateM σ) α) x.value :=
  fun t s => ⟨x.events, result_log x t s⟩

/-- What follows a session that only reports goes on with its value on the same host. -/
theorem Reports.result_bind {x : Session (StateM σ) α} {a : α} (h : Reports x a)
    (f : α → Session (StateM σ) β) (t : Transcript) (s : σ) :
    ∃ events, result (x >>= f) t s = result (f a) { t with events := t.events ++ events } s := by
  obtain ⟨events, hx⟩ := h t s
  exact ⟨events, by rw [Session.result_bind, hx]⟩

theorem Reports.bind {x : Session (StateM σ) α} {f : α → Session (StateM σ) β} {a : α} {b : β}
    (hx : Reports x a) (hf : Reports (f a) b) : Reports (x >>= f) b := by
  intro t s
  obtain ⟨first, hfirst⟩ := hx.result_bind f t s
  obtain ⟨more, hmore⟩ := hf { t with events := t.events ++ first } s
  exact ⟨first ++ more, by rw [hfirst, hmore, List.append_assoc]⟩

theorem Reports.forIn {xs : List α} {body : α → PUnit → Session (StateM σ) (ForInStep PUnit)}
    (h : ∀ x ∈ xs, Reports (body x ⟨⟩) (.yield ⟨⟩)) :
    Reports (forIn xs ⟨⟩ body : Session (StateM σ) PUnit) ⟨⟩ := by
  induction xs with
  | nil => exact reports_pure _
  | cons x xs ih =>
    rw [List.forIn_cons]
    exact (h x List.mem_cons_self).bind (ih fun y hy => h y (List.mem_cons_of_mem x hy))

/-! ## Sessions that can fail -/

/-- The errors with which a session can fail are of one kind. -/
def FailsOnly (p : CommandError → Prop) (x : Session (StateM σ) α) : Prop :=
  ∀ t s e, (result x t s).1.1 = .error e → p e

variable {p : CommandError → Prop}

theorem Reports.failsOnly {x : Session (StateM σ) α} {a : α} (h : Reports x a) : FailsOnly p x := by
  intro t s e he
  obtain ⟨events, hx⟩ := h t s
  rw [hx] at he
  cases he

theorem failsOnly_onHost (x : StateM σ α) : FailsOnly p (onHost x) := by
  intro t s e he
  cases he

theorem failsOnly_print (text : String) : FailsOnly p (print text : Session (StateM σ) Unit) := by
  intro t s e he
  cases he

theorem failsOnly_orFail {ε : Type} {toError : ε → CommandError} (h : ∀ cause, p (toError cause))
    (outcome : Except ε α) : FailsOnly p (orFail toError outcome : Session (StateM σ) α) := by
  intro t s e he
  cases outcome with
  | ok a => cases he
  | error cause =>
    obtain rfl : toError cause = e := Except.error.inj he
    exact h cause

theorem FailsOnly.bind {x : Session (StateM σ) α} {f : α → Session (StateM σ) β}
    (hx : FailsOnly p x) (hf : ∀ a, FailsOnly p (f a)) : FailsOnly p (x >>= f) := by
  intro t s e he
  rw [Session.result_bind] at he
  split at he
  · exact hf _ _ _ e he
  · rename_i e' t' s' hresult
    obtain rfl : e' = e := Except.error.inj he
    exact hx t s e' (by rw [hresult])

theorem FailsOnly.forIn {xs : List α} {body : α → PUnit → Session (StateM σ) (ForInStep PUnit)}
    (h : ∀ x u, FailsOnly p (body x u)) :
    FailsOnly p (forIn xs ⟨⟩ body : Session (StateM σ) PUnit) := by
  induction xs with
  | nil => exact (reports_pure _).failsOnly
  | cons x xs ih =>
    rw [List.forIn_cons]
    refine (h x ⟨⟩).bind fun step => ?_
    cases step with
    | done u => exact (reports_pure _).failsOnly
    | yield u => exact ih

end ComponentViews.Session
