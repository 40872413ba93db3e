import ComponentViews.Command.Run
import ComponentViews.Proofs.Command.Results
import ComponentViews.Proofs.Conversion.Attention

/-!
# What commands report about attention

Converting and checking load the same configuration and the same graphs, and convert them to the
same views. Both count what needs attention in these graphs: checking fails exactly if there is
anything, with the number, and converting reports the number once the views have been written.

## Main definitions

* `loadProject`, `withViews`: what both commands load, and how they go on with the views.
* `CommandError.IsWriting`: an error about views that cannot be written.
* `closingReports`: the reports with which converting ends.

## Main results

* `result_checkViews`, `result_writeConverted`: what comes of views.
* `run_of_unloaded`, `run_of_loaded`: a command fails with the error of what it loads, or goes on
  with the views.
* `check_convert_agree`: both commands count what needs attention in the graphs.
-/

namespace ComponentViews

open Session (result Reports FailsOnly)

/-- The configuration and the graphs that a command loads. -/
def loadProject {m : Type → Type} [Monad m] [Host m] (configuration input : String) :
    Session m (Configuration × List LoadedGraph) := do
  let configuration ← loadConfiguration configuration
  let graphs ← loadGraphs input
  pure (configuration, graphs)

/-- A directory for views, or the file for one of them, cannot be written. -/
inductive CommandError.IsWriting : CommandError → Prop
  | missingDirectory (name : String) (cause : FileError) : IsWriting (.missingDirectory name cause)
  | unwrittenFile (path : String) (cause : FileError) : IsWriting (.unwrittenFile path cause)

variable {σ : Type}

/-! ## Views -/

theorem reports_tell (message : String) : Reports (tell message : Session (StateM σ) Unit) () :=
  Session.reports_log (Logged.info message)

theorem reports_reportViews (views : List ComponentView) :
    Reports (reportViews views : Session (StateM σ) Unit) () := by
  unfold reportViews
  refine Reports.bind (Reports.forIn fun v _ => ?_) (Session.reports_pure ())
  refine Reports.bind (Reports.forIn fun warning _ => ?_) (Reports.bind (Reports.forIn fun s _ => ?_)
    (Session.reports_pure _))
  · exact (reports_tell _).bind (Session.reports_pure _)
  · exact (Session.reports_log _).bind (Session.reports_pure _)

theorem reports_reportAttention (views : List ComponentView) :
    Reports (reportAttention views : Session (StateM σ) Unit) () := by
  unfold reportAttention
  refine Reports.bind (Reports.forIn fun x _ => ?_) (Session.reports_pure ())
  exact (Session.reports_log _).bind (Session.reports_pure _)

/-- Checking views fails exactly if anything needs attention, with the number of it. -/
theorem result_checkViews (views : List ComponentView) (t : Transcript) (s : σ) :
    (result (checkViews views : Session (StateM σ) Unit) t s).1.1 =
      if 0 < (attention views).length then
        .error (.needsAttention (attention views).length views.length)
      else .ok () := by
  obtain ⟨events, hresult⟩ := (reports_reportViews views).result_bind (fun _ =>
    if 0 < (attention views).length then
      Session.fail (.needsAttention (attention views).length views.length)
    else tell s!"All {views.length} components converted cleanly") t s
  refine (congrArg (·.1.1) hresult).trans ?_
  split <;> rfl

variable [Host (StateM σ)]

theorem failsOnly_writeViews (directory : String) (format : DocumentFormat)
    (views : List ComponentView) :
    FailsOnly CommandError.IsWriting
      (writeViews directory format views : Session (StateM σ) Unit) := by
  unfold writeViews
  refine (Session.failsOnly_onHost _).bind fun made => ?_
  refine (Session.failsOnly_orFail (.missingDirectory directory) made).bind fun _ => ?_
  refine (FailsOnly.forIn fun v u => ?_).bind fun _ => (Session.reports_pure _).failsOnly
  refine (Session.failsOnly_onHost _).bind fun written => ?_
  refine (Session.failsOnly_orFail (.unwrittenFile _) written).bind fun _ => ?_
  exact (Session.reports_log _).failsOnly.bind fun _ => (Session.reports_pure _).failsOnly

/-- Writing views fails only for directories and files. -/
theorem failsOnly_putViews (directory : Option String) (format : DocumentFormat)
    (views : List ComponentView) :
    FailsOnly CommandError.IsWriting
      (putViews directory format views : Session (StateM σ) Unit) := by
  cases directory with
  | some directory => exact failsOnly_writeViews directory format views
  | none => exact Session.failsOnly_print _

/-- The reports with which converting ends: the numbers, and the directory if there is one. -/
def closingReports (components : Nat) (elapsed : String) (open_ : Nat)
    (directory : Option String) : List LogEvent :=
  ⟨.info, s!"Converted {components} components in {elapsed}ms " ++
    s!"({open_} properties need attention)"⟩ ::
  directory.toList.map fun directory => ⟨.info, s!"Output: {directory}"⟩

theorem result_reportWritten (directory : Option String) (views : List ComponentView)
    (t : Transcript) (s : σ) :
    let reported := (result (reportWritten directory views : Session (StateM σ) Unit) t s).1
    reported.1 = .ok () ∧ ∃ elapsed, reported.2.events =
      t.events ++ closingReports views.length elapsed (attention views).length directory := by
  refine ⟨?_, ((Host.elapsed : StateM σ _).run s).1, ?_⟩
  · cases directory <;> rfl
  · cases directory with
    | none => rfl
    | some directory => exact List.append_assoc t.events _ _

/-- Converting fails only where views cannot be written, and otherwise ends with the number of what
needs attention. -/
theorem result_writeConverted (directory : Option String) (format : DocumentFormat)
    (views : List ComponentView) (t : Transcript) (s : σ) :
    let written := (result (writeConverted directory format views : Session (StateM σ) Unit) t s).1
    (∃ e, written.1 = .error e ∧ e.IsWriting) ∨
      written.1 = .ok () ∧ ∃ earlier elapsed, written.2.events =
        earlier ++ closingReports views.length elapsed (attention views).length directory := by
  unfold writeConverted
  dsimp only
  rw [Session.result_bind]
  split
  · rename_i u t' s' hput
    obtain ⟨events, hreports⟩ := (reports_reportAttention views).result_bind
      (fun _ => reportWritten directory views) t' s'
    rw [hreports]
    obtain ⟨hok, elapsed, hevents⟩ :=
      result_reportWritten directory views { t' with events := t'.events ++ events } s'
    exact .inr ⟨hok, _, elapsed, hevents⟩
  · rename_i e t' s' hput
    exact .inl ⟨e, rfl, failsOnly_putViews directory format views t s e (by rw [hput])⟩

/-! ## Commands -/

/-- What a command does that converts the graphs that it loads and goes on with the views. -/
def withViews {m : Type → Type} [Monad m] [Host m] (configuration input : String)
    (rest : Configuration → List ComponentView → Session m Unit) : Session m Unit := do
  let (c, graphs) ← loadProject configuration input
  let conversions ← Session.log (convertLoaded c.converter graphs)
  rest c (conversions.flatMap (·.views))

section Loading

variable {m : Type → Type} [Monad m] [LawfulMonad m] [Host m]

theorem session_check (configuration input : String) (verbose : Bool) :
    (Invocation.session ⟨configuration, verbose, .check input⟩ : Session m Unit) =
      withViews configuration input fun _ views => checkViews views := by
  simp only [Invocation.session, runCheck, withViews, loadProject, convertInput, bind_assoc,
    pure_bind]

theorem session_convert (configuration input : String) (verbose : Bool) (output : Option String)
    (format : Option DocumentFormat) :
    (Invocation.session ⟨configuration, verbose, .convert input output format⟩ : Session m Unit) =
      withViews configuration input fun c views => writeConverted
        (output.or c.output.directory) (format.getD c.output.format) views := by
  simp only [Invocation.session, runConvert, withViews, loadProject, convertInput, bind_assoc,
    pure_bind]

end Loading

/-- What became of a command that ran as a session. -/
def outcomeOf : Except CommandError Unit × Transcript → CommandOutcome
  | (.ok (), t) => ⟨t, none⟩
  | (.error e, t) => ⟨t, some e⟩

theorem error_outcomeOf_eq_some_iff {r : Except CommandError Unit × Transcript}
    {e : CommandError} : (outcomeOf r).error = some e ↔ r.1 = .error e := by
  rcases r with ⟨e' | u, t⟩ <;> simp [outcomeOf]

theorem error_outcomeOf_eq_none_iff {r : Except CommandError Unit × Transcript} :
    (outcomeOf r).error = none ↔ r.1 = .ok () := by
  rcases r with ⟨e' | u, t⟩ <;> simp [outcomeOf]

@[simp] theorem transcript_outcomeOf (r : Except CommandError Unit × Transcript) :
    (outcomeOf r).transcript = r.2 := by
  rcases r with ⟨e' | u, t⟩ <;> rfl

theorem exitCode_outcomeOf_ne_zero_iff {r : Except CommandError Unit × Transcript} :
    (outcomeOf r).exitCode ≠ 0 ↔ ∃ e, r.1 = .error e := by
  rcases r with ⟨e' | u, t⟩ <;> simp [outcomeOf, CommandOutcome.exitCode]

theorem run_eq_result (i : Invocation) (s : σ) :
    (i.run : StateM σ _).run s =
      (outcomeOf (result (i.session : Session (StateM σ) Unit) {} s).1,
        (result (i.session : Session (StateM σ) Unit) {} s).2) := by
  unfold Invocation.run result
  rw [StateT.run_bind]
  rcases ((i.session : Session (StateM σ) Unit).run {}).run s with ⟨⟨e | u, t⟩, s'⟩ <;> rfl

theorem run_eq (i : Invocation) (s : σ) :
    ((i.run : StateM σ _).run s).1 =
      outcomeOf (result (i.session : Session (StateM σ) Unit) {} s).1 :=
  congrArg (·.1) (run_eq_result i s)

section Views

variable {i : Invocation} {configuration input : String} {s : σ}
  {rest : Configuration → List ComponentView → Session (StateM σ) Unit}

/-- A command fails with the error of what it loads. -/
theorem run_of_unloaded {e : CommandError}
    (hi : i.session = withViews configuration input rest)
    (hload : (result (loadProject configuration input : Session (StateM σ) _) {} s).1.1 =
      .error e) :
    ((i.run : StateM σ _).run s).1.error = some e := by
  rw [run_eq, hi, error_outcomeOf_eq_some_iff, withViews, Session.result_bind]
  split <;> rename_i hresult <;> rw [hresult] at hload
  · cases hload
  · rw [Except.error.inj hload]

/-- A command goes on with the views of the graphs that it has loaded. -/
theorem run_of_loaded {c : Configuration} {graphs : List LoadedGraph}
    (hi : i.session = withViews configuration input rest)
    (hload : (result (loadProject configuration input : Session (StateM σ) _) {} s).1.1 =
      .ok (c, graphs)) :
    ∃ t s', ((i.run : StateM σ _).run s).1 =
      outcomeOf (result (rest c (c.converter.views graphs)) t s').1 := by
  rw [run_eq, hi, withViews, Session.result_bind]
  split <;> rename_i hresult <;> rw [hresult] at hload
  · obtain rfl := Except.ok.inj hload
    rename_i t s'
    obtain ⟨events, hlog⟩ := (Session.reports_log (convertLoaded c.converter graphs)).result_bind
      (fun conversions => rest c (conversions.flatMap (·.views))) t s'
    dsimp only
    rw [hlog, Converter.value_convertLoaded]
    exact ⟨_, s', rfl⟩
  · cases hload

end Views

/-- Checking and converting fail alike where nothing can be loaded. Otherwise checking fails exactly
if a property of an export needs attention, with the number of such properties and that of the
components; and converting reports both numbers in the end, unless it cannot write the views. -/
theorem check_convert_agree (configuration input : String) (verbose : Bool)
    (output : Option String) (format : Option DocumentFormat) (s : σ) :
    let check := ((Invocation.run ⟨configuration, verbose, .check input⟩ : StateM σ _).run s).1
    let convert :=
      ((Invocation.run ⟨configuration, verbose, .convert input output format⟩ : StateM σ _).run s).1
    match (result (loadProject configuration input : Session (StateM σ) _) {} s).1.1 with
    | .error e => check.error = some e ∧ convert.error = some e
    | .ok (c, graphs) =>
      let components := (c.converter.accepted graphs).length
      let open_ := (c.converter.openProperties graphs).length
      (check.exitCode ≠ 0 ↔ ∃ loaded ∈ graphs, ∃ e ∈ loaded.graph.components, ∃ ps,
        extractProperties loaded.graph c.conventions e.type = .ok ps ∧
          ∃ p ∈ ps, c.converter.NeedsAttention loaded.graph e ps p) ∧
      (∀ e, check.error = some e → e = .needsAttention open_ components) ∧
      ((∃ e, convert.error = some e ∧ e.IsWriting) ∨
        convert.error = none ∧ ∃ earlier elapsed, convert.transcript.events = earlier ++
          closingReports components elapsed open_ (output.or c.output.directory)) := by
  intro check convert
  have hcheck := session_check (m := StateM σ) configuration input verbose
  have hconvert := session_convert (m := StateM σ) configuration input verbose output format
  split
  · rename_i e hload
    exact ⟨run_of_unloaded hcheck hload, run_of_unloaded hconvert hload⟩
  · rename_i c graphs hload
    have hlength := c.converter.length_views graphs
    have hopen := c.converter.length_attention_views graphs
    obtain ⟨t, s', hchecked⟩ := run_of_loaded hcheck hload
    obtain ⟨t', s'', hconverted⟩ := run_of_loaded hconvert hload
    have hresult := result_checkViews (c.converter.views graphs) t s'
    have hwritten := result_writeConverted (output.or c.output.directory)
      (format.getD c.output.format) (c.converter.views graphs) t' s''
    -- Both commands see the same views, so the same numbers are counted.
    rw [hlength, hopen] at hresult hwritten
    refine ⟨?_, fun e he => ?_, ?_⟩
    · rw [show check = _ from hchecked, exitCode_outcomeOf_ne_zero_iff, hresult]
      refine Iff.trans ?_ (Converter.length_openProperties_pos_iff (c := c.converter))
      split <;> simp_all
    · rw [show check = _ from hchecked, error_outcomeOf_eq_some_iff, hresult] at he
      split at he
      · exact (Except.error.inj he).symm
      · cases he
    · rw [show convert = _ from hconverted, error_outcomeOf_eq_none_iff, transcript_outcomeOf]
      simp only [error_outcomeOf_eq_some_iff]
      exact hwritten

end ComponentViews
