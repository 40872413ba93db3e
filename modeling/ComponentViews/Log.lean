/-!
# Logged computations

A computation that reports on its way yields its value together with the reports, in the order in
which they were made. Reports never influence a value: `Logged.value` commutes with every way of
combining such computations.

## Main definitions

* `LogEvent`: one report, a text with a level.
* `LogEvent.line`, `LogEvent.terminalLine`: the line of the log that shows a report.
* `Logged`: a value with the reports made while computing it; it is a monad.

## Main results

* `Logged.value_bind`, `Logged.events_bind`: values and reports of a composite.
-/

namespace ComponentViews

/-- How much a report matters. -/
inductive LogLevel where
  /-- Something to look at. -/
  | warn
  /-- Progress of a command. -/
  | info
  /-- A detail for a close look. -/
  | debug
  deriving DecidableEq, Repr

/-- The word for a level in a line of the log. -/
def LogLevel.label : LogLevel → String
  | .warn => "WARN"
  | .info => "INFO"
  | .debug => "DEBUG"

/-- One report. -/
structure LogEvent where
  /-- How much it matters. -/
  level : LogLevel
  /-- What it says. -/
  message : String
  deriving DecidableEq, Repr

/-- The line of the log that shows a report. -/
def LogEvent.line (e : LogEvent) : String :=
  e.level.label ++ " " ++ e.message

/-- A character as it is shown on a terminal. One that a terminal may take for a command is written
by its number. -/
def terminalText (c : Char) : String :=
  if c = '\x07' then "\\x07"
  else if c = '\x08' then "\\x08"
  else if c = '\x0c' then "\\x0c"
  else if c = '\x1b' then "\\x1b"
  else if c = '\x7f' then "\\x7f"
  else if 0x80 ≤ c.toNat ∧ c.toNat ≤ 0x9f then
    "\\u\x7b" ++ String.ofList (Nat.toDigits 16 c.toNat) ++ "\x7d"
  else c.toString

/-- The line of the log that shows a report on a terminal. -/
def LogEvent.terminalLine (e : LogEvent) : String :=
  e.level.label ++ " " ++ String.join (e.message.toList.map terminalText)

/-- A value with the reports made while computing it. -/
structure Logged (α : Type) where
  /-- The value. -/
  value : α
  /-- The reports, oldest first. -/
  events : List LogEvent
  deriving Repr

namespace Logged

variable {α β : Type}

instance : Monad Logged where
  pure a := ⟨a, []⟩
  bind x f := ⟨(f x.value).value, x.events ++ (f x.value).events⟩

@[simp] theorem value_pure (a : α) : (pure a : Logged α).value = a := rfl

@[simp] theorem events_pure (a : α) : (pure a : Logged α).events = [] := rfl

@[simp] theorem value_bind (x : Logged α) (f : α → Logged β) :
    (x >>= f).value = (f x.value).value := rfl

@[simp] theorem events_bind (x : Logged α) (f : α → Logged β) :
    (x >>= f).events = x.events ++ (f x.value).events := rfl

@[simp] theorem value_map (f : α → β) (x : Logged α) : (f <$> x).value = f x.value := rfl

@[simp] theorem events_map (f : α → β) (x : Logged α) : (f <$> x).events = x.events :=
  List.append_nil x.events

@[ext] theorem ext {x y : Logged α} (hv : x.value = y.value) (he : x.events = y.events) :
    x = y := by
  cases x
  cases y
  simp_all

instance : LawfulMonad Logged :=
  LawfulMonad.mk' Logged
    (fun x => by ext1 <;> simp [Functor.map])
    (fun a f => by ext1 <;> simp)
    (fun x f g => by ext1 <;> simp)

/-- Make one report. -/
def report (level : LogLevel) (message : String) : Logged Unit :=
  ⟨(), [⟨level, message⟩]⟩

/-- Report something to look at. -/
def warn (message : String) : Logged Unit :=
  report .warn message

/-- Report progress. -/
def info (message : String) : Logged Unit :=
  report .info message

/-- Report a detail. -/
def debug (message : String) : Logged Unit :=
  report .debug message

/-- Visiting a list in order collects the values of the visits. -/
@[simp] theorem value_mapM (f : α → Logged β) (xs : List α) :
    (xs.mapM f).value = xs.map fun x => (f x).value := by
  induction xs with
  | nil => rfl
  | cons x xs ih => simp [List.mapM_cons, ih]

end Logged

end ComponentViews
