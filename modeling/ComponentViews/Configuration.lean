import ComponentViews.Conventions
import ComponentViews.Customization
import ComponentViews.DocumentFormat
import ComponentViews.Toml.Source

/-!
# Configuration

A configuration holds the conventions, where and in which format views are written, and the
overrides for components. What it does not say is as usual.

## Main definitions

* `Configuration`, `OutputSettings`: the contents.
* `Configuration.ofText?`: the configuration of a TOML text.
* `Configuration.toJson`: a configuration as a JSON value.
-/

namespace ComponentViews

/-- Where and in which format views are written. -/
structure OutputSettings where
  /-- The directory for views; without one they are printed. -/
  directory : Option String := none
  /-- The format. -/
  format : DocumentFormat := .json
  deriving DecidableEq, Repr

/-- A configuration. -/
structure Configuration where
  /-- The conventions. -/
  conventions : Conventions := {}
  /-- Where and in which format views are written. -/
  output : OutputSettings := {}
  /-- The overrides for components. -/
  overrides : Overrides := []
  deriving DecidableEq, Repr

section Reading

variable {σ : Type} {m : Type → Type} [Monad m] [MonadExceptOf Unit m] [DataSource σ m]

/-- A format. -/
def DocumentFormat.read (s : σ) : m DocumentFormat := do
  let name ← DataSource.choice s
  match DocumentFormat.ofName? name with
  | some f => pure f
  | none => throw ()

/-- Where and in which format views are written. -/
def OutputSettings.read (s : σ) : m OutputSettings := do
  let f ← readFields ["dir", "format"] s
  let directory ← f.optionByName "dir" DataSource.text
  let format ← f.withDefault "format" DocumentFormat.json DocumentFormat.read
  pure { directory, format }

/-- A configuration. -/
def Configuration.read (s : σ) : m Configuration := do
  let f ← readFields ["conversion", "output", "components"] s
  let conventions ← f.withDefault "conversion" {} Conventions.read
  let output ← f.withDefault "output" {} OutputSettings.read
  let overrides ← f.withDefault "components" [] Overrides.read
  pure { conventions, output, overrides }

end Reading

/-- The configuration of a TOML text. -/
def Configuration.ofText? (text : String) : Option Configuration :=
  readTomlText? Configuration.read text

/-- A configuration as a JSON value. -/
def Configuration.toJson (c : Configuration) : Json :=
  .object [("components", c.overrides.toJson), ("conversion", c.conventions.toJson),
    ("output", .object [("dir", .stringOrNull c.output.directory),
      ("format", .string c.output.format.name)])]

end ComponentViews
