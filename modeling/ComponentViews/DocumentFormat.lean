/-!
# Formats of documents

Graph documents and component views are written in JSON or in YAML.

## Main definitions

* `DocumentFormat`: the formats.
* `DocumentFormat.name`, `DocumentFormat.ofName?`: their names, which files of them end in.
-/

namespace ComponentViews

/-- A format of documents. -/
inductive DocumentFormat where
  /-- JSON. -/
  | json
  /-- YAML. -/
  | yaml
  deriving DecidableEq, Repr

namespace DocumentFormat

/-- The name of a format. -/
def name : DocumentFormat → String
  | .json => "json"
  | .yaml => "yaml"

/-- The format of a name. -/
def ofName? : String → Option DocumentFormat
  | "json" => some .json
  | "yaml" => some .yaml
  | _ => none

@[simp] theorem ofName?_name (f : DocumentFormat) : ofName? f.name = some f := by
  cases f <;> rfl

end DocumentFormat

end ComponentViews
