import ComponentViews.DocumentFormat
import ComponentViews.Graph.Basic
import ComponentViews.Json.Source
import ComponentViews.Yaml.Source

/-!
# Texts of graph documents

A graph document is written in JSON or in YAML.

## Main definitions

* `GraphDocument.ofText`: the document of a text.
* `Graph.ofText`: the graph of a text.
-/

namespace ComponentViews

/-- The document of a text. -/
def GraphDocument.ofText (format : DocumentFormat) (text : String) :
    Except GraphError GraphDocument :=
  match format with
  | .json =>
    match readJsonText? GraphDocument.read text with
    | some d => .ok d
    | none => .error .invalidJson
  | .yaml =>
    match readYamlText? GraphDocument.read text with
    | some d => .ok d
    | none => .error .invalidYaml

/-- The graph of a text. -/
def Graph.ofText (format : DocumentFormat) (text : String) : Except GraphError Graph := do
  let d ← GraphDocument.ofText format text
  Graph.ofDocument d

end ComponentViews
