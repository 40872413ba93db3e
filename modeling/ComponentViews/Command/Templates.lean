/-!
# Files to start with

The configuration and the graph that a new project starts with.

## Main definitions

* `usualConfiguration`: a configuration that says what is usual.
* `exampleGraph`: a graph document with one component.
-/

namespace ComponentViews

/-- Lines as a text. -/
def textOfLines (lines : List String) : String :=
  String.join (lines.map fun line => line ++ "\n")

/-- The lines of a configuration that says what is usual. -/
def usualConfigurationLines : List String :=
  ["# propcast configuration",
   "",
   "[conversion]",
   "# Properties starting with this prefix are never forwarded",
   "aria_prefix = \"aria-\"",
   "",
   "# The only property allowed to carry renderable children",
   "children_prop = \"children\"",
   "",
   "# Property names that are never forwarded",
   "reserved_names = [\"component\", \"classes\", \"innerRef\", \"style\"]",
   "",
   "# Renderings of the \"anything renderable\" type",
   "node_markers = [\"ReactNode\"]",
   "",
   "# Symbol names a component may return",
   "element_markers = [\"Element\", \"ReactElement\"]",
   "",
   "# Symbol names of array generics",
   "array_markers = [\"Array\", \"ReadonlyArray\"]",
   "",
   "# Style generics exposed as PropTypes.object",
   "style_markers = [\"CSSProperties\", \"SxProps\", \"StyleProp\", \"SystemStyleObject\"]",
   "",
   "[output]",
   "# Directory for generated views (omit to print to stdout)",
   "dir = \"views\"",
   "",
   "# json or yaml",
   "format = \"json\"",
   "",
   "# Per-component overrides",
   "# [components.Button]",
   "# rename = \"DashButton\"",
   "# remove = [\"legacy\"]",
   "# order = [\"children\", \"variant\"]",
   "#",
   "# [components.Button.prop_types]",
   "# onClick = \"PropTypes.func\""]

/-- A configuration that says what is usual. -/
def usualConfiguration : String := textOfLines usualConfigurationLines

/-- The lines of a graph document with one component. -/
def exampleGraphLines : List String :=
  ["\x7b",
   "  \"types\": [",
   "    \x7b \"id\": 0, \"flags\": \"BOOLEAN\", \"display\": \"boolean\" \x7d,",
   "    \x7b \"id\": 1, \"flags\": \"STRING\", \"display\": \"string\" \x7d,",
   "    \x7b \"id\": 2, \"flags\": \"STRING_LITERAL\", \"value\": \"primary\" \x7d,",
   "    \x7b \"id\": 3, \"flags\": \"STRING_LITERAL\", \"value\": \"secondary\" \x7d,",
   "    \x7b \"id\": 4, \"flags\": \"UNION\", \"union\": [2, 3] \x7d,",
   "    \x7b \"id\": 5, \"flags\": \"VOID\", \"display\": \"void\" \x7d,",
   "    \x7b \"id\": 6, \"flags\": \"OBJECT\", \"signatures\": [\x7b \"parameters\": [], \"return_type\": 5 \x7d] \x7d,",
   "    \x7b \"id\": 7, \"flags\": \"UNION\", \"display\": \"ReactNode\", \"union\": [1, 0] \x7d,",
   "    \x7b",
   "      \"id\": 8,",
   "      \"flags\": \"OBJECT\",",
   "      \"display\": \"ButtonProps\",",
   "      \"properties\": [",
   "        \x7b \"name\": \"children\", \"type\": 7, \"documentation\": \"Button content.\" \x7d,",
   "        \x7b \"name\": \"disabled\", \"type\": 0, \"documentation\": \"Disables interaction.\" \x7d,",
   "        \x7b \"name\": \"variant\", \"type\": 4, \"documentation\": \"Visual style.\" \x7d,",
   "        \x7b \"name\": \"onClick\", \"type\": 6 \x7d,",
   "        \x7b \"name\": \"aria-label\", \"type\": 1 \x7d",
   "      ]",
   "    \x7d,",
   "    \x7b \"id\": 9, \"flags\": \"OBJECT\", \"symbol\": \"Element\" \x7d,",
   "    \x7b \"id\": 10, \"flags\": \"OBJECT\", \"signatures\": [\x7b \"parameters\": [8], \"return_type\": 9 \x7d] \x7d",
   "  ],",
   "  \"components\": [\x7b \"name\": \"Button\", \"type\": 10 \x7d]",
   "\x7d"]

/-- A graph document with one component. -/
def exampleGraph : String := textOfLines exampleGraphLines

end ComponentViews
