import ComponentViews.Command.Arguments

/-!
# Help texts

What the program says about itself and its commands.

## Main definitions

* `helpText`, `versionText`: the texts.
-/

namespace ComponentViews

/-- The lines about the program. -/
def programHelp : List String :=
  ["Generate runtime PropTypes descriptors from TypeScript component types",
   "",
   "Usage: propcast [OPTIONS] <COMMAND>",
   "",
   "Commands:",
   "  init     Write a default config and an example graph",
   "  convert  Convert components into PropTypes views",
   "  check    Report properties that cannot be converted",
   "  help     Print this message or the help of the given subcommand(s)",
   "",
   "Options:",
   "  -c, --config <CONFIG>  Path to propcast.toml config file [default: propcast.toml]",
   "  -v, --verbose          Enable verbose output",
   "  -h, --help             Print help",
   "  -V, --version          Print version"]

/-- The lines about a command. -/
def commandHelp : String → List String
  | "init" =>
    ["Write a default config and an example graph",
     "",
     "Usage: propcast init [OPTIONS]",
     "",
     "Options:",
     "  -y, --yes   Overwrite existing files",
     "  -h, --help  Print help"]
  | "convert" =>
    ["Convert components into PropTypes views",
     "",
     "Usage: propcast convert [OPTIONS] <INPUT>",
     "",
     "Arguments:",
     "  <INPUT>  Graph document or directory of graph documents",
     "",
     "Options:",
     "  -o, --output <OUTPUT>  Output directory (defaults to config, or stdout)",
     "  -f, --format <FORMAT>  Output format (defaults to config or json) " ++
       "[possible values: json, yaml]",
     "  -h, --help             Print help"]
  | "check" =>
    ["Report properties that cannot be converted",
     "",
     "Usage: propcast check <INPUT>",
     "",
     "Arguments:",
     "  <INPUT>  Graph document or directory of graph documents",
     "",
     "Options:",
     "  -h, --help  Print help"]
  | _ =>
    ["Print this message or the help of the given subcommand(s)",
     "",
     "Usage: propcast help [COMMAND]...",
     "",
     "Arguments:",
     "  [COMMAND]...  Print help for the subcommand(s)"]

/-- The help for a command, or for the program. -/
def helpText (command : Option String) : String :=
  let lines := match command with
    | some name => commandHelp name
    | none => programHelp
  String.join (lines.map fun line => line ++ "\n")

/-- The name and version of the program. -/
def versionText : String := "propcast 0.1.0\n"

end ComponentViews
