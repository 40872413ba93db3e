import ComponentViews.DocumentFormat

/-!
# Arguments of the command line

Options come before the name of a command, and options of the command after it. An option has a long
name after two hyphens or a short one after a single hyphen, where several short options may be
joined. A value follows an option, or is part of the same argument. After two hyphens alone, all
arguments are inputs.

## Main definitions

* `FlagValue`, `Flag`: an option by its names, with what it takes.
* `Parsed`, `parseOptions?`: options and inputs.
* `Command`, `Invocation`: what is to be done.
* `Request`, `Request.ofArguments?`: the meaning of arguments; without one they are misused.
-/

namespace ComponentViews

/-! ## Options -/

/-- What an option takes as its value. -/
inductive FlagValue where
  /-- It has no value. -/
  | nothing
  /-- A path, which is not empty. -/
  | path
  /-- The name of a format. -/
  | format
  deriving DecidableEq, Repr

/-- Whether a text is a value of a kind. -/
def FlagValue.accepts : FlagValue → String → Bool
  | .nothing, _ => true
  | .path, value => value ≠ ""
  | .format, value => (DocumentFormat.ofName? value).isSome

/-- An option. -/
structure Flag where
  /-- The long name. -/
  long : List Char
  /-- The short name. -/
  short : Char
  /-- What it takes as its value. -/
  value : FlagValue
  deriving DecidableEq, Repr

/-- Whether an option has a value. -/
def Flag.hasValue (f : Flag) : Bool := f.value ≠ .nothing

/-- Options that were found with their values, and the inputs. -/
structure Parsed where
  /-- The options by their short names, with their values. -/
  options : List (Char × String) := []
  /-- The arguments that are not options. -/
  inputs : List String := []
  /-- Whether help was asked for. -/
  help : Bool := false
  /-- Whether the version was asked for. -/
  version : Bool := false
  deriving Repr

namespace Parsed

/-- Add an option, which can be given only once. -/
def add? (p : Parsed) (flag : Flag) (value : String) : Option Parsed :=
  if p.options.any fun o => o.1 = flag.short then none
  else if flag.value.accepts value then
    some { p with options := p.options ++ [(flag.short, value)] }
  else none

/-- Add an input, which is not empty, where there may be at most so many. -/
def addInput? (p : Parsed) (most : Nat) (input : String) : Option Parsed :=
  if p.inputs.length < most ∧ input ≠ "" then some { p with inputs := p.inputs ++ [input] }
  else none

/-- The value of an option. -/
def value? (p : Parsed) (short : Char) : Option String := p.options.lookup short

/-- Whether an option was given. -/
def has (p : Parsed) (short : Char) : Bool := (p.value? short).isSome

/-- Whether the arguments only ask for information. -/
def isInquiry (p : Parsed) : Bool := p.help || p.version

end Parsed

/-- The help option. -/
def helpFlag : Flag := ⟨"help".toList, 'h', .nothing⟩

/-- The version option. -/
def versionFlag : Flag := ⟨"version".toList, 'V', .nothing⟩

/-- Whether an argument starts like an option. -/
def looksLikeOption (argument : String) : Bool :=
  match argument.toList with
  | '-' :: _ :: _ => true
  | _ => false

/-- Take the value of an option from the next argument. -/
def takeValue? (p : Parsed) (flag : Flag) : List String → Option (Parsed × List String)
  | [] => none
  | value :: rest =>
    if looksLikeOption value then none
    else (p.add? flag value).map fun p => (p, rest)

/-- Note an option without a value. -/
def note? (p : Parsed) (flag : Flag) : Option Parsed :=
  if flag = helpFlag then some { p with help := true }
  else if flag = versionFlag then some { p with version := true }
  else p.add? flag ""

/-- Read an option with a long name. -/
def longOption? (flags : List Flag) (p : Parsed) (text : List Char) (rest : List String) :
    Option (Parsed × List String) := do
  let name := text.takeWhile (· ≠ '=')
  let flag ← flags.find? fun f => f.long = name
  match text.dropWhile (· ≠ '='), flag.hasValue with
  | [], false => (note? p flag).map fun p => (p, rest)
  | [], true => takeValue? p flag rest
  | _ :: value, true => (p.add? flag (String.ofList value)).map fun p => (p, rest)
  | _ :: _, false => none

/-- The value that is joined to a short name. -/
def joinedValue : List Char → List Char
  | '=' :: cs => cs
  | cs => cs

/-- Read options with short names that are joined. Nothing is read after one that asks for
information. -/
def shortOptions? (flags : List Flag) (rest : List String) :
    List Char → Parsed → Option (Parsed × List String)
  | [], p => some (p, rest)
  | c :: cs, p => do
    let flag ← flags.find? fun f => f.short = c
    if flag.hasValue then
      if cs.isEmpty then takeValue? p flag rest
      else (p.add? flag (String.ofList (joinedValue cs))).map fun p => (p, rest)
    else
      let p ← note? p flag
      if p.isInquiry then some (p, rest) else shortOptions? flags rest cs p

/-- Read an argument that starts like an option. -/
def option? (flags : List Flag) (p : Parsed) (argument : String) (rest : List String) :
    Option (Parsed × List String) :=
  match argument.toList with
  | '-' :: '-' :: text => longOption? flags p text rest
  | '-' :: text => shortOptions? flags rest text p
  | _ => none

/-- Read options and at most so many inputs. -/
def parseOptions? (flags : List Flag) (inputs : Nat) :
    Nat → Parsed → List String → Option Parsed
  | 0, _, _ => none
  | _ + 1, p, [] => some p
  | fuel + 1, p, argument :: rest =>
    if argument = "--" then rest.foldlM (fun p input => p.addInput? inputs input) p
    -- An inquiry is answered whatever follows it; what comes before it has to be right.
    else if looksLikeOption argument then do
      let (p, rest) ← option? flags p argument rest
      if p.isInquiry then some p else parseOptions? flags inputs fuel p rest
    else do
      let p ← p.addInput? inputs argument
      parseOptions? flags inputs fuel p rest

/-- Read options up to the first argument that is none; with the arguments from there on. -/
def parseLeading? (flags : List Flag) : Nat → Parsed → List String → Option (Parsed × List String)
  | 0, _, _ => none
  | _ + 1, p, [] => some (p, [])
  | fuel + 1, p, argument :: rest =>
    if argument = "--" then none
    else if looksLikeOption argument then do
      let (p, rest) ← option? flags p argument rest
      if p.isInquiry then some (p, rest) else parseLeading? flags fuel p rest
    else some (p, argument :: rest)

/-! ## Commands -/

/-- What is to be done. -/
inductive Command where
  /-- Write a configuration and an example; `overwrite` replaces what is there. -/
  | init (overwrite : Bool)
  /-- Write views. -/
  | convert (input : String) (output : Option String) (format : Option DocumentFormat)
  /-- Report what cannot be converted. -/
  | check (input : String)
  deriving DecidableEq, Repr

/-- A command with the options for all commands. -/
structure Invocation where
  /-- The path of the configuration. -/
  configuration : String
  /-- Whether details are reported. -/
  verbose : Bool
  /-- The command. -/
  command : Command
  deriving DecidableEq, Repr

/-- The meaning of arguments. -/
inductive Request where
  /-- Show the help for a command, or for all. -/
  | help (command : Option String)
  /-- Show the version. -/
  | version
  /-- Run a command. -/
  | run (invocation : Invocation)
  deriving DecidableEq, Repr

/-- The names of the commands. -/
def commandNames : List String := ["init", "convert", "check", "help"]

/-- The options before the name of a command. -/
def leadingFlags : List Flag :=
  [⟨"config".toList, 'c', .path⟩, ⟨"verbose".toList, 'v', .nothing⟩, helpFlag, versionFlag]

/-- The options of a command, and how many inputs it has. -/
def commandFlags : String → List Flag × Nat
  | "init" => ([⟨"yes".toList, 'y', .nothing⟩, helpFlag], 0)
  | "convert" =>
    ([⟨"output".toList, 'o', .path⟩, ⟨"format".toList, 'f', .format⟩, helpFlag], 1)
  | _ => ([helpFlag], 1)

/-- The command of a name with the given options and inputs. -/
def Command.ofParsed? (name : String) (p : Parsed) : Option Command :=
  match name, p.inputs with
  | "init", [] => some (.init (p.has 'y'))
  | "convert", [input] =>
    some (.convert input (p.value? 'o') ((p.value? 'f').bind DocumentFormat.ofName?))
  | "check", [input] => some (.check input)
  | _, _ => none

/-- The request to run a command, or for the help about it. -/
def Request.ofCommand? (leading : Parsed) (name : String) (arguments : List String) :
    Option Request := do
  let (flags, inputs) := commandFlags name
  let p ← parseOptions? flags inputs (arguments.length + 1) {} arguments
  if p.help then some (.help (some name))
  else
    let command ← Command.ofParsed? name p
    some (.run
      { configuration := (leading.value? 'c').getD "propcast.toml"
        verbose := leading.has 'v', command })

/-- The meaning of arguments. -/
def Request.ofArguments? (arguments : List String) : Option Request := do
  let (leading, rest) ← parseLeading? leadingFlags (arguments.length + 1) {} arguments
  if leading.help then some (.help none)
  else if leading.version then some .version
  else
    match rest with
    -- On its own, it tells about the program, and with a name about that command.
    | ["help"] => some (.help none)
    | ["help", name] => if commandNames.contains name then some (.help (some name)) else none
    | name :: arguments =>
      if name ≠ "help" ∧ commandNames.contains name then
        Request.ofCommand? leading name arguments
      else none
    | [] => none

end ComponentViews
