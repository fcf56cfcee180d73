namespace LiveSheet

/-!
# Command-line options

* `Options` — what the arguments ask for.
* `UsageError` — what can be wrong with the arguments.
* `Options.read` — reads the arguments from left to right; the first one that asks for help or is
  wrong ends the reading.
* `usage` — the help text.
-/

/-- What the arguments ask for. -/
structure Options where
  /-- The sheet file to work on. -/
  file : Option String
  /-- The edits, each a name, an equals sign and a text, in order. -/
  sets : List String
  /-- The cells whose values are shown, in order. -/
  gets : List String
  /-- Show every non-empty cell. -/
  print : Bool
  /-- The file to save to, if it is not the sheet file. -/
  output : Option String
  /-- The settings file. -/
  config : Option String
  /-- Use no settings file. -/
  noConfig : Bool
deriving DecidableEq, Repr

/-- What can be wrong with the arguments. -/
inductive UsageError where
  /-- The last argument needs a value after it. -/
  | missingValue (option what : String)
  | unknownOption (argument : String)
  | unexpected (argument : String)
deriving DecidableEq, Repr

/-- Why arguments give no options. -/
inductive Stop where
  | help
  | wrong (e : UsageError)
deriving DecidableEq, Repr

/-- The wording of a usage error. -/
def UsageError.message : UsageError → String
  | .missingValue option what => option ++ " requires " ++ what
  | .unknownOption argument => "Unknown option: " ++ argument
  | .unexpected argument => "Unexpected argument: " ++ argument

/-- Whether the help text follows the message. -/
def UsageError.showsUsage : UsageError → Bool
  | .missingValue _ _ => false
  | .unknownOption _ => true
  | .unexpected _ => true

/-- The help text. -/
def usage : List String := [
  "Usage: cellgraph [OPTIONS] [FILE]",
  "",
  "Arguments:",
  "  [FILE]                    Sheet file to open (.json); created on save if missing",
  "",
  "Options:",
  "  -s, --set <NAME=TEXT>     Set a cell (can be repeated)",
  "  -g, --get <NAME>          Print a cell value (can be repeated)",
  "  -p, --print               Print every non-empty cell",
  "  -o, --output <FILE>       Save to FILE",
  "  --config <FILE>           Load settings from TOML file",
  "  --no-config               Ignore the user config file",
  "  --verbose                 Log debug output to stderr",
  "  -h, --help                Print help"]

namespace Options

/-- The options without arguments. -/
def initial : Options := ⟨none, [], [], false, none, none, false⟩

/-- An option that takes a value. -/
inductive ValueOption where
  | set
  | get
  | output
  | config
deriving DecidableEq, Repr

namespace ValueOption

/-- The option that an argument stands for. -/
def ofArgument? (argument : String) : Option ValueOption :=
  if argument = "-s" ∨ argument = "--set" then some set
  else if argument = "-g" ∨ argument = "--get" then some get
  else if argument = "-o" ∨ argument = "--output" then some output
  else if argument = "--config" then some config
  else none

/-- The error of the option when no value follows it. -/
def missing : ValueOption → UsageError
  | set => .missingValue "--set" "NAME=TEXT"
  | get => .missingValue "--get" "a cell name"
  | output => .missingValue "--output" "a file path"
  | config => .missingValue "--config" "a file path"

end ValueOption

/-- Adds a value.  Edits and queries add up; of the paths the last one counts. -/
def withValue (o : Options) : ValueOption → String → Options
  | .set, v => ⟨o.file, o.sets ++ [v], o.gets, o.print, o.output, o.config, o.noConfig⟩
  | .get, v => ⟨o.file, o.sets, o.gets ++ [v], o.print, o.output, o.config, o.noConfig⟩
  | .output, v => ⟨o.file, o.sets, o.gets, o.print, some v, o.config, o.noConfig⟩
  | .config, v => ⟨o.file, o.sets, o.gets, o.print, o.output, some v, o.noConfig⟩

/-- Asks for every cell to be shown. -/
def withPrint (o : Options) : Options :=
  ⟨o.file, o.sets, o.gets, true, o.output, o.config, o.noConfig⟩

/-- Asks for no settings file. -/
def withoutConfig (o : Options) : Options :=
  ⟨o.file, o.sets, o.gets, o.print, o.output, o.config, true⟩

/-- Names the sheet file. -/
def withFile (o : Options) (path : String) : Options :=
  ⟨some path, o.sets, o.gets, o.print, o.output, o.config, o.noConfig⟩

/-- Reads an argument that takes no value. -/
def readSingle (o : Options) (argument : String) : Except Stop Options :=
  if argument = "-h" ∨ argument = "--help" then .error .help
  else if argument = "-p" ∨ argument = "--print" then .ok o.withPrint
  else if argument = "--no-config" then .ok o.withoutConfig
  else if argument = "--verbose" then .ok o
  else if argument.startsWith "-" then .error (.wrong (.unknownOption argument))
  else if o.file.isNone then .ok (o.withFile argument)
  else .error (.wrong (.unexpected argument))

/-- Reads the arguments, after those read already. -/
def readFrom (o : Options) : List String → Except Stop Options
  | [] => .ok o
  | [argument] =>
    match ValueOption.ofArgument? argument with
    | some option => .error (.wrong option.missing)
    | none => o.readSingle argument
  | argument :: value :: rest =>
    match ValueOption.ofArgument? argument with
    | some option => (o.withValue option value).readFrom rest
    | none =>
      match o.readSingle argument with
      | .ok next => next.readFrom (value :: rest)
      | .error stop => .error stop

/-- Reads the arguments. -/
def read (arguments : List String) : Except Stop Options := initial.readFrom arguments

end Options

end LiveSheet
