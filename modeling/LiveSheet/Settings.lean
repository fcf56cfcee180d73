import LiveSheet.Files.Basic
import LiveSheet.Storage.Opening
import LiveSheet.Toml.Reading

namespace LiveSheet

/-!
# Settings

The settings say how a sheet is saved and whether edits are reported.  A settings file is a TOML
document that may hold a table `output` with the flags `pretty` and `show_order`, and nothing else.
The table may also be an array, whose first two items are the flags.

* `Settings` — the flags.
* `Settings.ofText?` — reads the text of a settings file.
* `Settings.load` — the settings of a run with its warnings; a problem with a file never stops a
  run.
-/

/-- How a sheet is saved and what is reported. -/
structure Settings where
  /-- Save in the pretty layout. -/
  pretty : Bool
  /-- Report the cells computed again after each edit. -/
  showOrder : Bool
deriving DecidableEq, Repr

namespace Settings

/-- The settings without a file. -/
def default : Settings := ⟨true, false⟩

instance : Inhabited Settings := ⟨default⟩

/-- Flags that a document has set so far. -/
structure Flags where
  pretty : Option Bool
  showOrder : Option Bool

/-- No flag is set. -/
def noFlags : Flags := ⟨none, none⟩

/-- The settings with the given flags; flags that are not set keep their default. -/
def ofFlags (flags : Flags) : Settings :=
  ⟨flags.pretty.getD default.pretty, flags.showOrder.getD default.showOrder⟩

/-- Sets a flag, which must not be set yet. -/
def setFlag (flags : Flags) (name : String) (value : Toml) : Option Flags :=
  match value with
  | .bool b =>
    if name = "pretty" ∧ flags.pretty = none then some ⟨some b, flags.showOrder⟩
    else if name = "show_order" ∧ flags.showOrder = none then some ⟨flags.pretty, some b⟩
    else none
  | _ => none

/-- Sets the flags of a table. -/
def setFlags (flags : Flags) : List (String × Toml) → Option Flags
  | [] => some flags
  | (name, value) :: rest => (setFlag flags name value).bind (setFlags · rest)

/-- The flags of a value for the whole table: a table, or an array of the flags in order.  Items
    after the second one are not looked at. -/
def flagsOf? : Toml → Option Flags
  | .table _ entries => setFlags noFlags entries
  | .array [] => some noFlags
  | .array [pretty] => setFlag noFlags "pretty" pretty
  | .array (pretty :: showOrder :: _) =>
    (setFlag noFlags "pretty" pretty).bind (setFlag · "show_order" showOrder)
  | _ => none

/-- How far a document has said what its flags are. -/
inductive Progress where
  /-- Nothing is said yet. -/
  | nothing
  /-- Some flags are set by keys with a dot; others may follow. -/
  | dotted (flags : Flags)
  /-- The table is given as one value. -/
  | whole (flags : Flags)
  /-- The header of the table has been read. -/
  | header (flags : Flags)

/-- Takes in a statement.  All that is not about the two flags, and all that says something twice,
    is refused. -/
def Progress.step : Progress → Toml.Statement → Option Progress
  | .nothing, .table ["output"] => some (.header noFlags)
  | .nothing, .entry ["output"] value => (flagsOf? value).map .whole
  | .nothing, .entry ["output", name] value => (setFlag noFlags name value).map .dotted
  | .dotted flags, .entry ["output", name] value => (setFlag flags name value).map .dotted
  | .header flags, .entry [name] value => (setFlag flags name value).map .header
  | _, _ => none

/-- The flags that are set in the end. -/
def Progress.flags : Progress → Flags
  | .nothing => noFlags
  | .dotted flags => flags
  | .whole flags => flags
  | .header flags => flags

/-- Takes in a list of statements. -/
def Progress.run (p : Progress) : List Toml.Statement → Option Progress
  | [] => some p
  | s :: rest => (p.step s).bind (Progress.run · rest)

/-- The settings in the text of a settings file. -/
def ofText? (text : String) : Option Settings :=
  ((Toml.statements? text).bind (Progress.run .nothing)).map fun p => ofFlags p.flags

/-! ### Files -/

/-- Larger settings files are not read: one mebibyte. -/
def maxBytes : Nat := 1048576

/-- A problem with a settings file. -/
inductive Warning where
  | notFound (path : String)
  | cannotLook (path : String) (cause : FileError)
  | tooLarge (path : String) (size : Nat)
  | cannotRead (path : String) (cause : FileError)
  | malformed (path : String)
deriving DecidableEq, Repr

/-- The wording of a warning. -/
def Warning.message : Warning → String
  | .notFound path => "Config file not found: " ++ path
  | .cannotLook path cause => "Failed to read metadata for " ++ path ++ ": " ++ cause.reason
  | .tooLarge path size => tooLargeDetail path size maxBytes
  | .cannotRead path cause => "Failed to read " ++ path ++ ": " ++ cause.reason
  | .malformed path => "Failed to parse " ++ path ++ ": <toml>"

/-- The settings in the file at a path. -/
def read (fs : Files) (path : String) : Except Warning Settings :=
  match fs.size path with
  | .error e => .error (.cannotLook path e)
  | .ok size =>
    if maxBytes < size then .error (.tooLarge path size)
    else
      match fs.readText path with
      | .error e => .error (.cannotRead path e)
      | .ok text =>
        match ofText? text with
        | some settings => .ok settings
        | none => .error (.malformed path)

/-- The path of the user's own settings file. -/
def userPath : String := ".config/cellgraph/config.toml"

/-- The settings in a file, or the default ones with a warning. -/
def readOrWarn (fs : Files) (path : String) : Settings × List Warning :=
  match read fs path with
  | .ok settings => (settings, [])
  | .error w => (default, [w])

/-- The settings of a run.  A file that is asked for has to be there; the user's own file may be
    missing. -/
def load (fs : Files) (path : Option String) : Settings × List Warning :=
  match path with
  | some path => if fs.exists? path then readOrWarn fs path else (default, [.notFound path])
  | none => if fs.exists? userPath then readOrWarn fs userPath else (default, [])

end Settings

end LiveSheet
