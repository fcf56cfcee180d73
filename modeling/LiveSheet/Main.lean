import LiveSheet.CommandLine.Run

namespace LiveSheet

/-!
# The program

Takes in the files that the arguments name, makes the run in memory, writes the file that it saved
and prints what it shows.  The user's settings file is looked for under the home directory.
-/

namespace Program

/-- The file behind an open handle.  A directory can be opened, but not read. -/
def lookBehind (handle : IO.FS.Handle) : IO Node := do
  try
    return .file (← handle.readBinToEnd)
  catch _ =>
    return .directory

/-- What stands at a path of the system. -/
def look (path : String) : IO (Option Node) := do
  try
    return some (← lookBehind (← IO.FS.Handle.mk path .read))
  catch _ =>
    return none

/-- Adds all that stands on the way along a path of the system to a tree. -/
def gather (fs : Files) (path : String) : IO Files := do
  let mut tree := fs
  let steps := Files.steps path
  for count in List.range steps.length do
    let way := steps.take (count + 1)
    if let some node ← look ("/".intercalate way) then
      tree := tree.putWithParents (Files.placeOf way) node
  return tree

/-- Adds the user's settings file to a tree. -/
def gatherSettings (fs : Files) : IO Files := do
  let home := (← IO.getEnv "HOME").getD ""
  match ← look (home ++ "/" ++ Settings.userPath) with
  | some node => return fs.putWithParents (Files.placeOf (Files.steps Settings.userPath)) node
  | none => return fs

/-- The part of the system's files that a run may look at. -/
def gatherAll (arguments : List String) : IO Files := do
  match Options.read arguments with
  | .error _ => return ∅
  | .ok o =>
    let mut tree := (∅ : Files)
    for path in o.file.toList ++ o.output.toList ++ o.config.toList do
      tree ← gather tree path
    if o.config.isNone && !o.noConfig then gatherSettings tree else return tree

/-- Writes the file that a run saved.  A system that refuses makes the run fail. -/
def save (report : Report) : IO Report := do
  match report.saved with
  | none => return report
  | some path =>
    try
      IO.FS.writeFile path ((report.files.readText path).toOption.getD "")
      return report
    catch e =>
      let message := "Error: Read/write error: Cannot write " ++ path ++ ": " ++ toString e
      return ⟨1, report.output, report.messages.dropLast ++ [message], report.files, none⟩

end Program

end LiveSheet

open LiveSheet in
/-- Runs the command line. -/
def main (arguments : List String) : IO UInt32 := do
  let report ← Program.save (commandLine (← Program.gatherAll arguments) arguments)
  for line in report.output do
    IO.println line
  for line in report.messages do
    IO.eprintln line
  return UInt32.ofNat report.code
