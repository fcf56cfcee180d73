import LiveSheet.Files.Basic
import LiveSheet.Storage.Loading

namespace LiveSheet

/-!
# Sheets in files

* `StorageError` — why a sheet cannot be opened or saved.
* `Files.openSheet` — the sheet in a file; a file above `maxSheetBytes` is not read.
* `Files.saveSheet` — writes a sheet into a file.
-/

/-- Why a sheet cannot be opened or saved. -/
inductive StorageError where
  | cannotRead (path : String) (cause : FileError)
  | tooLarge (path : String) (size limit : Nat)
  | cannotWrite (path : String) (cause : FileError)
  | load (e : LoadError)
deriving DecidableEq

/-- The wording for a file that is too large to be read. -/
def tooLargeDetail (path : String) (size limit : Nat) : String :=
  "Refusing to read " ++ path ++ ": file too large (" ++ toString size ++ " bytes, max "
    ++ toString limit ++ ")"

/-- The message shown to the user. -/
def StorageError.message (e : StorageError) : String :=
  "Read/write error: " ++
    match e with
    | .cannotRead path cause => "Cannot read " ++ path ++ ": " ++ cause.reason
    | .tooLarge path size limit => tooLargeDetail path size limit
    | .cannotWrite path cause => "Cannot write " ++ path ++ ": " ++ cause.reason
    | .load e => e.detail

/-- Larger sheet files are not read: sixteen mebibytes. -/
def maxSheetBytes : Nat := 16 * 1048576

namespace Files

/-- The sheet that a text describes. -/
def loadSheet (text : String) : Except StorageError Sheet :=
  (Sheet.ofJson text).mapError .load

/-- The sheet in the file at a path. -/
def openSheet (fs : Files) (path : String) : Except StorageError Sheet :=
  match fs.size path with
  | .error e => .error (.cannotRead path e)
  | .ok size =>
    if maxSheetBytes < size then .error (.tooLarge path size maxSheetBytes)
    else
      match fs.readText path with
      | .error e => .error (.cannotRead path e)
      | .ok text => loadSheet text

/-- Writes a sheet into the file at a path. -/
def saveSheet (fs : Files) (s : Sheet) (path : String) (layout : Layout) :
    Except StorageError Files :=
  (fs.writeText path (s.toJson layout)).mapError (.cannotWrite path)

end Files

end LiveSheet
