import Std.Data.ExtTreeMap.Lemmas

namespace LiveSheet

/-!
# Files

A tree of files and directories, in memory.  The working directory is the top of the tree: paths
that start with a slash start there too, and it is its own parent.

* `Files` — the tree.  Every directory on the way to an entry has an entry of its own.
* `FileError` — why a file cannot be used, with the wording of the system.
* `Files.size`, `Files.readText`, `Files.write`, `Files.exists` — the operations on paths.
-/

/-- What stands at a place in the tree. -/
inductive Node where
  | file (bytes : ByteArray)
  | directory

/-- A place in the tree: the names from the top. -/
abbrev Place := List String

/-- A tree of files and directories; the directory at the top has no entry. -/
structure Files where
  nodes : Std.ExtTreeMap Place Node

/-- Why a file cannot be used. -/
inductive FileError where
  | notFound
  | notDirectory
  | isDirectory
  | nameTooLong
  /-- A path with a zero character. -/
  | zeroInPath
  /-- The bytes of a file are no text. -/
  | notText
deriving DecidableEq, Repr

namespace FileError

/-- The system's wording. -/
def reason : FileError → String
  | notFound => "No such file or directory (os error 2)"
  | notDirectory => "Not a directory (os error 20)"
  | isDirectory => "Is a directory (os error 21)"
  | nameTooLong => "File name too long (os error 36)"
  | zeroInPath => "file name contained an unexpected NUL byte"
  | notText => "stream did not contain valid UTF-8"

end FileError

namespace Files

/-- The tree without entries. -/
def empty : Files := ⟨∅⟩

instance : EmptyCollection Files := ⟨empty⟩

/-- What stands at a place. -/
def node? (fs : Files) : Place → Option Node
  | [] => some .directory
  | place => fs.nodes[place]?

/-- Puts a file or directory at a place. -/
def put (fs : Files) (place : Place) (node : Node) : Files := ⟨fs.nodes.insert place node⟩

/-- Puts directories at all places on the way from `above` along the given names. -/
def putDirectories (fs : Files) (above : Place) : List String → Files
  | [] => fs
  | name :: rest => (fs.put (above ++ [name]) .directory).putDirectories (above ++ [name]) rest

/-- Puts a file or directory at a place, with the directories above it. -/
def putWithParents (fs : Files) (place : Place) (node : Node) : Files :=
  (fs.putDirectories [] place.dropLast).put place node

/-- The files, with their paths, in the order of the paths' names. -/
def files (fs : Files) : List (String × ByteArray) :=
  fs.nodes.toList.filterMap fun entry =>
    match entry.2 with
    | .file bytes => some ("/".intercalate entry.1, bytes)
    | .directory => none

/-! ### Paths -/

/-- The names in a path. -/
def steps (path : String) : List String := (path.toList.splitOn '/').map String.ofList

/-- The place that names lead to from the top, whatever the tree holds. -/
def placeOf (names : List String) : Place :=
  names.foldl (fun place name =>
    if name = "" ∨ name = "." then place
    else if name = ".." then place.dropLast
    else place ++ [name]) []

/-- What is wrong with a path whatever the tree holds. -/
def pathFault? (path : String) : Option FileError :=
  if path.toList.contains '\x00' then some .zeroInPath
  else if path = "" then some .notFound
  else if 4096 ≤ path.utf8ByteSize then some .nameTooLong
  else none

/-- Follows names from a place.  Each step is taken from a directory. -/
def follow (fs : Files) (place : Place) : List String → Except FileError Place
  | [] => .ok place
  | name :: rest =>
    match fs.node? place with
    | none => .error .notFound
    | some (.file _) => .error .notDirectory
    | some .directory =>
      if name = "" ∨ name = "." then fs.follow place rest
      else if name = ".." then fs.follow place.dropLast rest
      else if 255 < name.utf8ByteSize then .error .nameTooLong
      else fs.follow (place ++ [name]) rest

/-- What stands at a path. -/
def find (fs : Files) (path : String) : Except FileError Node :=
  match pathFault? path with
  | some e => .error e
  | none =>
    match fs.follow [] (steps path) with
    | .error e => .error e
    | .ok place =>
      match fs.node? place with
      | some node => .ok node
      | none => .error .notFound

/-- Whether anything stands at a path. -/
def exists? (fs : Files) (path : String) : Bool := (fs.find path).isOk

/-! ### Reading -/

/-- The size that the system gives for a directory. -/
def directorySize : Nat := 4096

/-- The number of bytes at a path. -/
def size (fs : Files) (path : String) : Except FileError Nat :=
  (fs.find path).map fun node =>
    match node with
    | .file bytes => bytes.size
    | .directory => directorySize

/-- The text of the file at a path. -/
def readText (fs : Files) (path : String) : Except FileError String :=
  match fs.find path with
  | .error e => .error e
  | .ok .directory => .error .isDirectory
  | .ok (.file bytes) =>
    match String.fromUTF8? bytes with
    | some s => .ok s
    | none => .error .notText

/-! ### Writing -/

/-- The place at which a path would put a file. -/
def target (fs : Files) (path : String) : Except FileError Place :=
  match pathFault? path with
  | some e => .error e
  | none =>
    let names := ((steps path).reverse.dropWhile (· == "")).reverse
    match names.getLast? with
    | none => .error .isDirectory
    | some name =>
      match fs.follow [] names.dropLast with
      | .error e => .error e
      | .ok above =>
        match fs.node? above with
        | none => .error .notFound
        | some (.file _) => .error .notDirectory
        | some .directory =>
          if name = "." ∨ name = ".." ∨ path.endsWith "/" then .error .isDirectory
          else if 255 < name.utf8ByteSize then .error .nameTooLong
          else
            match fs.node? (above ++ [name]) with
            | some .directory => .error .isDirectory
            | _ => .ok (above ++ [name])

/-- Writes a text into the file at a path, which is made if it is missing. -/
def writeText (fs : Files) (path text : String) : Except FileError Files :=
  (fs.target path).map fun place => fs.put place (.file text.toUTF8)

end Files

end LiveSheet
