import LiveSheet.Storage.SheetFile

namespace LiveSheet

/-!
# Writing sheet files

* `Layout` — compact, or pretty with an indent of two spaces for each level.
* `Layout.object` — an object with its members in the given order.
* `SheetFile.write` — the text of a file, with the cells ordered by name.
-/

/-- How JSON is laid out. -/
inductive Layout where
  | compact
  | pretty
deriving DecidableEq, Repr

namespace Layout

/-- The layout that a flag chooses. -/
def ofPretty (pretty : Bool) : Layout := if pretty then .pretty else .compact

/-- The start of a new line at a depth; nothing in the compact layout. -/
def newline : Layout → Nat → List Char
  | .compact, _ => []
  | .pretty, depth => '\n' :: List.replicate (2 * depth) ' '

/-- What stands between a name and its value. -/
def colon : Layout → List Char
  | .compact => [':']
  | .pretty => [':', ' ']

/-- A member of an object. -/
def member (layout : Layout) (name : String) (value : List Char) : List Char :=
  Json.quote name ++ layout.colon ++ value

/-- Members on lines of their own, with commas between them. -/
def lines (layout : Layout) (depth : Nat) : List (List Char) → List Char
  | [] => []
  | [m] => layout.newline depth ++ m
  | m :: rest => layout.newline depth ++ m ++ ',' :: layout.lines depth rest

/-- An object whose opening brace stands at a depth.  An empty one has nothing between the
    braces. -/
def object (layout : Layout) (depth : Nat) (members : List (List Char)) : List Char :=
  match members with
  | [] => ['\x7b', '\x7d']
  | members =>
    '\x7b' :: (layout.lines (depth + 1) members ++ layout.newline depth ++ ['\x7d'])

end Layout

namespace SheetFile

/-- The member of a cell. -/
def cellMember (layout : Layout) (cell : String × String) : List Char :=
  layout.member cell.1 (layout.object 2 [layout.member "StringForm" (Json.quote cell.2)])

/-- The characters of a file's text. -/
def chars (f : SheetFile) (layout : Layout) : List Char :=
  layout.object 0 [layout.member "Cells" (layout.object 1 (f.members.map (cellMember layout)))]

/-- The text of a file. -/
def write (f : SheetFile) (layout : Layout) : String := String.ofList (f.chars layout)

end SheetFile

end LiveSheet
