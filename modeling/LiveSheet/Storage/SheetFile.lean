import LiveSheet.Json.Reading
import Std.Data.ExtTreeMap.Lemmas

namespace LiveSheet

/-!
# Sheet files

A sheet file gives each cell the text that was typed into it.  It is a JSON object with the one
member `Cells`, an object with a member for each cell, whose value is an object with the one member
`StringForm`.  Other members are skipped in the outer and the inner objects.  An object with fixed
members may also be written as an array of their values.

* `SheetFile` — texts by name; names are not looked at.
* `SheetFile.members?` — all members of `Cells`, in order.
* `SheetFile.read?` — the file that a text stands for; a repeated name keeps its last text.
-/

/-- The text of each cell, by name. -/
structure SheetFile where
  cells : Std.ExtTreeMap String String

namespace SheetFile

/-- The file with the given members; of a repeated name the last one counts. -/
def ofMembers (members : List (String × String)) : SheetFile :=
  ⟨Std.ExtTreeMap.ofList members⟩

/-- The names and texts, ordered by name. -/
def members (f : SheetFile) : List (String × String) := f.cells.toList

end SheetFile

namespace Json

/-- The text that a string stands for. -/
def text? : Json → Option String
  | .string text => text
  | _ => none

/-- Reads an object with one fixed member, which has to occur exactly once.  The names of the other
    members have to be texts; their values are skipped. -/
def record? {α : Type} (field : String) (read : Json → Option α) : Json → Option α
  | .array [v] => read v
  | .object members =>
    if members.all (·.1.isSome) then
      match members.filter (·.1 == some field) with
      | [(_, v)] => read v
      | _ => none
    else none
  | _ => none

/-- Reads an object whose members all have texts for names and the same kind of value. -/
def table? {α : Type} (read : Json → Option α) : Json → Option (List (String × α))
  | .object members => members.mapM fun member =>
    match member.1, read member.2 with
    | some name, some v => some (name, v)
    | _, _ => none
  | _ => none

end Json

namespace SheetFile

/-- The names and texts of a JSON value, in order, repeated names too. -/
def membersOf? : Json → Option (List (String × String)) :=
  Json.record? "Cells" (Json.table? (Json.record? "StringForm" Json.text?))

/-- The names and texts in a file's text, in order, repeated names too. -/
def members? (s : String) : Option (List (String × String)) :=
  (Json.ofText? s).bind membersOf?

/-- Reads the text of a file. -/
def read? (s : String) : Option SheetFile := (members? s).map ofMembers

end SheetFile

end LiveSheet
