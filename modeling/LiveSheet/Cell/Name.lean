import LiveSheet.Text.Quoted

namespace LiveSheet

/-!
# Cell names

A cell name is one or more ASCII letters followed by one or more ASCII digits.  Letter case does not
matter: names are kept in upper case, so equal cells have equal names.

* `CellName` — a name in upper case.
* `CellName.ofText?` — the cell that a text names, if any.
* `CellName` is ordered by its text, code point by code point.
-/

/-- Whether a text is upper-case ASCII letters followed by ASCII digits, some of each. -/
def isUpperName (cs : List Char) : Bool :=
  let letters := cs.takeWhile Char.isUpper
  let digits := cs.dropWhile Char.isUpper
  !letters.isEmpty && !digits.isEmpty && digits.all Char.isDigit

/-- The name of a cell, in upper case. -/
structure CellName where
  text : String
  wellFormed : isUpperName text.toList = true
deriving DecidableEq

namespace CellName

instance : Repr CellName := ⟨fun n _ => n.text⟩

/-- A name is its text. -/
theorem ext_text {m n : CellName} (h : m.text = n.text) : m = n := by
  cases m
  cases n
  cases h
  rfl

instance : Ord CellName := ⟨compareOn CellName.text⟩

instance : Std.TransOrd CellName :=
  inferInstanceAs (Std.TransCmp (compareOn CellName.text))

instance : Std.LawfulEqOrd CellName where
  eq_of_compare h := ext_text (Std.LawfulEqOrd.eq_of_compare h)

/-- The upper-case form of any text; letters outside ASCII are kept. -/
def normalized (s : String) : String := s.map Char.toUpper

/-- The cell that a text names. -/
def ofText? (s : String) : Option CellName :=
  if h : isUpperName (normalized s).toList = true then some ⟨normalized s, h⟩ else none

/-- The message for a text that names no cell. -/
def invalidMessage (given : String) : String := "Invalid cell name: " ++ quoted given

/-- The text of a name is the upper-case form of the text it was read from. -/
theorem text_of_ofText? {s : String} {n : CellName} (h : ofText? s = some n) :
    n.text = normalized s := by
  unfold ofText? at h
  split at h
  · cases h
    rfl
  · cases h

end CellName

end LiveSheet
