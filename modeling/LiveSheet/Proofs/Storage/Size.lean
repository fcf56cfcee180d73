import LiveSheet.Storage.Writing
import Mathlib.Data.List.Infix

namespace LiveSheet

/-!
# How long a written file is at least

All parts of a file stand in its text one after the other, and no character is written shorter than
it is.

* `Layout.infix_object`, `Layout.infix_member` — an object contains its members, and these their
  values.
* `SheetFile.length_le_utf8ByteSize_write` — a file is at least as long as the text of any cell.
-/

/-- Every character takes a byte. -/
theorem length_le_utf8ByteSize (cs : List Char) : cs.length ≤ (String.ofList cs).utf8ByteSize := by
  induction cs with
  | nil => exact Nat.zero_le _
  | cons c cs ih =>
    have hpos := c.utf8Size_pos
    rw [String.ofList_cons, String.utf8ByteSize_append, String.utf8ByteSize_singleton,
      List.length_cons]
    omega

namespace Json

/-- A character is written with at least one character. -/
theorem escaped_ne_nil (c : Char) : escaped c ≠ [] := by
  unfold escaped
  repeat' split
  all_goals exact List.cons_ne_nil _ _

/-- No character is written shorter than it is. -/
theorem length_le_length_quote (s : String) : s.toList.length ≤ (quote s).length := by
  have hflat : ∀ cs : List Char, cs.length ≤ (cs.flatMap escaped).length := by
    intro cs
    induction cs with
    | nil => exact Nat.le_refl 0
    | cons c cs ih =>
      have hpos := List.length_pos_iff.2 (escaped_ne_nil c)
      rw [List.flatMap_cons, List.length_append, List.length_cons]
      omega
  have hchars := hflat s.toList
  rw [quote, List.length_cons, List.length_append]
  omega

end Json

namespace Layout

variable {layout : Layout}

/-- The value of a member stands in its text. -/
theorem infix_member (name : String) (value : List Char) : value <:+: layout.member name value :=
  (List.suffix_append _ value).isInfix

/-- Each of some lines stands in their text. -/
theorem infix_lines {m : List Char} {members : List (List Char)} (h : m ∈ members) (depth : Nat) :
    m <:+: layout.lines depth members := by
  fun_induction lines layout depth members with
  | case1 => cases h
  | case2 only =>
    rw [List.mem_singleton.1 h]
    exact (List.suffix_append _ _).isInfix
  | case3 first rest _ ih =>
    rcases List.mem_cons.1 h with rfl | hrest
    · exact ⟨layout.newline depth, ',' :: layout.lines depth rest, rfl⟩
    · exact (ih hrest).trans
        ((List.suffix_cons ',' _).trans (List.suffix_append _ _)).isInfix

/-- Each member stands in the text of an object. -/
theorem infix_object {m : List Char} {members : List (List Char)} (h : m ∈ members) (depth : Nat) :
    m <:+: layout.object depth members := by
  unfold object
  split
  · cases h
  · have hlines : m <:+: layout.lines (depth + 1) members := infix_lines h (depth + 1)
    rw [List.append_assoc]
    exact hlines.trans ((List.prefix_append _ _).isInfix.trans (List.suffix_cons _ _).isInfix)

end Layout

namespace SheetFile

variable {f : SheetFile} {name text : String}

/-- The text of a cell, as it is written, stands in the file. -/
theorem quote_infix_chars (h : (name, text) ∈ f.members) (layout : Layout) :
    Json.quote text <:+: f.chars layout :=
  calc Json.quote text
    _ <:+: layout.member "StringForm" (Json.quote text) := Layout.infix_member _ _
    _ <:+: layout.object 2 [layout.member "StringForm" (Json.quote text)] :=
      Layout.infix_object List.mem_cons_self 2
    _ <:+: cellMember layout (name, text) := Layout.infix_member _ _
    _ <:+: layout.object 1 (f.members.map (cellMember layout)) :=
      Layout.infix_object (List.mem_map_of_mem h) 1
    _ <:+: layout.member "Cells" (layout.object 1 (f.members.map (cellMember layout))) :=
      Layout.infix_member _ _
    _ <:+: f.chars layout := Layout.infix_object List.mem_cons_self 0

/-- **A file is at least as long as the text of any cell.** -/
theorem length_le_utf8ByteSize_write (h : (name, text) ∈ f.members) (layout : Layout) :
    text.toList.length ≤ (f.write layout).utf8ByteSize :=
  calc text.toList.length
    _ ≤ (Json.quote text).length := Json.length_le_length_quote text
    _ ≤ (f.chars layout).length := (quote_infix_chars h layout).length_le
    _ ≤ (f.write layout).utf8ByteSize := length_le_utf8ByteSize _

end SheetFile

end LiveSheet
