import LiveSheet.Proofs.Json.Spelling

namespace LiveSheet

/-!
# Sheet files are read back from their text

* `SheetFile.jsonOf`, `SheetFile.charsOf` — the value and the text of members.
* `SheetFile.derives_charsOf`, `SheetFile.members?_of_derives` — members and the grammar.
* `SheetFile.LastMember`, `SheetFile.getElem?_ofMembers_iff` — the texts of a file that is given by
  its members.
* `SheetFile.read?_write` — a file is read back from its text, in either layout.
* `SheetFile.write_roundTrip` — what this says about texts and files.
-/

namespace Json

/-! ### Members of a value -/

/-- A record with one field is read from the value of this field. -/
theorem record?_field {α : Type} (field : String) (read : Json → Option α) (v : Json) :
    record? field read (.object [(some field, v)]) = read v := by
  simp [record?]

/-- A table is read from an object whose values are each read as what they were written for. -/
theorem table?_members {α : Type} {read : Json → Option α} {write : α → Json}
    (h : ∀ v, read (write v) = some v) (members : List (String × α)) :
    table? read (.object (members.map fun m => (some m.1, write m.2))) = some members := by
  rw [table?]
  induction members with
  | nil => rfl
  | cons m rest ih =>
    rw [List.map_cons, List.mapM_cons, ih]
    simp [h]

end Json

namespace SheetFile

/-! ### The text of a file -/

/-- The value that has the given members. -/
def jsonOf (members : List (String × String)) : Json :=
  .object [(some "Cells", .object (members.map fun cell =>
    (some cell.1, .object [(some "StringForm", .string (some cell.2))])))]

/-- The text of the given members. -/
def charsOf (layout : Layout) (members : List (String × String)) : List Char :=
  layout.object 0 [layout.member "Cells" (layout.object 1 (members.map (cellMember layout)))]

/-- The text of the members is written as the grammar has it, in either layout. -/
theorem derives_charsOf (layout : Layout) (members : List (String × String)) :
    Json.Derives (charsOf layout members) (.value (jsonOf members)) := by
  have hcell (cell : String × String) : Json.Derives (cellMember layout cell)
      (.members [(some cell.1, .object [(some "StringForm", .string (some cell.2))])]) := by
    have htext := Json.derives_member layout (Json.derives_quote cell.2) "StringForm"
    exact Json.derives_member layout (Json.derives_object layout (.cons htext .nil)) cell.1
  have hcells : Json.Derives (layout.object 1 (members.map (cellMember layout))) (.value _) :=
    Json.derives_object layout (List.forall₂_map_left_iff.2
      (List.forall₂_map_right_iff.2 (List.forall₂_same.2 fun cell _ => hcell cell)))
  exact Json.derives_object layout (.cons (Json.derives_member layout hcells "Cells") .nil)

/-- The value that has the members is read as the members. -/
theorem membersOf?_jsonOf (members : List (String × String)) :
    membersOf? (jsonOf members) = some members := by
  have hcell (text : String) : Json.record? "StringForm" Json.text?
      (.object [(some "StringForm", .string (some text))]) = some text :=
    Json.record?_field _ _ _
  rw [membersOf?, jsonOf, Json.record?_field]
  exact Json.table?_members hcell members

/-- Members are read from every text that the grammar has for them. -/
theorem members?_of_derives {cs : List Char} {members : List (String × String)}
    (h : Json.Derives cs (.value (jsonOf members))) :
    members? (String.ofList cs) = some members := by
  rw [members?, Json.ofText?_of_derives h, Option.bind_some, membersOf?_jsonOf]

/-- **Members are read from their text**, in order, and repeated names too. -/
theorem members?_charsOf (layout : Layout) (members : List (String × String)) :
    members? (String.ofList (charsOf layout members)) = some members :=
  members?_of_derives (derives_charsOf layout members)

/-! ### Repeated names -/

section Members

variable {members : List (String × String)} {name text : String}

/-- The text is given for the name, and no other one is given for it later. -/
def LastMember (members : List (String × String)) (name text : String) : Prop :=
  ∃ before after, members = before ++ (name, text) :: after ∧ ∀ m ∈ after, m.1 ≠ name

/-- Every name that is given has a last text. -/
theorem exists_lastMember (h : (name, text) ∈ members) : ∃ last, LastMember members name last := by
  induction members generalizing text with
  | nil => exact absurd h List.not_mem_nil
  | cons m rest ih =>
    by_cases hlater : ∃ text', (name, text') ∈ rest
    · -- the last one of the rest is the last one of all
      obtain ⟨text', htext'⟩ := hlater
      obtain ⟨last, before, after, rfl, hafter⟩ := ih htext'
      exact ⟨last, m :: before, after, rfl, hafter⟩
    · rcases List.mem_cons.1 h with rfl | hrest
      · refine ⟨text, [], rest, rfl, ?_⟩
        rintro ⟨name', text'⟩ hmem rfl
        exact hlater ⟨text', hmem⟩
      · exact absurd ⟨text, hrest⟩ hlater

/-- If no name is repeated, every text is the last one for its name. -/
theorem lastMember_iff_mem (h : members.Pairwise fun m n => m.1 ≠ n.1) :
    LastMember members name text ↔ (name, text) ∈ members := by
  constructor
  · rintro ⟨before, after, rfl, -⟩
    exact List.mem_append_right before List.mem_cons_self
  · intro hmem
    obtain ⟨before, after, rfl⟩ := List.append_of_mem hmem
    obtain ⟨-, hafter, -⟩ := List.pairwise_append.1 h
    exact ⟨before, after, rfl, fun m hm => (List.rel_of_pairwise_cons hafter hm).symm⟩

/-- **A file has the last text that is given for each name.** -/
theorem getElem?_ofMembers_iff :
    (ofMembers members).cells[name]? = some text ↔ LastMember members name text := by
  -- Behind the last one, no insertion touches the name.
  have hlast {last : String} (h : LastMember members name last) :
      (ofMembers members).cells[name]? = some last := by
    obtain ⟨before, after, rfl, hafter⟩ := h
    have hnone : (after.map Prod.fst).contains name = false := by
      simpa using fun text' hmem => hafter (name, text') hmem rfl
    rw [ofMembers, Std.ExtTreeMap.ofList_eq_insertMany_empty, Std.ExtTreeMap.insertMany_append,
      Std.ExtTreeMap.insertMany_cons,
      Std.ExtTreeMap.getElem?_insertMany_list_of_contains_eq_false hnone,
      Std.ExtTreeMap.getElem?_insert_self]
  refine ⟨fun hget => ?_, hlast⟩
  have hcontains : name ∈ (ofMembers members).cells :=
    Std.ExtTreeMap.mem_iff_isSome_getElem?.2 (by rw [hget]; rfl)
  rw [ofMembers, Std.ExtTreeMap.mem_ofList, List.contains_iff_mem, List.mem_map] at hcontains
  -- A name in the file has a last text, and this is the one that is there.
  obtain ⟨⟨name', text'⟩, hmem, rfl⟩ := hcontains
  obtain ⟨last, h⟩ := exists_lastMember hmem
  cases hget.symm.trans (hlast h)
  exact h

/-- If no name is repeated, the text of each is the one given with it. -/
theorem getElem?_ofMembers (h : members.Pairwise fun m n => m.1 ≠ n.1) :
    (ofMembers members).cells[name]? = some text ↔ (name, text) ∈ members := by
  rw [getElem?_ofMembers_iff, lastMember_iff_mem h]

end Members

/-! ### Files -/

/-- A file gives no name twice. -/
theorem members_pairwise (f : SheetFile) : f.members.Pairwise fun m n => m.1 ≠ n.1 := by
  refine Std.ExtTreeMap.distinct_keys_toList.imp fun hne heq => hne ?_
  rw [heq]
  exact Std.ReflCmp.compare_self

/-- The members of a file are its names with their texts. -/
theorem mem_members_iff {f : SheetFile} {name text : String} :
    (name, text) ∈ f.members ↔ f.cells[name]? = some text :=
  Std.ExtTreeMap.mem_toList_iff_getElem?_eq_some

/-- The members of a file are those that were given last for their names. -/
theorem mem_members_ofMembers {members : List (String × String)} {name text : String} :
    (name, text) ∈ (ofMembers members).members ↔ LastMember members name text := by
  rw [mem_members_iff, getElem?_ofMembers_iff]

/-- A file is its members. -/
theorem ofMembers_members (f : SheetFile) : ofMembers f.members = f := by
  have hcells : (ofMembers f.members).cells = f.cells := by
    refine Std.ExtTreeMap.ext_getElem? fun name => Option.ext fun text => ?_
    rw [getElem?_ofMembers f.members_pairwise, mem_members_iff]
  exact congrArg SheetFile.mk hcells

/-- **A file is read back from its text**, in either layout. -/
theorem read?_write (f : SheetFile) (layout : Layout) : read? (f.write layout) = some f := by
  have hmembers : members? (f.write layout) = some f.members := members?_charsOf layout f.members
  rw [read?, hmembers, Option.map_some, ofMembers_members]

/-- **Files and their texts.**  Whatever the names and texts of a file are:
    * Its text, in either layout, is by the grammar the value that has each of them once, ordered by
      name, and is read as the file.
    * So is every text that the grammar has for this value.
    * The compact and the pretty text are read as the same file.
    * No other file has the same text, in either layout. -/
theorem write_roundTrip (f : SheetFile) :
    (∀ layout, Json.Derives (f.write layout).toList (.value (jsonOf f.members)) ∧
      read? (f.write layout) = some f) ∧
    (∀ cs, Json.Derives cs (.value (jsonOf f.members)) → read? (String.ofList cs) = some f) ∧
    read? (f.write .compact) = read? (f.write .pretty) ∧
    ∀ g layout layout', f.write layout = g.write layout' → f = g := by
  refine ⟨fun layout => ⟨?_, f.read?_write layout⟩, fun cs hcs => ?_, ?_,
    fun g layout layout' hsame => ?_⟩
  · rw [write, String.toList_ofList]
    exact derives_charsOf layout f.members
  · rw [read?, members?_of_derives hcs, Option.map_some, ofMembers_members]
  · rw [read?_write, read?_write]
  · apply Option.some.inj
    rw [← f.read?_write layout, hsame, g.read?_write]

end SheetFile

end LiveSheet
