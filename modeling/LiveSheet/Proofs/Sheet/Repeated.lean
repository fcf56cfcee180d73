import LiveSheet.Proofs.Sheet.Loading
import LiveSheet.Proofs.Storage.Writing

namespace LiveSheet

/-!
# Files that name a cell twice

Two names for one cell that differ in letter case are refused.  A name that is given twice is not:
when the file is read, its last text takes the place of the others, and these are lost.

* `Sheet.Keeps` — a cell holds what a text stands for.
* `Sheet.keeps_ofJson` — which texts are kept when a sheet is loaded.
* `Sheet.loses_first` — a text that is lost.
-/

namespace Sheet

open SheetFile (LastMember exists_lastMember)

variable {s : Sheet} {text : String} {members : List (String × String)} {name input : String}

/-- The cell with the name holds what the text stands for. -/
def Keeps (s : Sheet) (name input : String) : Prop :=
  ∃ n, CellName.ofText? name = some n ∧ Contents.ofInput input = .ok (s.cells.contents? n)

/-- What a text is loaded as comes from the texts that are given last. -/
theorem ofMembers_of_ofJson (hmembers : SheetFile.members? text = some members)
    (hload : ofJson text = .ok s) : ofMembers (SheetFile.ofMembers members).members = .ok s := by
  obtain ⟨f, hread, hfile⟩ := ofJson_eq_ok_iff.1 hload
  rw [SheetFile.read?, hmembers] at hread
  cases hread
  exact hfile

/-- The text that is given last for a name is kept. -/
theorem keeps_of_last (hload : ofMembers (SheetFile.ofMembers members).members = .ok s)
    (hlast : LastMember members name input) : s.Keeps name input := by
  have hmem := SheetFile.mem_members_ofMembers.2 hlast
  obtain ⟨hdistinct, t, hall, rfl⟩ := ofMembers_eq_ok_iff.1 hload
  obtain ⟨n, -, hn, -⟩ := accepted_of_enterAll hall hmem
  exact ⟨n, hn, ofInput_eq_contents?_enterAll hdistinct hall hmem hn⟩

/-- All names of a cell are the same. -/
theorem name_unique (hload : ofMembers (SheetFile.ofMembers members).members = .ok s)
    {m m' : String × String} (hm : m ∈ members) (hm' : m' ∈ members)
    (hsame : CellName.normalized m.1 = CellName.normalized m'.1) : m.1 = m'.1 := by
  obtain ⟨hdistinct, -⟩ := ofMembers_eq_ok_iff.1 hload
  obtain ⟨last, hlast⟩ := exists_lastMember hm
  obtain ⟨last', hlast'⟩ := exists_lastMember hm'
  have hpair := List.inj_on_of_nodup_map hdistinct (SheetFile.mem_members_ofMembers.2 hlast)
    (SheetFile.mem_members_ofMembers.2 hlast') hsame
  exact (Prod.mk.inj hpair).1

/-- A text is kept if the one that is given last for the same name stands for the same. -/
theorem keeps_iff_of_last (hload : ofMembers (SheetFile.ofMembers members).members = .ok s)
    {last : String} (hlast : LastMember members name last) :
    s.Keeps name input ↔ Contents.ofInput last = Contents.ofInput input := by
  obtain ⟨n, hn, hcontents⟩ := keeps_of_last hload hlast
  constructor
  · rintro ⟨n', hn', hinput⟩
    obtain rfl : n' = n := Option.some.inj (hn'.symm.trans hn)
    exact hcontents.trans hinput.symm
  · intro heq
    exact ⟨n, hn, heq.symm.trans hcontents⟩

/-- **What is kept when a sheet is loaded.**  Of the names and texts that a loaded file gives:
    * Names of one cell are the same name, and do not differ in letter case only.
    * The text that is given last for a name is kept.
    * All texts but empty ones are kept exactly when none of them stands for something else than the
      last one for the same name. -/
theorem keeps_ofJson (hmembers : SheetFile.members? text = some members)
    (hload : ofJson text = .ok s) :
    (∀ m ∈ members, ∀ m' ∈ members,
        CellName.normalized m.1 = CellName.normalized m'.1 → m.1 = m'.1) ∧
      (∀ name last, LastMember members name last → s.Keeps name last) ∧
      ((∀ m ∈ members, m.2 ≠ "" → s.Keeps m.1 m.2) ↔
        ∀ m ∈ members, m.2 ≠ "" → ∀ last, LastMember members m.1 last →
          Contents.ofInput last = Contents.ofInput m.2) := by
  have hlast := ofMembers_of_ofJson hmembers hload
  refine ⟨fun m hm m' hm' => name_unique hlast hm hm', fun name last => keeps_of_last hlast, ?_⟩
  -- A text is compared with the last one for its name, which is the one that is kept.
  constructor
  · intro hall m hm hne last hm'
    exact (keeps_iff_of_last hlast hm').1 (hall m hm hne)
  · intro hall m hm hne
    obtain ⟨last, hm'⟩ := exists_lastMember hm
    exact (keeps_iff_of_last hlast hm').2 (hall m hm hne last hm')

/-! ### A name that is given twice -/

/-- A file's text with two texts for one name. -/
def repeatedText : String :=
  "\x7b\"Cells\":\x7b\"D4\":\x7b\"StringForm\":\"first\"\x7d," ++
    "\"D4\":\x7b\"StringForm\":\"second\"\x7d\x7d\x7d"

/-- The cell that is named twice. -/
def repeatedCell : CellName := ⟨"D4", by decide⟩

/-- The sheet that has only the second text. -/
def repeatedSheet : Sheet :=
  (Sheet.empty.commit repeatedCell (some (.text "second")) [repeatedCell]).saved

/-- Both texts are there when the file is read. -/
theorem members?_repeatedText : SheetFile.members? repeatedText
    = some [("D4", "first"), ("D4", "second")] := by
  have htext : repeatedText
      = String.ofList (SheetFile.charsOf .compact [("D4", "first"), ("D4", "second")]) := by
    decide +kernel
  rw [htext, SheetFile.members?_charsOf]

/-- The second text is given last. -/
theorem lastMember_second :
    LastMember [("D4", "first"), ("D4", "second")] "D4" "second" :=
  ⟨[("D4", "first")], [], rfl, fun _ hm => absurd hm List.not_mem_nil⟩

/-- The file is loaded, as the sheet with the second text. -/
theorem ofJson_repeatedText : ofJson repeatedText = .ok repeatedSheet := by
  have hmembers : (SheetFile.ofMembers [("D4", "first"), ("D4", "second")]).members
      = [("D4", "second")] := by decide +kernel
  have henter : Sheet.empty.enter "D4" "second"
      = .ok (Sheet.empty.commit repeatedCell (some (.text "second")) [repeatedCell],
          [repeatedCell]) := by
    refine enter_eq_ok_iff.2 ⟨repeatedCell, some (.text "second"), by decide +kernel, rfl, ?_⟩
    exact set_eq_ok_iff.2 ⟨by cbv, rfl⟩
  refine ofJson_eq_ok_iff.2 ⟨SheetFile.ofMembers [("D4", "first"), ("D4", "second")], ?_, ?_⟩
  · rw [SheetFile.read?, members?_repeatedText]
    rfl
  · rw [ofFile_eq_ofMembers, hmembers]
    refine ofMembers_eq_ok_iff.2 ⟨by decide +kernel, _, ?_, rfl⟩
    simp only [enterAll, henter]

/-- The file gives `D4` the text `first` and then `second`.  It is loaded, and the sheet keeps the
    second text. -/
theorem keeps_ofJson_repeatedText : SheetFile.members? repeatedText
      = some [("D4", "first"), ("D4", "second")] ∧
    ofJson repeatedText = .ok repeatedSheet ∧ repeatedSheet.Keeps "D4" "second" := by
  obtain ⟨-, hlast, -⟩ := keeps_ofJson members?_repeatedText ofJson_repeatedText
  exact ⟨members?_repeatedText, ofJson_repeatedText, hlast "D4" "second" lastMember_second⟩

/-- Of the texts `first` and `second` for `D4`, the first is lost, although the file is loaded. -/
theorem loses_first : ∃ members s, SheetFile.members? repeatedText = some members ∧
    ofJson repeatedText = .ok s ∧ ¬ ∀ m ∈ members, m.2 ≠ "" → s.Keeps m.1 m.2 := by
  refine ⟨_, repeatedSheet, members?_repeatedText, ofJson_repeatedText, fun hall => ?_⟩
  have hkept := hall ("D4", "first") List.mem_cons_self (by decide)
  have hlast := ofMembers_of_ofJson members?_repeatedText ofJson_repeatedText
  have hsame : (Except.ok (some (.text "second")) : Except FormulaFault (Option Contents))
      = .ok (some (.text "first")) := (keeps_iff_of_last hlast lastMember_second).1 hkept
  simp at hsame

end Sheet

end LiveSheet
