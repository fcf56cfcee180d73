import LiveSheet.Proofs.Sheet.Loading
import LiveSheet.Proofs.Storage.Writing

namespace LiveSheet

open Relation

/-!
# Loading a sheet into a session

* `Session.attempt_loadText`, `Session.attempt_loadFile` — a load gives what the file describes, or
  its error.
* `Session.load_accepts` — which files can be loaded, and what is loaded, in whatever order the
  cells are typed.
-/

/-- The names of a file are different; in upper case they are when no two of them differ in nothing
    but letter case. -/
theorem SheetFile.nodup_normalizedNames_iff (f : SheetFile) :
    (normalizedNames f.members).Nodup ↔ ∀ m ∈ f.members, ∀ m' ∈ f.members,
      CellName.normalized m.1 = CellName.normalized m'.1 → m.1 = m'.1 := by
  have hnodup : f.members.Nodup := f.members_pairwise.imp fun hne heq => hne (congrArg Prod.fst heq)
  rw [normalizedNames, List.nodup_map_iff_inj_on hnodup]
  refine forall₄_congr fun m hm m' hm' => imp_congr_right fun _ =>
    ⟨congrArg Prod.fst, fun heq => ?_⟩
  -- a name has one text
  have htext : f.cells[m.1]? = some m.2 := mem_members_iff.1 hm
  rw [heq, mem_members_iff.1 hm', Option.some.injEq] at htext
  exact Prod.ext heq htext.symm

namespace Session

variable {f : SheetFile} {text : String}

/-- A load of a text that is a file gives the sheet that the file describes, or the error. -/
theorem attempt_loadText (hread : SheetFile.read? text = some f) (s : Session) :
    s.attempt (.loadText text) = s.loaded ((Sheet.ofFile f).mapError .load) := by
  simp only [attempt, Files.loadSheet, Sheet.ofJson, hread]

/-- A load of a file that cannot be loaded fails, for its size or for what stands in it. -/
theorem attempt_loadFile {s : Session} {path : String} {e : LoadError}
    (hread : SheetFile.read? text = some f) (hfile : Sheet.ofFile f = .error e)
    (htext : s.files.readText path = .ok text) :
    ∃ e', s.attempt (.loadFile path) = .error (.storage e') := by
  -- The file is refused for its size, or else its text is the given one.
  have hopen : ∃ e', s.files.openSheet path = .error e' := by
    unfold Files.openSheet
    split
    · exact ⟨_, rfl⟩
    · split
      · exact ⟨_, rfl⟩
      · simp only [htext, Files.loadSheet, Sheet.ofJson, hread, hfile]
        exact ⟨_, rfl⟩
  obtain ⟨e', he'⟩ := hopen
  refine ⟨e', ?_⟩
  rw [attempt, he']
  rfl

/-- **Which files can be loaded, and what is loaded.**
    * A file is accepted exactly when no two of its names are the same in upper case, all of them
      are letters followed by digits, all texts can be typed, and the references of the formulas
      among them have no cycle.
    * The sheet that is loaded stores the texts that are not empty, as what they stand for, under
      their names in upper case.  Typing the cells in any other order gives the same sheet, and a
      session that loads the file has this sheet.
    * A file that is refused is refused in every order.  A session that tries to load it, from a
      text or from a file, gets an error and stays as it is. -/
theorem load_accepts (f : SheetFile) :
    ((∃ sheet, Sheet.ofFile f = .ok sheet) ↔
      (∀ m ∈ f.members, ∀ m' ∈ f.members,
        CellName.normalized m.1 = CellName.normalized m'.1 → m.1 = m'.1) ∧
      (∀ m ∈ f.members, IsCellText m.1) ∧
      (∀ m ∈ f.members, ∃ contents, Contents.ofInput m.2 = .ok contents) ∧
      ∀ n, ¬ TransGen (MemberRefers f.members) n n) ∧
    (∀ sheet, Sheet.ofFile f = .ok sheet →
      (∀ n c, sheet.cells.contents? n = some c ↔ ∃ name input, (name, input) ∈ f.members ∧
        input ≠ "" ∧ n.text = CellName.normalized name ∧ Contents.ofInput input = .ok (some c)) ∧
      (∀ members, f.members.Perm members → Sheet.ofMembers members = .ok sheet) ∧
      ∀ (s : Session) (text : String), SheetFile.read? text = some f →
        s.attempt (.loadText text) = .ok (⟨sheet, s.files⟩, [])) ∧
    ∀ e, Sheet.ofFile f = .error e →
      (∀ members, f.members.Perm members → ∃ e', Sheet.ofMembers members = .error e') ∧
      ∀ (s : Session) (text : String), SheetFile.read? text = some f →
        s.attempt (.loadText text) = .error (.storage (.load e)) ∧
        s.perform (.loadText text) = s ∧
        ∀ path, s.files.readText path = .ok text →
          (∃ e', s.attempt (.loadFile path) = .error (.storage e')) ∧
          s.perform (.loadFile path) = s := by
  refine ⟨?_, fun sheet hsheet => ⟨fun n c => ?_, fun members hperm => ?_, fun s text hread => ?_⟩,
    fun e he => ⟨fun members hperm => ?_, fun s text hread => ?_⟩⟩
  · rw [Sheet.ofFile_eq_ofMembers, Sheet.exists_ofMembers_iff, ← f.nodup_normalizedNames_iff]
    exact ⟨fun h => ⟨h.distinct, h.names, h.texts, h.acyclic⟩,
      fun ⟨hdistinct, hnames, htexts, hacyclic⟩ => ⟨hdistinct, hnames, htexts, hacyclic⟩⟩
  · rw [Sheet.contents?_ofMembers hsheet, Gives]
    refine exists₂_congr fun name input => and_congr_right fun _ => ?_
    rw [CellName.ofText?_eq_some_iff, and_comm (a := input ≠ ""), and_assoc]
    refine and_congr_right fun _ => ⟨fun hc => ⟨hc, ?_⟩, And.left⟩
    -- only the empty text stands for no contents
    rintro rfl
    cases hc
  · exact Sheet.ofMembers_perm hsheet hperm
  · rw [attempt_loadText hread, hsheet]
    rfl
  · cases hmembers : Sheet.ofMembers members with
    | error e' => exact ⟨e', rfl⟩
    | ok sheet =>
      -- otherwise the order of the names would give a sheet too
      rw [Sheet.ofFile_eq_ofMembers, Sheet.ofMembers_perm hmembers hperm.symm] at he
      cases he
  · have hload : s.attempt (.loadText text) = .error (.storage (.load e)) := by
      rw [attempt_loadText hread, he]
      rfl
    refine ⟨hload, perform_of_error hload, fun path htext => ?_⟩
    obtain ⟨e', he'⟩ := attempt_loadFile hread he htext
    exact ⟨⟨e', he'⟩, perform_of_error he'⟩

end Session

end LiveSheet
