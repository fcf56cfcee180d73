import LiveSheet.Proofs.Cell.Typing
import LiveSheet.Proofs.Session.Invariant
import LiveSheet.Proofs.Sheet.Uniqueness

namespace LiveSheet

open Relation

/-!
# Which files can be loaded

The cells of a file are typed one after the other into an empty sheet.  Whether all of them are
accepted, and what sheet they give, does not depend on the order.

* `Sheet.ofMembers` — loading with the members in any order; a file takes that of the names.
* `Gives`, `MemberRefers` — what the members of a file say about cells and their references.
* `Loadable` — the members have different names and texts that can be typed, and no references that
  lead in a circle.
* `Sheet.exists_ofMembers_iff` — these are the members that can be loaded.
* `Sheet.contents?_ofMembers`, `Sheet.ofMembers_perm` — what is loaded.
-/

/-! ### Repeated names -/

/-- Nothing is found exactly in the lists without duplicates. -/
theorem firstRepeated_eq_none_iff {seen : Std.ExtTreeSet String} {names : List String} :
    firstRepeated seen names = none ↔ names.Nodup ∧ ∀ name ∈ names, name ∉ seen := by
  induction names generalizing seen with
  | nil => simp [firstRepeated]
  | cons name rest ih =>
    -- What has been seen grows by the name, so the rest must be without it, too.
    have hinsert : (∀ other ∈ rest, other ∉ seen.insert name) ↔
        name ∉ rest ∧ ∀ other ∈ rest, other ∉ seen := by
      simp only [Std.ExtTreeSet.mem_insert, Std.LawfulEqOrd.compare_eq_iff_eq, not_or]
      constructor
      · intro h
        exact ⟨fun hmem => (h name hmem).1 rfl, fun other hother => (h other hother).2⟩
      · rintro ⟨hname, hrest⟩ other hother
        exact ⟨fun heq => hname (heq ▸ hother), hrest other hother⟩
    rw [firstRepeated, List.nodup_cons, List.forall_mem_cons]
    by_cases hseen : name ∈ seen
    · simp [hseen]
    · rw [if_neg (by simpa using hseen), ih, hinsert]
      tauto

/-! ### What members say -/

/-- A member names the cell, and its text stands for the contents. -/
def Gives (members : List (String × String)) (n : CellName) (c : Contents) : Prop :=
  ∃ name input, (name, input) ∈ members ∧ CellName.ofText? name = some n ∧
    Contents.ofInput input = .ok (some c)

/-- A member gives `v` a formula that refers to `u`. -/
def MemberRefers (members : List (String × String)) (u v : CellName) : Prop :=
  ∃ f, Gives members v (.formula f) ∧ u ∈ f.references

/-- The names of the members in upper case, in order. -/
def normalizedNames (members : List (String × String)) : List String :=
  members.map fun member => CellName.normalized member.1

/-- The members of a file that can be loaded. -/
structure Loadable (members : List (String × String)) : Prop where
  distinct : (normalizedNames members).Nodup
  names : ∀ member ∈ members, IsCellText member.1
  texts : ∀ member ∈ members, ∃ contents, Contents.ofInput member.2 = .ok contents
  acyclic : Acyclic (MemberRefers members)

section Members

variable {members members' : List (String × String)}

/-- What members give does not depend on their order. -/
theorem Gives.perm {n : CellName} {c : Contents} (h : Gives members n c)
    (hperm : members.Perm members') : Gives members' n c := by
  obtain ⟨name, input, hmem, hc⟩ := h
  exact ⟨name, input, hperm.mem_iff.1 hmem, hc⟩

/-- The order of the members does not matter. -/
theorem Loadable.perm (h : Loadable members) (hperm : members.Perm members') :
    Loadable members' where
  distinct := (hperm.map _).nodup_iff.1 h.distinct
  names member hmem := h.names member (hperm.mem_iff.2 hmem)
  texts member hmem := h.texts member (hperm.mem_iff.2 hmem)
  acyclic := h.acyclic.mono fun _ _ ⟨f, hf, hu⟩ => ⟨f, hf.perm hperm.symm, hu⟩

/-- If no name is repeated, only one member names a cell. -/
theorem input_unique (h : (normalizedNames members).Nodup) {name name' input input' : String}
    {n : CellName} (hmem : (name, input) ∈ members) (hmem' : (name', input') ∈ members)
    (hn : CellName.ofText? name = some n) (hn' : CellName.ofText? name' = some n) :
    input = input' := by
  have hsame : CellName.normalized name = CellName.normalized name' :=
    (CellName.text_of_ofText? hn).symm.trans (CellName.text_of_ofText? hn')
  have hpair := List.inj_on_of_nodup_map h hmem hmem' hsame
  exact congrArg Prod.snd hpair

/-- If no name is repeated, the members give each cell contents, or none. -/
theorem exists_target (h : (normalizedNames members).Nodup) :
    ∃ target : CellName → Option Contents, ∀ n c, target n = some c ↔ Gives members n c := by
  have hunique : ∀ n c c', Gives members n c → Gives members n c' → c = c' := by
    rintro n c c' ⟨name, input, hmem, hn, hc⟩ ⟨name', input', hmem', hn', hc'⟩
    rw [input_unique h hmem hmem' hn hn', hc'] at hc
    cases hc
    rfl
  -- The contents are chosen: at most one for each cell, as the names are distinct.
  classical
  refine ⟨fun n => if hn : ∃ c, Gives members n c then some hn.choose else none, fun n c => ?_⟩
  by_cases hn : ∃ c, Gives members n c
  · simp only [dif_pos hn, Option.some.injEq]
    constructor
    · rintro rfl
      exact hn.choose_spec
    · exact hunique n _ c hn.choose_spec
  · simp only [dif_neg hn]
    exact iff_of_false (Option.some_ne_none c).symm fun hc => hn ⟨c, hc⟩

end Members

namespace Sheet

variable {s t : Sheet} {members members' : List (String × String)}

/-- The sheet that members describe, if they are typed in the given order. -/
def ofMembers (members : List (String × String)) : Except LoadError Sheet :=
  match firstRepeated ∅ (normalizedNames members) with
  | some cell => .error (.duplicate cell)
  | none => (empty.enterAll members).map saved

/-- A file describes the sheet that its members do, typed in the order of their names. -/
theorem ofFile_eq_ofMembers (f : SheetFile) : ofFile f = ofMembers f.members := rfl

/-- A text is loaded when it is read as a file and the file is loaded. -/
theorem ofJson_eq_ok_iff {text : String} : ofJson text = .ok s ↔
    ∃ f, SheetFile.read? text = some f ∧ ofFile f = .ok s := by
  unfold ofJson
  cases SheetFile.read? text <;> simp

/-- Members are loaded when no name is repeated and all of them can be typed in order. -/
theorem ofMembers_eq_ok_iff : ofMembers members = .ok s ↔
    (normalizedNames members).Nodup ∧ ∃ t, empty.enterAll members = .ok t ∧ s = t.saved := by
  have hnone : firstRepeated ∅ (normalizedNames members) = none ↔
      (normalizedNames members).Nodup := by
    rw [firstRepeated_eq_none_iff]
    exact and_iff_left fun _ _ => Std.ExtTreeSet.not_mem_empty
  rw [ofMembers, ← hnone]
  cases firstRepeated ∅ (normalizedNames members) with
  | some cell => simp
  | none =>
    cases empty.enterAll members with
    | error e => simp [Except.map]
    | ok t => simp [Except.map, eq_comm]

/-! ### Members that are accepted -/

/-- **Members can be typed one after the other**, if their texts stand for the target contents of
    the cells that they name and the references of these have no cycle. -/
theorem exists_enterAll {target : CellName → Option Contents}
    (hacyclic : Acyclic fun u v => u ∈ newReferences (target v))
    (hmembers : ∀ name input, (name, input) ∈ members →
      ∃ n, CellName.ofText? name = some n ∧ Contents.ofInput input = .ok (target n))
    (h : s.Coherent)
    (hpart : ∀ n, s.cells.contents? n = none ∨ s.cells.contents? n = target n) :
    ∃ next, s.enterAll members = .ok next := by
  induction members generalizing s with
  | nil => exact ⟨s, rfl⟩
  | cons member rest ih =>
    -- one more cell gets its target contents, and the others keep what they have
    obtain ⟨name, input⟩ := member
    obtain ⟨cell, hname, hinput⟩ := hmembers name input List.mem_cons_self
    obtain ⟨mid, order, hset⟩ := h.exists_set_towards hacyclic hpart cell
    have hpart' : ∀ n, mid.cells.contents? n = none ∨ mid.cells.contents? n = target n := by
      intro n
      rw [contents?_set hset]
      by_cases hn : n = cell
      · rw [if_pos hn, hn]
        exact Or.inr rfl
      · rw [if_neg hn]
        exact hpart n
    have henter : s.enter name input = .ok (mid, order) :=
      enter_eq_ok_iff.2 ⟨cell, target cell, hname, hinput, hset⟩
    simp only [enterAll, henter]
    exact ih (fun name input hmem => hmembers name input (List.mem_cons_of_mem _ hmem)) (h.set hset)
      hpart'

/-- Members that are accepted name cells, and their texts stand for contents. -/
theorem accepted_of_enterAll (hall : s.enterAll members = .ok t) {name input : String}
    (hmem : (name, input) ∈ members) :
    ∃ n c, CellName.ofText? name = some n ∧ Contents.ofInput input = .ok c := by
  induction members generalizing s with
  | nil => exact absurd hmem List.not_mem_nil
  | cons member rest ih =>
    obtain ⟨mid, order, henter, hafter⟩ := enterAll_cons_eq_ok_iff.1 hall
    rcases List.mem_cons.1 hmem with rfl | hrest
    · obtain ⟨n, c, hn, hc, -⟩ := enter_eq_ok_iff.1 henter
      exact ⟨n, c, hn, hc⟩
    · exact ih hafter hrest

/-- Cells that no member names keep their contents. -/
theorem contents?_enterAll_of_not_named (hall : s.enterAll members = .ok t) {n : CellName}
    (hn : n.text ∉ normalizedNames members) : t.cells.contents? n = s.cells.contents? n := by
  induction members generalizing s with
  | nil =>
    cases hall
    rfl
  | cons member rest ih =>
    obtain ⟨hfirst, hrest⟩ := not_or.1 (mt List.mem_cons.2 hn)
    obtain ⟨mid, order, henter, hafter⟩ := enterAll_cons_eq_ok_iff.1 hall
    obtain ⟨cell, c, hcell, -, hset⟩ := enter_eq_ok_iff.1 henter
    have hne : n ≠ cell := fun heq => hfirst (heq ▸ CellName.text_of_ofText? hcell)
    rw [ih hafter hrest, contents?_set hset, if_neg hne]

/-- If no name is repeated, each cell that is named holds in the end what its text stands for. -/
theorem ofInput_eq_contents?_enterAll (hdistinct : (normalizedNames members).Nodup)
    (hall : s.enterAll members = .ok t) {name input : String} {n : CellName}
    (hmem : (name, input) ∈ members) (hn : CellName.ofText? name = some n) :
    Contents.ofInput input = .ok (t.cells.contents? n) := by
  induction members generalizing s with
  | nil => exact absurd hmem List.not_mem_nil
  | cons member rest ih =>
    obtain ⟨hfirst, hdistinct⟩ := List.nodup_cons.1 hdistinct
    obtain ⟨mid, order, henter, hafter⟩ := enterAll_cons_eq_ok_iff.1 hall
    rcases List.mem_cons.1 hmem with rfl | hrest
    · -- the cell that was typed first is not named again
      obtain ⟨cell, c, hcell, hc, hset⟩ := enter_eq_ok_iff.1 henter
      obtain rfl : cell = n := Option.some.inj (hcell.symm.trans hn)
      have hlater : cell.text ∉ normalizedNames rest := CellName.text_of_ofText? hn ▸ hfirst
      rw [contents?_enterAll_of_not_named hafter hlater, contents?_set hset, if_pos rfl, hc]
    · exact ih hdistinct hafter hrest

/-! ### Loading -/

/-- A sheet that is loaded is coherent, as it is made by edits. -/
theorem coherent_of_ofMembers (h : ofMembers members = .ok s) : s.Coherent := by
  obtain ⟨-, t, hall, rfl⟩ := ofMembers_eq_ok_iff.1 h
  exact (enterAll_induction (fun _ _ _ _ _ hs _ hset => hs.set hset) coherent_empty hall).saved

/-- A sheet that is loaded has no unsaved edits. -/
theorem changed_of_ofMembers (h : ofMembers members = .ok s) : s.changed = false := by
  obtain ⟨-, t, -, rfl⟩ := ofMembers_eq_ok_iff.1 h
  rfl

/-- **A sheet that is loaded holds what the members give**, and nothing else. -/
theorem contents?_ofMembers (h : ofMembers members = .ok s) {n : CellName} {c : Contents} :
    s.cells.contents? n = some c ↔ Gives members n c := by
  obtain ⟨hdistinct, t, hall, rfl⟩ := ofMembers_eq_ok_iff.1 h
  show t.cells.contents? n = some c ↔ _
  constructor
  · intro hc
    -- A cell that holds something is named, since the sheet was empty at first.
    have hnamed : n.text ∈ normalizedNames members := by
      by_contra hnot
      rw [contents?_enterAll_of_not_named hall hnot] at hc
      cases hc
    obtain ⟨⟨name, input⟩, hmem, hname⟩ := List.mem_map.1 hnamed
    have hn : CellName.ofText? name = some n := CellName.ofText?_eq_some_iff.2 hname.symm
    exact ⟨name, input, hmem, hn, hc ▸ ofInput_eq_contents?_enterAll hdistinct hall hmem hn⟩
  · rintro ⟨name, input, hmem, hn, hc⟩
    rw [ofInput_eq_contents?_enterAll hdistinct hall hmem hn, Except.ok.injEq] at hc
    exact hc

/-- The references of a sheet that is loaded are those of the members. -/
theorem refers_ofMembers (h : ofMembers members = .ok s) {u v : CellName} :
    s.cells.Refers u v ↔ MemberRefers members u v := by
  rw [Cells.Refers, mem_newReferences]
  exact exists_congr fun f => and_congr_left' (contents?_ofMembers h)

/-- **The members that can be loaded.** -/
theorem exists_ofMembers_iff : (∃ s, ofMembers members = .ok s) ↔ Loadable members := by
  constructor
  · rintro ⟨s, hs⟩
    obtain ⟨hdistinct, t, hall, -⟩ := ofMembers_eq_ok_iff.1 hs
    have hcoherent := coherent_of_ofMembers hs
    refine ⟨hdistinct, fun ⟨name, input⟩ hmem => ?_, fun ⟨name, input⟩ hmem => ?_, ?_⟩
    · obtain ⟨n, c, hn, -⟩ := accepted_of_enterAll hall hmem
      exact (CellName.exists_ofText?_iff name).1 ⟨n, hn⟩
    · obtain ⟨n, c, -, hc⟩ := accepted_of_enterAll hall hmem
      exact ⟨c, hc⟩
    · -- a cycle of the members would be one of the sheet
      exact hcoherent.acyclic.mono fun u v huv =>
        (hcoherent.hasEdge_iff u v).2 ((refers_ofMembers hs).2 huv)
  · intro h
    obtain ⟨target, htarget⟩ := exists_target h.distinct
    have hacyclic : Acyclic fun u v => u ∈ newReferences (target v) := by
      refine h.acyclic.mono fun u v huv => ?_
      obtain ⟨f, hf, hu⟩ := mem_newReferences.1 huv
      exact ⟨f, (htarget v _).1 hf, hu⟩
    have hmembers : ∀ name input, (name, input) ∈ members →
        ∃ n, CellName.ofText? name = some n ∧ Contents.ofInput input = .ok (target n) := by
      intro name input hmem
      obtain ⟨n, hn⟩ := (CellName.exists_ofText?_iff name).2 (h.names _ hmem)
      obtain ⟨contents, hinput⟩ := h.texts _ hmem
      refine ⟨n, hn, ?_⟩
      cases contents with
      | some c => rw [hinput, (htarget n c).2 ⟨name, input, hmem, hn, hinput⟩]
      | none =>
        -- the empty text is the only one for this cell
        cases hn' : target n with
        | none => exact hinput
        | some c =>
          obtain ⟨name', input', hmem', hname', hc⟩ := (htarget n c).1 hn'
          rw [input_unique h.distinct hmem' hmem hname' hn, hinput] at hc
          cases hc
    obtain ⟨t, hall⟩ := exists_enterAll hacyclic hmembers coherent_empty fun _ => Or.inl rfl
    exact ⟨t.saved, ofMembers_eq_ok_iff.2 ⟨h.distinct, t, hall, rfl⟩⟩

/-- **The order of the members does not matter** to what is loaded. -/
theorem ofMembers_perm (h : ofMembers members = .ok s) (hperm : members.Perm members') :
    ofMembers members' = .ok s := by
  obtain ⟨t, ht⟩ := exists_ofMembers_iff.2 ((exists_ofMembers_iff.1 ⟨s, h⟩).perm hperm)
  -- both hold what the members give, and coherent sheets are determined by that
  have hcontents : ∀ n, t.cells.contents? n = s.cells.contents? n := fun n =>
    Option.ext fun c => by
      rw [contents?_ofMembers ht, contents?_ofMembers h]
      exact ⟨fun hc => hc.perm hperm.symm, fun hc => hc.perm hperm⟩
  obtain ⟨hcells, hgraph⟩ :=
    (coherent_of_ofMembers ht).unique (coherent_of_ofMembers h) hcontents
  have hchanged : t.changed = s.changed :=
    (changed_of_ofMembers ht).trans (changed_of_ofMembers h).symm
  have hsame : t = s := by
    obtain ⟨cells, graph, changed⟩ := t
    obtain ⟨cells', graph', changed'⟩ := s
    cases hcells
    cases hgraph
    cases hchanged
    rfl
  rw [ht, hsame]

end Sheet

end LiveSheet
