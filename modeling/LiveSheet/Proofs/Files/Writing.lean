import LiveSheet.Files.Basic

namespace LiveSheet

/-!
# What is written is found again

Writing follows a path to the directory above its last name and puts a file there.  No step on the
way is that file, because steps are taken from directories, so the same path leads to the file
afterwards.

* `Files.follow_append`, `Files.follow_put` — following a path, in parts and after a write.
* `Files.target_cases` — where a path puts a file.
* `Files.target_put` — the next file goes to the same place.
* `Files.find_writeText`, `Files.onlyWritten_of_writeText` — the path then leads to the file, and no
  other file has changed.
* `Files.readText_of_find`, `Files.size_of_find` — its text and its size.
-/

namespace Files

variable {fs written : Files} {place above target : Place} {names : List String}

/-! ### Following a path -/

/-- A path is followed in parts: the first names, and the others from where these lead. -/
theorem follow_append (place : Place) (first second : List String) :
    fs.follow place (first ++ second)
      = (fs.follow place first).bind fun above => fs.follow above second := by
  -- each name leads to another place, and the others are followed from there
  induction first generalizing place with
  | nil => rfl
  | cons name rest ih =>
    simp only [List.cons_append, follow]
    split
    · rfl
    · rfl
    · split
      · exact ih place
      split
      · exact ih place.dropLast
      split
      · rfl
      · exact ih (place ++ [name])

/-- Putting a file somewhere changes no other place. -/
theorem node?_put_of_ne {node : Node} (h : place ≠ target) :
    (fs.put target node).node? place = fs.node? place := by
  have hne : compare target place ≠ .eq := fun heq => h (Std.LawfulEqOrd.eq_of_compare heq).symm
  cases place with
  | nil => rfl
  | cons name rest =>
    show (fs.nodes.insert target node)[name :: rest]? = fs.nodes[name :: rest]?
    rw [Std.ExtTreeMap.getElem?_insert, if_neg hne]

/-- Where a file is put, it is found; only the top of the tree stays what it is. -/
theorem node?_put_self {node : Node} (h : target ≠ []) :
    (fs.put target node).node? target = some node := by
  cases target with
  | nil => exact absurd rfl h
  | cons name rest => exact Std.ExtTreeMap.getElem?_insert_self

/-- A place with a directory is another one than a place without. -/
theorem ne_of_node?_directory (hplace : fs.node? place = some .directory)
    (htarget : fs.node? target ≠ some .directory) : place ≠ target := by
  rintro rfl
  exact htarget hplace

/-- A path that does not lead through a place leads on where it did when something is put there. -/
theorem follow_put {node : Node} (htarget : fs.node? target ≠ some .directory)
    (h : fs.follow place names = .ok above) :
    (fs.put target node).follow place names = .ok above := by
  induction names generalizing place with
  | nil => exact h
  | cons name rest ih =>
    simp only [follow] at h ⊢
    split at h
    · cases h
    · cases h
    · next hplace =>
      -- a step was taken from here, so here stands a directory
      rw [node?_put_of_ne (ne_of_node?_directory hplace htarget), hplace]
      simp only
      split at h
      · next hstay => rw [if_pos hstay]; exact ih h
      next hstay =>
      rw [if_neg hstay]
      split at h
      · next hup => rw [if_pos hup]; exact ih h
      next hup =>
      rw [if_neg hup]
      split at h
      · cases h
      · next hlong => rw [if_neg hlong]; exact ih h

/-! ### The names in a path -/

/-- Pieces of which the last one is empty are joined to a text that ends in the separator. -/
theorem getLast?_intercalate {α : Type} (sep : α) {pieces : List (List α)} (h : pieces ≠ []) :
    ([sep].intercalate (pieces ++ [[]])).getLast? = some sep := by
  induction pieces with
  | nil => exact absurd rfl h
  | cons piece rest ih =>
    cases rest with
    | nil => simp [List.intercalate_cons_cons]
    | cons next rest =>
      rw [List.cons_append, List.cons_append, List.intercalate_cons_cons, ← List.cons_append,
        List.getLast?_append, ih (List.cons_ne_nil _ _)]
      rfl

/-- Only the empty path and paths that end in a slash end in an empty name. -/
theorem endsWith_of_getLast?_steps {path : String} (hne : path ≠ "")
    (h : (steps path).getLast? = some "") : path.endsWith "/" = true := by
  obtain ⟨front, hfront⟩ := List.getLast?_eq_some_iff.1 h
  unfold steps at hfront
  obtain ⟨pieces, last, hsplit, -, hlast⟩ := List.map_eq_append_iff.1 hfront
  obtain ⟨piece, rfl, hpiece⟩ := List.map_eq_singleton_iff.1 hlast
  have hempty : piece = [] := String.ofList_eq_empty_iff.1 hpiece
  -- joined again, the pieces are the path, and the empty one comes after a slash
  have hjoin : ['/'].intercalate (path.toList.splitOn '/') = path.toList :=
    List.intercalate_splitOn '/'
  rw [hsplit, hempty] at hjoin
  have hpieces : pieces ≠ [] := by
    rintro rfl
    exact hne (String.toList_eq_nil_iff.1 hjoin.symm)
  obtain ⟨front, hfront⟩ := List.getLast?_eq_some_iff.1 (getLast?_intercalate '/' hpieces)
  rw [String.endsWith_eq_endsWith_toSlice, String.Slice.endsWith_string_iff, String.copy_toSlice,
    ← hjoin, hfront]
  exact ⟨front, rfl⟩

/-- Nothing is cut off at the end of a list that does not end in what is cut off. -/
theorem reverse_dropWhile_reverse {names : List String} (h : names.getLast? ≠ some "") :
    (names.reverse.dropWhile (· == "")).reverse = names := by
  rcases List.eq_nil_or_concat names with rfl | ⟨front, name, rfl⟩
  · rfl
  · have hname : name ≠ "" := by simpa using h
    rw [List.concat_eq_append, List.reverse_append, List.reverse_singleton, List.singleton_append,
      List.dropWhile_cons_of_neg (by simpa using hname), List.reverse_cons, List.reverse_reverse]

/-! ### Where a path puts a file -/

/-- A path that a file can be put at leads to a directory, and from there with a name of its own to
    a place where no directory stands. -/
theorem target_cases {path : String} (h : fs.target path = .ok target) :
    pathFault? path = none ∧ ∃ front name above, steps path = front ++ [name] ∧
      ¬ (name = "" ∨ name = ".") ∧ name ≠ ".." ∧ ¬ 255 < name.utf8ByteSize ∧
      fs.follow [] front = .ok above ∧ fs.node? above = some .directory ∧
      target = above ++ [name] ∧ fs.node? target ≠ some .directory := by
  unfold Files.target at h
  split at h
  · cases h
  next hfault =>
  simp only at h
  split at h
  · cases h
  next name hname =>
  split at h
  · cases h
  next above hfollow =>
  split at h
  · cases h
  · cases h
  next habove =>
  split at h
  · cases h
  next hplain =>
  split at h
  · cases h
  next hshort =>
  rw [not_or, not_or] at hplain
  obtain ⟨hdot, hup, hslash⟩ := hplain
  -- the path does not end in a slash, so no empty name was cut off
  have hne : path ≠ "" := by
    rintro rfl
    cases hfault
  have hlast : (steps path).getLast? ≠ some "" := fun hempty =>
    hslash (endsWith_of_getLast?_steps hne hempty)
  rw [reverse_dropWhile_reverse hlast] at hname hfollow
  obtain ⟨front, hfront⟩ := List.getLast?_eq_some_iff.1 hname
  rw [hfront, List.dropLast_concat] at hfollow
  have hempty : name ≠ "" := by
    rintro rfl
    exact hlast hname
  split at h
  · cases h
  · next hfree =>
    cases h
    exact ⟨hfault, front, name, above, hfront, not_or.2 ⟨hempty, hdot⟩, hup, hshort, hfollow,
      habove, rfl, hfree⟩

/-- A path that puts a file at a place puts the next one there too. -/
theorem target_put {path : String} {bytes : ByteArray} (h : fs.target path = .ok target) :
    (fs.put target (.file bytes)).target path = .ok target := by
  obtain ⟨-, -, -, -, -, -, -, -, -, -, -, hfree⟩ := target_cases h
  unfold Files.target at h ⊢
  split at h
  · cases h
  simp only at h ⊢
  split at h
  · cases h
  split at h
  · cases h
  next above hfollow =>
  rw [follow_put hfree hfollow]
  simp only
  split at h
  · cases h
  · cases h
  next habove =>
  split at h
  · cases h
  next hplain =>
  split at h
  · cases h
  next hshort =>
  split at h
  · cases h
  cases h
  -- the directory above is still there, and the new file is no directory
  rw [node?_put_of_ne (ne_of_node?_directory habove hfree), habove]
  simp only
  rw [if_neg hplain, if_neg hshort, node?_put_self]
  simp

/-- What is put at a place takes that of what was put there before. -/
theorem put_put (node node' : Node) :
    (fs.put target node).put target node' = fs.put target node' := by
  refine congrArg Files.mk (Std.ExtTreeMap.ext_getElem? fun place => ?_)
  rw [put, Std.ExtTreeMap.getElem?_insert, Std.ExtTreeMap.getElem?_insert,
    Std.ExtTreeMap.getElem?_insert]
  split
  · rfl
  · rfl

/-! ### What is written -/

/-- **What is written is found where it was written.** -/
theorem find_writeText {path text : String} (h : fs.writeText path text = .ok written) :
    written.find path = .ok (.file text.toUTF8) := by
  unfold writeText at h
  cases htarget : fs.target path with
  | error e =>
    rw [htarget] at h
    cases h
  | ok target =>
    rw [htarget] at h
    cases h
    obtain ⟨hfault, front, name, above, hsteps, hplain, hup, hshort, hfollow, habove, rfl, hfree⟩ :=
      target_cases htarget
    -- the directory above is still there, and the last name leads from it to the file
    have hdirectory :
        (fs.put (above ++ [name]) (.file text.toUTF8)).node? above = some .directory :=
      (node?_put_of_ne (ne_of_node?_directory habove hfree)).trans habove
    have hlead : (fs.put (above ++ [name]) (.file text.toUTF8)).follow [] (steps path)
        = .ok (above ++ [name]) := by
      rw [hsteps, follow_append, follow_put hfree hfollow]
      show follow _ above [name] = _
      simp only [follow, hdirectory, hplain, hup, hshort, if_false]
    simp only [find, hfault, hlead, node?_put_self (List.append_ne_nil_of_right_ne_nil above
      (List.cons_ne_nil name []))]

/-- What a write that succeeds does. -/
theorem writeText_eq_ok_iff {path text : String} : fs.writeText path text = .ok written ↔
    ∃ place, fs.target path = .ok place ∧ written = fs.put place (.file text.toUTF8) := by
  unfold writeText
  cases fs.target path with
  | error e => simp [Except.map]
  | ok place => simp [Except.map, eq_comm]

/-- A path leads to a text, and at all other places the files are as they were. -/
def OnlyWritten (fs : Files) (path text : String) (written : Files) : Prop :=
  written.find path = .ok (.file text.toUTF8) ∧
    ∃ place, fs.target path = .ok place ∧
      ∀ other, other ≠ place → written.node? other = fs.node? other

/-- **Writing changes no other file.** -/
theorem onlyWritten_of_writeText {path text : String} (h : fs.writeText path text = .ok written) :
    fs.OnlyWritten path text written := by
  refine ⟨find_writeText h, ?_⟩
  obtain ⟨place, hplace, rfl⟩ := writeText_eq_ok_iff.1 h
  exact ⟨place, hplace, fun other hother => node?_put_of_ne hother⟩

/-- A path that leads somewhere exists. -/
theorem exists?_of_find {path : String} {node : Node} (h : fs.find path = .ok node) :
    fs.exists? path = true := by
  rw [exists?, h]
  rfl

/-- The bytes of a text are decoded to the text. -/
theorem fromUTF8?_toUTF8 (text : String) : String.fromUTF8? text.toUTF8 = some text := by
  have hvalid : text.toUTF8.IsValidUTF8 := text.isValidUTF8
  rw [String.fromUTF8?, dif_pos hvalid]
  rfl

/-- Where a path leads to the bytes of a text, the text is read. -/
theorem readText_of_find {path text : String} (h : fs.find path = .ok (.file text.toUTF8)) :
    fs.readText path = .ok text := by
  simp only [readText, h, fromUTF8?_toUTF8]

/-- A file with the bytes of a text is as large as the text. -/
theorem size_of_find {path text : String} (h : fs.find path = .ok (.file text.toUTF8)) :
    fs.size path = .ok text.utf8ByteSize := by
  rw [size, h]
  rfl

end Files

end LiveSheet
