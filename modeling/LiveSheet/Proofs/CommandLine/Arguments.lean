import LiveSheet.CommandLine.Options

namespace LiveSheet

/-!
# What an argument list asks for

* `Options.MadeUpOf` — an argument list is cut into options with their values and single arguments.
* `Options.ofParts` — what the parts ask for, each kind of part looked at on its own.
* `Options.read_eq_ok_iff` — an argument list is read when its single arguments are flags and at
  most one file, and then gives what its parts ask for, wherever they stand.
-/

namespace Options

/-- A part of an argument list. -/
inductive Part where
  | valued (option : ValueOption) (value : String)
  | single (argument : String)

/-- The value of a part, if it is the given option. -/
def Part.value? (option : ValueOption) : Part → Option String
  | .valued other value => if other = option then some value else none
  | .single _ => none

/-- The argument of a part that stands alone. -/
def Part.single? : Part → Option String
  | .valued _ _ => none
  | .single argument => some argument

/-- An argument list is made up of parts.  What follows an option that takes a value is its value,
    whatever it looks like. -/
inductive MadeUpOf : List String → List Part → Prop where
  | nil : MadeUpOf [] []
  | valued {argument value : String} {option : ValueOption} {rest : List String} {parts : List Part}
      (hoption : ValueOption.ofArgument? argument = some option) (hrest : MadeUpOf rest parts) :
      MadeUpOf (argument :: value :: rest) (.valued option value :: parts)
  | single {argument : String} {rest : List String} {parts : List Part}
      (hnone : ValueOption.ofArgument? argument = none) (hrest : MadeUpOf rest parts) :
      MadeUpOf (argument :: rest) (.single argument :: parts)

/-- The values of an option, in order. -/
def valuesOf (option : ValueOption) (parts : List Part) : List String :=
  parts.filterMap (Part.value? option)

/-- The single arguments, in order. -/
def singlesOf (parts : List Part) : List String := parts.filterMap Part.single?

/-- The options that stand alone and do not end the reading. -/
def flags : List String := ["-p", "--print", "--no-config", "--verbose"]

/-- The single arguments that are files, because they do not start with a dash. -/
def filesOf (parts : List Part) : List String := (singlesOf parts).filter (!·.startsWith "-")

/-- What parts ask for.  Edits and queries add up, each in order; of the other options with values
    the last one counts. -/
def ofParts (parts : List Part) : Options where
  file := (filesOf parts).head?
  sets := valuesOf .set parts
  gets := valuesOf .get parts
  print := (singlesOf parts).any (· ∈ ["-p", "--print"])
  output := (valuesOf .output parts).getLast?
  config := (valuesOf .config parts).getLast?
  noConfig := (singlesOf parts).any (· = "--no-config")

/-! ### Reading goes on from what is read already -/

/-- The parts that can be read after those that gave `o`: every other single argument is a flag, and
    with the file of `o` there is at most one file. -/
structure Readable (o : Options) (parts : List Part) : Prop where
  known : ∀ s ∈ singlesOf parts, s.startsWith "-" = true → s ∈ flags
  oneFile : o.file.toList.length + (filesOf parts).length ≤ 1

/-- What parts ask for after those that gave `o`. -/
def after (o : Options) (parts : List Part) : Options where
  file := o.file.or (filesOf parts).head?
  sets := o.sets ++ valuesOf .set parts
  gets := o.gets ++ valuesOf .get parts
  print := o.print || (singlesOf parts).any (· ∈ ["-p", "--print"])
  output := (valuesOf .output parts).getLast?.or o.output
  config := (valuesOf .config parts).getLast?.or o.config
  noConfig := o.noConfig || (singlesOf parts).any (· = "--no-config")

variable {o next : Options} {argument value : String} {option : ValueOption}
  {arguments : List String} {parts more : List Part}

/-- After no other parts, parts ask for what they ask for on their own. -/
theorem initial_after : initial.after parts = ofParts parts := by
  simp [after, ofParts, initial]

/-- No parts ask for nothing more. -/
theorem after_nil : o.after [] = o := by
  simp [after, valuesOf, singlesOf, filesOf]

/-- What parts ask for is taken in part by part, so a list of them may be cut anywhere. -/
theorem after_append : o.after (parts ++ more) = (o.after parts).after more := by
  simp [after, valuesOf, singlesOf, filesOf, Option.or_assoc, Bool.or_assoc]

/-- No parts can be read after any others. -/
theorem readable_nil : o.Readable [] := by
  refine ⟨fun s hs => absurd hs List.not_mem_nil, ?_⟩
  cases o.file <;> simp [filesOf, singlesOf]

/-- **Parts can be read in two goes**: the first ones, and the others after what these gave. -/
theorem readable_append :
    o.Readable (parts ++ more) ↔ o.Readable parts ∧ (o.after parts).Readable more := by
  have hknown : (∀ s ∈ singlesOf (parts ++ more), s.startsWith "-" = true → s ∈ flags) ↔
      (∀ s ∈ singlesOf parts, s.startsWith "-" = true → s ∈ flags) ∧
        ∀ s ∈ singlesOf more, s.startsWith "-" = true → s ∈ flags := by
    rw [singlesOf, List.filterMap_append, List.forall_mem_append, singlesOf, singlesOf]
  have hfiles : filesOf (parts ++ more) = filesOf parts ++ filesOf more := by
    rw [filesOf, singlesOf, List.filterMap_append, List.filter_append, filesOf, filesOf, singlesOf,
      singlesOf]
  -- as long as there is at most one file, none is forgotten
  have hcount : o.file.toList.length + (filesOf parts).length ≤ 1 →
      (o.after parts).file.toList.length = o.file.toList.length + (filesOf parts).length := by
    intro hone
    show (o.file.or (filesOf parts).head?).toList.length = _
    cases ho : o.file with
    | none =>
      rcases hf : filesOf parts with _ | ⟨path, _ | _⟩
      · rfl
      · rfl
      · simp [ho, hf] at hone
    | some path =>
      simp only [ho, Option.toList_some, List.length_singleton] at hone
      have hnone : (filesOf parts).length = 0 := by omega
      simp [hnone]
  constructor
  · rintro ⟨hall, hone⟩
    rw [hfiles, List.length_append] at hone
    have hfirst : o.file.toList.length + (filesOf parts).length ≤ 1 := by omega
    refine ⟨⟨(hknown.1 hall).1, hfirst⟩, (hknown.1 hall).2, ?_⟩
    rw [hcount hfirst]
    omega
  · rintro ⟨⟨hall, hfirst⟩, hall', hrest⟩
    refine ⟨hknown.2 ⟨hall, hall'⟩, ?_⟩
    rw [hcount hfirst] at hrest
    rw [hfiles, List.length_append]
    omega

/-! ### One part -/

/-- An option with its value sets this value. -/
theorem after_valued : o.after [.valued option value] = o.withValue option value := by
  cases option <;> simp [after, valuesOf, singlesOf, filesOf, Part.value?, Part.single?, withValue]

/-- An option with its value can be read after any others. -/
theorem readable_valued : o.Readable [.valued option value] :=
  ⟨(readable_nil (o := o)).known, (readable_nil (o := o)).oneFile⟩

/-- A single argument can be read if it is a flag, or a file and the first one. -/
theorem readable_single_iff : o.Readable [.single argument] ↔
    (argument.startsWith "-" = true → argument ∈ flags) ∧
      (argument.startsWith "-" = false → o.file = none) := by
  constructor
  · rintro ⟨hknown, hfile⟩
    refine ⟨hknown argument List.mem_cons_self, fun hplain => ?_⟩
    cases ho : o.file with
    | none => rfl
    | some path => simp [ho, filesOf, singlesOf, Part.single?, hplain] at hfile
  · rintro ⟨hknown, hfile⟩
    refine ⟨fun s hs => ?_, ?_⟩
    · rw [List.mem_singleton.1 hs]
      exact hknown
    · cases hplain : argument.startsWith "-" with
      | true => cases o.file <;> simp [filesOf, singlesOf, Part.single?, hplain]
      | false => simp [filesOf, singlesOf, Part.single?, hplain, hfile hplain]

/-- A single argument names the file or sets a flag, and touches nothing else. -/
theorem after_single : o.after [.single argument] =
    { file := o.file.or (if argument.startsWith "-" then none else some argument)
      sets := o.sets, gets := o.gets
      print := o.print || decide (argument ∈ ["-p", "--print"])
      output := o.output, config := o.config
      noConfig := o.noConfig || decide (argument = "--no-config") } := by
  cases hdash : argument.startsWith "-" <;>
    simp [after, valuesOf, singlesOf, filesOf, Part.value?, Part.single?, hdash]

/-- **A single argument is read** if it is a flag, or a file and the first one. -/
theorem readSingle_eq_ok_iff : o.readSingle argument = .ok next ↔
    o.Readable [.single argument] ∧ next = o.after [.single argument] := by
  rw [readable_single_iff, eq_comm (a := next), after_single]
  -- the flags, one after the other
  unfold readSingle
  split
  · next h =>
    rcases h with rfl | rfl <;> simp [flags]
  split
  · next h =>
    rcases h with rfl | rfl <;> simp [flags, withPrint]
  split
  · next h =>
    subst h
    simp [flags, withoutConfig]
  split
  · next h =>
    subst h
    simp [flags]
  next hhelp hprint hconfig hverbose =>
  rw [not_or] at hprint
  -- no flag is left, so it is a file, or an unknown option if it starts with a dash
  have hflag : argument ∉ flags := by simp [flags, hprint, hconfig, hverbose]
  split
  · next hdash => simp [hdash, hflag]
  next hdash =>
  rw [Bool.not_eq_true] at hdash
  split
  · next hfile =>
    rw [Option.isNone_iff_eq_none] at hfile
    simp [hdash, hfile, hprint, hconfig, withFile]
  · next hfile =>
    rw [Option.isNone_iff_eq_none] at hfile
    simp [hdash, hfile]

/-! ### All parts -/

/-- An empty list of arguments has no parts. -/
theorem madeUpOf_nil_iff : MadeUpOf [] parts ↔ parts = [] := by
  constructor
  · intro h
    cases h
    rfl
  · rintro rfl
    exact .nil

/-- An option that takes a value is a part together with what follows it. -/
theorem madeUpOf_valued_iff (h : ValueOption.ofArgument? argument = some option) :
    MadeUpOf (argument :: value :: arguments) parts ↔
      ∃ more, parts = .valued option value :: more ∧ MadeUpOf arguments more := by
  constructor
  · intro hparts
    cases hparts with
    | valued hoption hrest =>
      rw [h] at hoption
      cases hoption
      exact ⟨_, rfl, hrest⟩
    | single hnone hrest =>
      rw [h] at hnone
      cases hnone
  · rintro ⟨more, rfl, hrest⟩
    exact .valued h hrest

/-- Any other argument is a part. -/
theorem madeUpOf_single_iff (h : ValueOption.ofArgument? argument = none) :
    MadeUpOf (argument :: arguments) parts ↔
      ∃ more, parts = .single argument :: more ∧ MadeUpOf arguments more := by
  constructor
  · intro hparts
    cases hparts with
    | valued hoption hrest =>
      rw [h] at hoption
      cases hoption
    | single hnone hrest => exact ⟨_, rfl, hrest⟩
  · rintro ⟨more, rfl, hrest⟩
    exact .single h hrest

/-- No part starts with an option whose value is missing. -/
theorem not_madeUpOf_of_missing (h : ValueOption.ofArgument? argument = some option) :
    ¬ MadeUpOf [argument] parts := by
  intro hparts
  cases hparts with
  | single hnone hrest =>
    rw [h] at hnone
    cases hnone

/-- The first part is read, and then the others after it. -/
theorem exists_first_part_iff {P : List Part → Prop} {part : Part} :
    (∃ parts, (∃ more, parts = part :: more ∧ P more) ∧ o.Readable parts ∧ next = o.after parts) ↔
      o.Readable [part] ∧
        ∃ more, P more ∧ (o.after [part]).Readable more ∧ next = (o.after [part]).after more := by
  have hreadable (more : List Part) :
      o.Readable (part :: more) ↔ o.Readable [part] ∧ (o.after [part]).Readable more :=
    @readable_append o [part] more
  have hafter (more : List Part) : o.after (part :: more) = (o.after [part]).after more :=
    @after_append o [part] more
  constructor
  · rintro ⟨_, ⟨more, rfl, hmore⟩, hread, rfl⟩
    exact ⟨((hreadable more).1 hread).1, more, hmore, ((hreadable more).1 hread).2, hafter more⟩
  · rintro ⟨hfirst, more, hmore, hrest, rfl⟩
    exact ⟨_, ⟨more, rfl, hmore⟩, (hreadable more).2 ⟨hfirst, hrest⟩, (hafter more).symm⟩

/-- **Reading goes on from what is read already**: the arguments are cut into parts that can be read
    after it, and add what these ask for. -/
theorem readFrom_eq_ok_iff : o.readFrom arguments = .ok next ↔
    ∃ parts, MadeUpOf arguments parts ∧ o.Readable parts ∧ next = o.after parts := by
  fun_induction readFrom o arguments with
  | case1 o =>
    simp only [madeUpOf_nil_iff, exists_eq_left, after_nil, Except.ok.injEq]
    exact ⟨fun h => ⟨readable_nil, h.symm⟩, fun h => h.2.symm⟩
  -- an option at the end of the list has no value
  | case2 o argument option hoption => simp [not_madeUpOf_of_missing hoption]
  | case3 o argument hnone =>
    simp only [madeUpOf_single_iff hnone, madeUpOf_nil_iff, exists_eq_right, exists_eq_left]
    exact readSingle_eq_ok_iff
  | case4 o argument value rest option hoption ih =>
    simp only [madeUpOf_valued_iff hoption, ih, exists_first_part_iff, after_valued]
    exact (and_iff_right readable_valued).symm
  | case5 o argument value rest hnone next' hread ih =>
    obtain ⟨hreadable, rfl⟩ := readSingle_eq_ok_iff.1 hread
    simp only [madeUpOf_single_iff hnone, ih, exists_first_part_iff]
    exact (and_iff_right hreadable).symm
  | case6 o argument value rest hnone stop hread =>
    -- the first argument cannot be read, so no parts can
    simp only [madeUpOf_single_iff hnone, exists_first_part_iff, reduceCtorEq, false_iff]
    rintro ⟨hreadable, -⟩
    rw [readSingle_eq_ok_iff.2 ⟨hreadable, rfl⟩] at hread
    cases hread

/-- **What an argument list asks for.**  It is read exactly when its single arguments are flags and
    at most one file, and then each option has the values given for it, wherever they stand among
    the others. -/
theorem read_eq_ok_iff : read arguments = .ok o ↔
    ∃ parts, MadeUpOf arguments parts ∧ initial.Readable parts ∧ o = ofParts parts := by
  simp only [read, readFrom_eq_ok_iff, initial_after]

end Options

end LiveSheet
