import LiveSheet.Proofs.Double.ZeroSign
import LiveSheet.Proofs.Formula.Canonical

namespace LiveSheet

/-!
# What was typed can be typed again

* `Contents.unsignZero` — contents with the positive zero for both zeros.
* `Contents.ofInput_toInput` — contents that were typed are read back from the text that stands for
  them, but for the sign of a zero.
* `Contents.same_unsignZero` — to the comparison of contents the sign makes no difference.
* `Contents.Typable` — the contents that typing gives, and with
  `Contents.exists_same_iff_typable` those that can be typed again from their text.
-/

/-! ### Texts without blanks -/

/-- A text without blank characters is not trimmed. -/
theorem trim_of_forall_not_blank {cs : List Char} (h : ∀ c ∈ cs, isBlank c = false) :
    trim cs = cs := by
  have hleft : ∀ ds : List Char, (∀ c ∈ ds, isBlank c = false) → trimLeft ds = ds := by
    intro ds hds
    cases ds with
    | nil => rfl
    | cons d ds => exact List.dropWhile_cons_of_neg (by simp [hds d List.mem_cons_self])
  rw [trim, hleft cs h, hleft _ fun c hc => h c (List.mem_reverse.1 hc), List.reverse_reverse]

/-- No digit is a blank character. -/
theorem isBlank_of_isDigit {c : Char} (h : c.isDigit = true) : isBlank c = false :=
  isBlank_of_isAlphanum (isAlphanum_of_isDigit h)

/-- A numeral of digits, with or without a point, has no blank characters. -/
theorem Numeral.IsPlain.not_blank {n : Numeral} (h : n.IsPlain) :
    ∀ c ∈ n.spelling, isBlank c = false := by
  intro c hc
  simp only [spelling, h.exponent_eq, Exponent.spelling, List.append_nil, List.mem_append] at hc
  rcases hc with hwhole | hfraction
  · exact isBlank_of_isDigit (h.whole_digits c hwhole)
  · cases hf : n.fraction with
    | none =>
      rw [hf] at hfraction
      cases hfraction
    | some ds =>
      rw [hf] at hfraction
      rcases List.mem_cons.1 hfraction with rfl | hds
      · rfl
      · exact isBlank_of_isDigit (h.fraction_digits ds hf c hds)

/-- The text of a number has no blanks. -/
theorem Double.not_blank_chars (negative : Bool) (r : Fin limit) :
    ∀ c ∈ chars (.finite negative r), isBlank c = false := by
  -- a zero is one character, any other number a sign and a plain numeral
  by_cases hzero : r.val = 0
  · simp only [chars, hzero, if_true, List.mem_singleton]
    rintro c rfl
    rfl
  · have hplain := Decimal.isPlain_numeral (shortest_spec (Nat.pos_of_ne_zero hzero) r.isLt).2.pos
    intro c hc
    rw [chars, if_neg hzero, ← Decimal.spelling_numeral, List.mem_append] at hc
    rcases hc with hsign | hspelling
    · cases negative with
      | true =>
        obtain rfl := List.mem_singleton.1 hsign
        rfl
      | false => cases hsign
    · exact hplain.not_blank c hspelling

/-- Both zeros have the same text. -/
theorem Double.text_unsignZero (x : Double) : x.unsignZero.text = x.text := by
  cases x with
  | nan => rfl
  | infinite negative => rfl
  | finite negative r =>
    by_cases hr : r.val = 0
    · simp only [unsignZero, text, chars, hr, if_true]
    · simp only [unsignZero, bne_iff_ne.2 hr, Bool.and_true]

namespace Contents

/-- The contents, with the positive zero for both zeros. -/
def unsignZero : Contents → Contents
  | .number v => .number v.unsignZero
  | c => c

variable {input : String}

/-- What is typed is a number, a formula or itself. -/
theorem ofInput_cases {c : Contents} (h : ofInput input = .ok (some c)) :
    (∃ v, number? input = some v ∧ c = .number v) ∨ (∃ f, c = .formula f) ∨ c = .text input := by
  unfold ofInput at h
  split at h
  · cases h
  split at h
  · next v hv =>
    cases h
    exact Or.inl ⟨v, hv, rfl⟩
  split at h
  · cases hread : Formula.read _ with
    | ok f =>
      rw [hread] at h
      cases h
      exact Or.inr (Or.inl ⟨f, rfl⟩)
    | error fault => rw [hread] at h; cases h
  · cases h
    exact Or.inr (Or.inr rfl)

/-- Only finite numbers are typed. -/
theorem isFinite_of_number? {v : Double} (h : number? input = some v) : v.isFinite = true := by
  unfold number? at h
  split at h
  · split at h
    · next hfinite =>
      cases h
      exact hfinite
    · cases h
  · cases h

/-- A number that is typed is finite. -/
theorem isFinite_of_ofInput {v : Double} (h : ofInput input = .ok (some (.number v))) :
    v.isFinite = true := by
  rcases ofInput_cases h with ⟨w, hw, heq⟩ | ⟨f, heq⟩ | heq
  · cases heq
    exact isFinite_of_number? hw
  · cases heq
  · cases heq

/-- A text that is typed is what was typed. -/
theorem eq_of_ofInput {s : String} (h : ofInput input = .ok (some (.text s))) : s = input := by
  rcases ofInput_cases h with ⟨w, -, heq⟩ | ⟨f, heq⟩ | heq
  · cases heq
  · cases heq
  · cases heq
    rfl

/-- A finite number is read back from its text. -/
theorem ofInput_number {v : Double} (h : v.isFinite = true) :
    ofInput v.text = .ok (some (.number v.unsignZero)) := by
  cases v with
  | nan => cases h
  | infinite negative => cases h
  | finite negative r =>
    have hnumber : number? (Double.text (.finite negative r))
        = some (Double.unsignZero (.finite negative r)) := by
      rw [number?, Double.text, String.toList_ofList,
        trim_of_forall_not_blank (Double.not_blank_chars negative r), Double.read_chars]
      rfl
    unfold ofInput
    split
    · next hnil =>
      -- the empty text is no number
      rw [number?, hnil] at hnumber
      cases hnumber
    · rw [hnumber]

/-- After an equals sign a formula is read, and nothing else. -/
theorem ofInput_of_equals {rest : List Char} (h : input.toList = '=' :: rest) :
    ofInput input = (Formula.read (String.ofList rest)).map (some ∘ .formula) := by
  rw [ofInput, h]
  simp only [number?_equals h, if_true]

/-- A formula is read back from its text. -/
theorem ofInput_formula (f : Formula) :
    ofInput ("=" ++ f.text) = .ok (some (.formula f)) := by
  have htext : ("=" ++ f.text).toList = '=' :: f.text.toList := by
    rw [String.toList_append]
    rfl
  rw [ofInput_of_equals htext, String.ofList_toList, f.read_text]
  rfl

/-- **What was typed can be typed again.**  The text that stands for contents that were typed gives
    the same contents, but for the sign of a zero. -/
theorem ofInput_toInput {c : Contents} (h : ofInput input = .ok (some c)) :
    ofInput c.toInput = .ok (some c.unsignZero) := by
  cases c with
  | number v => exact ofInput_number (isFinite_of_ofInput h)
  | text s =>
    obtain rfl := eq_of_ofInput h
    exact h
  | formula f => exact ofInput_formula f

/-- Once its sign is taken off, a zero has none to take off. -/
theorem unsignZero_unsignZero (c : Contents) : c.unsignZero.unsignZero = c.unsignZero := by
  cases c with
  | number v => exact congrArg number v.unsignZero_unsignZero
  | text s => rfl
  | formula f => rfl

/-- To the text that stands for contents the sign of a zero makes no difference. -/
theorem toInput_unsignZero (c : Contents) : c.unsignZero.toInput = c.toInput := by
  cases c with
  | number v => exact v.text_unsignZero
  | text s => rfl
  | formula f => rfl

/-- The sign of a zero refers to no cell. -/
theorem references_unsignZero (c : Contents) : c.unsignZero.references = c.references := by
  cases c <;> rfl

/-- Typed contents compare equal to themselves without the sign of a zero. -/
theorem same_unsignZero {c : Contents} (h : ofInput input = .ok (some c)) :
    c.unsignZero.same c = true := by
  cases c with
  | number v => exact Double.equals_unsignZero (isFinite_of_ofInput h)
  | text s => exact beq_self_eq_true s
  | formula f => exact beq_self_eq_true f.text

/-! ### The contents that typing gives -/

/-- The contents that typing gives: finite numbers, formulas, and texts that are not empty, do not
    start with an equals sign and, without blank ends, are not read as a finite number. -/
def Typable : Contents → Prop
  | .number v => v.isFinite = true
  | .text s => s ≠ "" ∧ s.toList.head? ≠ some '=' ∧
      ∀ v, Double.read (trim s.toList) = some v → v.isFinite = false
  | .formula _ => True

/-- No number is typed when the trimmed text is read as none, or as one that is not finite. -/
theorem number?_eq_none_iff : number? input = none ↔
    ∀ v, Double.read (trim input.toList) = some v → v.isFinite = false := by
  unfold number?
  cases Double.read (trim input.toList) with
  | none => simp
  | some v => cases hv : v.isFinite <;> simp [hv]

/-- A text is what is typed when nothing else is. -/
theorem ofInput_text_iff {s : String} :
    ofInput s = .ok (some (.text s)) ↔ (Contents.text s).Typable := by
  rw [Typable, ← number?_eq_none_iff, ne_eq, ← String.toList_eq_nil_iff]
  unfold ofInput
  cases s.toList with
  | nil => simp
  | cons c rest =>
    cases number? s with
    | some v => simp
    | none =>
      by_cases hc : c = '='
      · cases hread : Formula.read (String.ofList rest) <;> simp [hc, hread, Except.map]
      · simp [hc]

/-- **What is typed is typable.** -/
theorem typable_of_ofInput {c : Contents} (h : ofInput input = .ok (some c)) : c.Typable := by
  cases c with
  | number v => exact isFinite_of_ofInput h
  | text s =>
    obtain rfl := eq_of_ofInput h
    exact ofInput_text_iff.1 h
  | formula f => trivial

/-- **What is typable can be typed**, also a zero of either sign. -/
theorem exists_ofInput_of_typable {c : Contents} (h : c.Typable) :
    ∃ input, ofInput input = .ok (some c) := by
  cases c with
  | number v =>
    by_cases hzero : v.isZero = true
    · obtain ⟨negative, rfl⟩ := Double.isZero_iff.1 hzero
      cases negative with
      | true => exact ⟨"-0", rfl⟩
      | false => exact ⟨"0", rfl⟩
    · refine ⟨v.text, ?_⟩
      rw [ofInput_number h, Double.unsignZero_of_isZero_eq_false (Bool.not_eq_true _ ▸ hzero)]
  | text s => exact ⟨s, ofInput_text_iff.2 h⟩
  | formula f => exact ⟨_, ofInput_formula f⟩

/-- **The contents that can be typed again** from the text that stands for them, numbers being
    compared as numbers, are the typable ones. -/
theorem exists_same_iff_typable {c : Contents} :
    (∃ d, ofInput c.toInput = .ok (some d) ∧ d.same c = true) ↔ c.Typable := by
  constructor
  · rintro ⟨d, hd, hsame⟩
    have htyped := typable_of_ofInput hd
    cases c with
    | number v =>
      -- contents that compare equal are of one kind
      cases d with
      | number w => exact (Double.isFinite_of_equals hsame).symm.trans htyped
      | text s => cases hsame
      | formula f => cases hsame
    | text s =>
      cases d with
      | number w => cases hsame
      | text t =>
        obtain rfl : t = s := beq_iff_eq.1 hsame
        exact htyped
      | formula f => cases hsame
    | formula f => trivial
  · -- typable contents were typed once, so their text gives them again
    intro h
    obtain ⟨input, hinput⟩ := exists_ofInput_of_typable h
    exact ⟨_, ofInput_toInput hinput, same_unsignZero hinput⟩

end Contents

end LiveSheet
