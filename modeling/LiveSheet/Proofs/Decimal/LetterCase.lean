import LiveSheet.Proofs.Cell.Typing

namespace LiveSheet

/-!
# Numbers in upper case

The only letter of a numeral is the mark of its exponent part, and both cases of it mean the same.
So scanning does not see the case of letters, and neither does reading.

* `toUpper_congr` — what does not tell letters apart does not see their case.
* `Numeral.upper` — a numeral with its exponent mark in upper case.
* `Numeral.scan_map_toUpper` — scanning a text in upper case.
* `Double.read_map_toUpper` — a text is read as the same number in upper case.
-/

/-! ### Characters in upper case -/

/-- Lower case moves the capitals up by `32` and leaves every other character. -/
theorem toNat_toLower (c : Char) :
    c.toLower.toNat = if 65 ≤ c.toNat ∧ c.toNat ≤ 90 then c.toNat + 32 else c.toNat := by
  have hcapital : (c.val ≥ 'A'.val ∧ c.val ≤ 'Z'.val) ↔ 65 ≤ c.toNat ∧ c.toNat ≤ 90 :=
    and_congr UInt32.le_iff_toNat_le UInt32.le_iff_toNat_le
  delta Char.toLower
  split
  · next hc =>
    have hrange := hcapital.1 hc
    have hsum : c.toNat + 32 < 2 ^ 32 := by omega
    rw [if_pos hrange]
    exact (UInt32.toNat_add _ _).trans (Nat.mod_eq_of_lt hsum)
  · next hc => rw [if_neg (mt hcapital.2 hc)]

/-- Nothing of the case of a letter is left in lower case. -/
theorem toLower_toUpper (c : Char) : c.toUpper.toLower = c.toLower := by
  refine Char.ext (UInt32.toNat_inj.1 ?_)
  delta Char.toLower Char.toUpper
  split <;> split <;> grind [UInt32.toNat_add, Char.toNat_val]

/-- **What does not tell letters apart does not see their case.** -/
theorem toUpper_congr {β : Type} {f : Char → β} {b : β} (h : ∀ c, c.isAlpha = true → f c = b)
    (c : Char) : f c.toUpper = f c := by
  cases hc : c.isAlpha with
  | false => rw [toUpper_of_isAlpha_eq_false hc]
  | true => rw [h c hc, h c.toUpper ((isAlpha_toUpper c).trans hc)]

/-- In upper case there are no other characters than letters that were none. -/
theorem toUpper_eq_iff {c d : Char} (hd : d.isAlpha = false) : c.toUpper = d ↔ c = d := by
  have hletter : ∀ c : Char, c.isAlpha = true → (c == d) = false := by
    rintro c hc
    refine beq_eq_false_iff_ne.2 ?_
    rintro rfl
    rw [hc] at hd
    cases hd
  rw [← beq_iff_eq, ← beq_iff_eq (a := c), toUpper_congr (f := (· == d)) hletter c]

/-- A character is a sign, or it is none and none in upper case. -/
theorem sign_cases (c : Char) :
    c = '+' ∨ c = '-' ∨ (c ≠ '+' ∧ c ≠ '-') ∧ c.toUpper ≠ '+' ∧ c.toUpper ≠ '-' := by
  have hplus : c.toUpper = '+' ↔ c = '+' := toUpper_eq_iff rfl
  have hminus : c.toUpper = '-' ↔ c = '-' := toUpper_eq_iff rfl
  by_cases hp : c = '+'
  · exact Or.inl hp
  by_cases hm : c = '-'
  · exact Or.inr (Or.inl hm)
  exact Or.inr (Or.inr ⟨⟨hp, hm⟩, mt hplus.1 hp, mt hminus.1 hm⟩)

/-! ### Scanning -/

/-- Digits have no case, so the leading ones stay. -/
theorem leadingDigits_map_toUpper (cs : List Char) :
    leadingDigits (cs.map Char.toUpper) = leadingDigits cs := by
  have hdigit : Char.isDigit ∘ Char.toUpper = Char.isDigit := funext isDigit_toUpper
  show (cs.map Char.toUpper).takeWhile Char.isDigit = _
  rw [List.takeWhile_map, hdigit]
  have hdigits : ∀ c ∈ cs.takeWhile Char.isDigit, c.isDigit = true :=
    List.all_eq_true.1 List.all_takeWhile
  exact (List.map_congr_left fun c hc =>
    toUpper_of_isAlpha_eq_false (isAlpha_eq_false_of_isDigit (hdigits c hc))).trans (List.map_id' _)

/-- What follows the leading digits is what followed them, in upper case. -/
theorem afterDigits_map_toUpper (cs : List Char) :
    afterDigits (cs.map Char.toUpper) = (afterDigits cs).map Char.toUpper := by
  have hdigit : Char.isDigit ∘ Char.toUpper = Char.isDigit := funext isDigit_toUpper
  show (cs.map Char.toUpper).dropWhile Char.isDigit = _
  rw [List.dropWhile_map, hdigit]

namespace Exponent

/-- An exponent part with its mark in upper case. -/
def upper (e : Exponent) : Exponent := ⟨e.mark.toUpper, e.sign, e.digits⟩

/-- The sign before an exponent has no case either. -/
theorem scanSign_map_toUpper (cs : List Char) :
    scanSign (cs.map Char.toUpper) = ((scanSign cs).1, (scanSign cs).2.map Char.toUpper) := by
  cases cs with
  | nil => rfl
  | cons c rest =>
    rcases sign_cases c with rfl | rfl | ⟨⟨hp, hm⟩, hp', hm'⟩
    · rfl
    · rfl
    · simp [scanSign, hp, hm, hp', hm']

/-- The marks of exponent parts are the two cases of one letter. -/
theorem toLower_eq_mark_iff {c : Char} : c.toLower = 'e' ↔ c = 'e' ∨ c = 'E' := by
  rw [← Char.toNat_inj, ← Char.toNat_inj, ← Char.toNat_inj, toNat_toLower]
  show _ = 101 ↔ c.toNat = 101 ∨ c.toNat = 69
  split <;> omega

/-- A character in upper case is an exponent mark when it was one before. -/
theorem toUpper_eq_mark_iff {c : Char} :
    (c.toUpper = 'e' ∨ c.toUpper = 'E') ↔ (c = 'e' ∨ c = 'E') := by
  rw [← toLower_eq_mark_iff, ← toLower_eq_mark_iff, toLower_toUpper]

/-- An exponent part is scanned in upper case as it was before. -/
theorem scan_map_toUpper (cs : List Char) :
    scan (cs.map Char.toUpper) = ((scan cs).1.map upper, (scan cs).2.map Char.toUpper) := by
  cases cs with
  | nil => rfl
  | cons c rest =>
    rw [List.map_cons]
    simp only [scan, toUpper_eq_mark_iff, scanSign_map_toUpper, leadingDigits_map_toUpper,
      afterDigits_map_toUpper]
    split
    · cases leadingDigits (scanSign rest).2 with
      | nil => rfl
      | cons d ds => rfl
    · rfl

end Exponent

namespace Numeral

/-- A numeral with its exponent mark in upper case. -/
def upper (n : Numeral) : Numeral := ⟨n.whole, n.fraction, n.exponent.map Exponent.upper⟩

/-- A fraction is scanned in upper case as it was before. -/
theorem scanFraction_map_toUpper (whole cs : List Char) :
    scanFraction whole (cs.map Char.toUpper) =
      ((scanFraction whole cs).1, (scanFraction whole cs).2.map Char.toUpper) := by
  cases cs with
  | nil => rfl
  | cons c rest =>
    have hpoint : c.toUpper = '.' ↔ c = '.' := toUpper_eq_iff rfl
    by_cases hc : c = '.'
    · subst hc
      show scanFraction whole ('.' :: rest.map Char.toUpper) = _
      simp only [scanFraction, leadingDigits_map_toUpper, afterDigits_map_toUpper]
      split <;> rfl
    · simp [scanFraction, hc, hpoint]

/-- **A numeral is scanned in upper case as it was before.** -/
theorem scan_map_toUpper (cs : List Char) : scan (cs.map Char.toUpper) =
    (scan cs).map fun found => (found.1.upper, found.2.map Char.toUpper) := by
  simp only [scan, leadingDigits_map_toUpper, afterDigits_map_toUpper, scanFraction_map_toUpper,
    Exponent.scan_map_toUpper]
  split <;> rfl

/-- The text of a numeral that is scanned is in upper case too. -/
theorem spelling_upper {n : Numeral} {cs rest : List Char} (h : scan cs = some (n, rest)) :
    n.upper.spelling = n.spelling.map Char.toUpper := by
  have hupper : scan (cs.map Char.toUpper) = some (n.upper, rest.map Char.toUpper) := by
    rw [scan_map_toUpper, h]
    rfl
  have happ := spelling_append_of_scan hupper
  rw [← spelling_append_of_scan h, List.map_append] at happ
  exact List.append_cancel_right happ

/-- The exponent mark does not count for the power of ten. -/
theorem scale_upper (n : Numeral) : n.upper.scale = n.scale := by
  obtain ⟨whole, fraction, exponent⟩ := n
  cases exponent <;> rfl

end Numeral

/-! ### Reading -/

namespace Double

/-- A numeral stands for the same double, whatever the case of its exponent mark. -/
theorem ofNumeral_upper (negative : Bool) (n : Numeral) :
    ofNumeral negative n.upper = ofNumeral negative n := by
  rw [ofNumeral, ofNumeral, Numeral.scale_upper]
  rfl

/-- The words for values that are not finite are looked up in lower case. -/
theorem ofWord_map_toUpper (negative : Bool) (cs : List Char) :
    ofWord negative (cs.map Char.toUpper) = ofWord negative cs := by
  have hlower : Char.toLower ∘ Char.toUpper = Char.toLower := funext toLower_toUpper
  simp only [ofWord, List.map_map, hlower]

/-- The sign before a number has no case. -/
theorem splitSign_map_toUpper (cs : List Char) :
    splitSign (cs.map Char.toUpper) = ((splitSign cs).1, (splitSign cs).2.map Char.toUpper) := by
  cases cs with
  | nil => rfl
  | cons c rest =>
    rcases sign_cases c with rfl | rfl | ⟨⟨hp, hm⟩, hp', hm'⟩
    · rfl
    · rfl
    · simp [splitSign, hp, hm, hp', hm']

/-- **A text is read as the same number in upper case.** -/
theorem read_map_toUpper (cs : List Char) : read (cs.map Char.toUpper) = read cs := by
  simp only [read, splitSign_map_toUpper, Numeral.scan_map_toUpper, ofWord_map_toUpper]
  cases Numeral.scan (splitSign cs).2 with
  | none => rfl
  | some found =>
    obtain ⟨n, rest⟩ := found
    cases rest with
    | nil => exact congrArg some (ofNumeral_upper _ n)
    | cons c rest => rfl

end Double

end LiveSheet
