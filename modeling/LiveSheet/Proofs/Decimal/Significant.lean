import LiveSheet.Proofs.Decimal.Longest

namespace LiveSheet

/-!
# Significant digits

The zeros before the first and after the last other digit of a numeral only say where its point is.

* `significantPart` — a text without the zeros at its ends.
* `Numeral.exists_coefficient_eq` — a numeral with so many significant digits is a whole number
  below ten to this power, times a power of ten.
* `Numeral.IsTidy` — a numeral without exponent and without superfluous zeros.
* `Decimal.isTidy_numeral`, `Decimal.significant_numeral` — the positional text of a decimal spells
  such a numeral, with the digits of the decimal for its significant ones.
-/

/-- A text without the zeros at its ends. -/
def significantPart (cs : List Char) : List Char :=
  ((cs.dropWhile (· == '0')).reverse.dropWhile (· == '0')).reverse

/-! ### The value of digits -/

/-- Digits stand for less than ten to the power of their number. -/
theorem ofDigitChars_lt {ds : List Char} (h : AreDigits ds) :
    Nat.ofDigitChars 10 ds 0 < 10 ^ ds.length := by
  induction ds with
  | nil => exact Nat.one_pos
  | cons d ds ih =>
    have hd : d.toNat - '0'.toNat ≤ 9 := by
      have hdigit := h d List.mem_cons_self
      simp only [Char.isDigit, Bool.and_eq_true, decide_eq_true_eq,
        UInt32.le_iff_toNat_le] at hdigit
      have hle : d.toNat ≤ 57 := hdigit.2
      show d.toNat - 48 ≤ 9
      omega
    have hrest := ih fun c hc => h c (List.mem_cons_of_mem d hc)
    -- the first digit counts at most nine times the power, and the others less than once
    have hfirst := Nat.mul_le_mul_left (10 ^ ds.length) hd
    rw [Nat.ofDigitChars_cons, Nat.mul_zero, Nat.zero_add, Nat.ofDigitChars_eq_ofDigitChars_zero,
      List.length_cons, Nat.pow_succ]
    omega

/-- Zeros before the first other digit do not count. -/
theorem ofDigitChars_dropWhile_zeros (cs : List Char) :
    Nat.ofDigitChars 10 (cs.dropWhile (· == '0')) 0 = Nat.ofDigitChars 10 cs 0 := by
  induction cs with
  | nil => rfl
  | cons c cs ih =>
    by_cases hc : c = '0'
    · obtain rfl := hc
      exact ih
    · rw [List.dropWhile_cons_of_neg (by simp [hc])]

/-- **Digits stand for a number of as many digits as are significant**, and zeros after it. -/
theorem exists_ofDigitChars_eq {cs : List Char} (h : AreDigits cs) :
    ∃ c t, Nat.ofDigitChars 10 cs 0 = c * 10 ^ t ∧ c < 10 ^ (significantPart cs).length := by
  obtain ⟨t, hsplit⟩ : ∃ t, significantPart cs ++ List.replicate t '0' = cs.dropWhile (· == '0') :=
    ⟨_, strip_append_zeros _⟩
  have hdigits : AreDigits (significantPart cs) := fun c hc =>
    h c ((List.dropWhile_sublist _).subset (hsplit ▸ List.mem_append_left _ hc))
  refine ⟨Nat.ofDigitChars 10 (significantPart cs) 0, t, ?_, ofDigitChars_lt hdigits⟩
  rw [← ofDigitChars_dropWhile_zeros, ← hsplit, Nat.ofDigitChars_append,
    Nat.ofDigitChars_replicate_zero, Nat.mul_comm]

/-! ### Digits between zeros -/

/-- A text that is not empty and has no zero at its ends. -/
structure NoZeroEnds (cs : List Char) : Prop where
  ne_nil : cs ≠ []
  head : cs.head? ≠ some '0'
  last : cs.getLast? ≠ some '0'

/-- Zeros around a text without zeros at its ends are dropped. -/
theorem significantPart_between {ds : List Char} (h : NoZeroEnds ds) (before after : Nat) :
    significantPart (List.replicate before '0' ++ (ds ++ List.replicate after '0')) = ds := by
  have hzeros (n : Nat) : ∀ c ∈ List.replicate n '0', (c == '0') = true := fun c hc =>
    beq_iff_eq.2 (List.eq_of_mem_replicate hc)
  have hfirst : ∀ c ∈ (ds ++ List.replicate after '0').head?, (c == '0') = false := by
    rintro c hc
    rw [List.head?_append_of_ne_nil ds h.ne_nil] at hc
    exact beq_eq_false_iff_ne.2 fun heq => h.head (heq ▸ hc)
  have hlast : ∀ c ∈ ds.reverse.head?, (c == '0') = false := by
    rintro c hc
    rw [List.head?_reverse] at hc
    exact beq_eq_false_iff_ne.2 fun heq => h.last (heq ▸ hc)
  rw [significantPart, dropWhile_run_append (hzeros before) hfirst,
    List.reverse_append, List.reverse_replicate, dropWhile_run_append (hzeros after) hlast,
    List.reverse_reverse]

namespace Numeral

/-- The significant digits of a numeral: its digits without the zeros before the first and after the
    last other one. -/
def significant (n : Numeral) : List Char := significantPart n.digits

/-- A numeral without exponent and without superfluous zeros: none before another whole digit, and
    none at the end of the fraction, which is not empty. -/
structure IsTidy (n : Numeral) : Prop extends n.IsPlain where
  whole_head : n.whole = ['0'] ∨ n.whole.head? ≠ some '0'
  fraction_ne_nil : ∀ ds ∈ n.fraction, ds ≠ []
  fraction_last : ∀ ds ∈ n.fraction, ds.getLast? ≠ some '0'

/-- The digits of a numeral that is scanned are digits. -/
theorem areDigits_of_scan {cs rest : List Char} {n : Numeral} (h : scan cs = some (n, rest)) :
    AreDigits n.digits := by
  simp only [scan] at h
  split at h
  · cases h
  cases h
  intro c hc
  rcases List.mem_append.1 hc with hc | hc
  · exact areDigits_leadingDigits cs c hc
  · unfold scanFraction at hc
    split at hc
    · next fraction _ =>
      split at hc
      · cases hc
      · exact areDigits_leadingDigits fraction c hc
    · cases hc

/-- **A numeral with so many significant digits** is a whole number below ten to this power, times a
    power of ten. -/
theorem exists_value_eq {n : Numeral} (h : AreDigits n.digits) :
    ∃ (c : Nat) (k : Int), n.decimal.value = c * 10 ^ k ∧ c < 10 ^ n.significant.length := by
  obtain ⟨c, t, hvalue, hlt⟩ := exists_ofDigitChars_eq h
  refine ⟨c, t + n.scale, ?_, hlt⟩
  have hcoefficient : n.decimal.coefficient = c * 10 ^ t := hvalue
  rw [Decimal.value, hcoefficient, zpow_add₀ (by norm_num), zpow_natCast]
  push_cast
  rw [mul_assoc]
  rfl

end Numeral

namespace Decimal

variable {d : Decimal}

/-! ### The digits of a decimal -/

/-- The first digit of a positive number is not a zero. -/
theorem head?_toDigits_ne_zero {n : Nat} (h : 0 < n) : (Nat.toDigits 10 n).head? ≠ some '0' := by
  intro hhead
  obtain ⟨ds, hds⟩ := List.head?_eq_some_iff.1 hhead
  have hdigits : AreDigits ds := fun c hc =>
    Nat.isDigit_of_mem_toDigits (by decide) (Nat.le_refl 10) (hds ▸ List.mem_cons_of_mem '0' hc)
  -- otherwise the number is that of the other digits, which are too few
  have hvalue := Nat.ofDigitChars_ten_toDigits (n := n)
  have hlow := (Double.length_toDigits_bounds h).1
  rw [hds, Nat.ofDigitChars_cons] at hvalue
  rw [hds, List.length_cons, Nat.add_sub_cancel] at hlow
  have hlt := ofDigitChars_lt hdigits
  change Nat.ofDigitChars 10 ds 0 = n at hvalue
  omega

/-- The digits of a decimal start and end with other digits than zeros. -/
theorem noZeroEnds_digits (h : 0 < d.coefficient) : NoZeroEnds d.digits where
  ne_nil := digits_ne_nil h
  head := by
    have hhead := head?_toDigits_ne_zero h
    rwa [toDigits_eq, List.head?_append_of_ne_nil _ (digits_ne_nil h)] at hhead
  last := by
    rw [digits, List.getLast?_reverse]
    intro hlast
    have hnot := List.head?_dropWhile_not (· == '0') (Nat.toDigits 10 d.coefficient).reverse
    rw [hlast] at hnot
    cases hnot

/-- A coefficient up to ten to some power has at most so many digits that are not zeros at its
    end. -/
theorem length_digits_le {n : Nat} (hn : 0 < n) (h : d.coefficient ≤ 10 ^ n) :
    d.digits.length ≤ n := by
  have hlength := congrArg List.length d.toDigits_eq
  rw [List.length_append, List.length_replicate] at hlength
  rcases Nat.lt_or_eq_of_le h with hlt | heq
  · have hle := (Nat.length_toDigits_le_iff (by decide : 1 < 10) hn).2 hlt
    omega
  · -- ten to the power itself has one digit more, but this is a zero
    have hle := (Nat.length_toDigits_le_iff (by decide : 1 < 10) n.succ_pos).2
      (heq.trans_lt (Nat.pow_lt_pow_right (by decide) n.lt_succ_self))
    have htrailing : 0 < d.trailing := by
      obtain ⟨m, rfl⟩ := Nat.exists_eq_add_one_of_ne_zero hn.ne'
      have hten : 10 ≤ d.coefficient := by
        rw [heq, Nat.pow_succ]
        exact Nat.le_mul_of_pos_left 10 (Nat.pow_pos (by decide))
      have hmod : d.coefficient % 10 = 0 := by
        rw [heq, Nat.pow_succ, Nat.mul_mod_left]
      rw [trailing, Nat.toDigits_of_base_le (by decide) hten, hmod, List.reverse_append]
      exact Nat.succ_pos _
    omega

/-! ### The numeral of a positional text -/

/-- **The significant digits of a positional text** are those of the decimal. -/
theorem significant_numeral (h : 0 < d.coefficient) : d.numeral.significant = d.digits := by
  have hends := noZeroEnds_digits h
  unfold numeral
  split
  · have hpart := significantPart_between hends (1 + (-d.place).toNat) 0
    rwa [List.replicate_zero, List.append_nil, ← List.replicate_append_replicate] at hpart
  split
  · have hpart := significantPart_between hends 0 (d.place.toNat - d.digits.length)
    rw [← List.append_nil (_ ++ _)] at hpart
    exact hpart
  · have hpart := significantPart_between hends 0 0
    show significantPart (d.digits.take d.place.toNat ++ d.digits.drop d.place.toNat) = d.digits
    rw [List.take_append_drop]
    rwa [List.replicate_zero, List.append_nil, List.nil_append] at hpart

/-- **A positional text has no superfluous zeros.** -/
theorem isTidy_numeral (h : 0 < d.coefficient) : d.numeral.IsTidy := by
  -- the digits end in no zero on either side, so zeros stand only where they fill up to the point
  have hends := noZeroEnds_digits h
  refine ⟨isPlain_numeral h, ?_, ?_, ?_⟩ <;> unfold numeral
  · split
    · exact Or.inl rfl
    split
    · refine Or.inr ?_
      rw [List.head?_append_of_ne_nil _ hends.ne_nil]
      exact hends.head
    · next hplace hlength =>
      refine Or.inr ?_
      rw [List.head?_take, if_neg (by omega)]
      exact hends.head
  · split
    · rintro ds ⟨⟩
      exact List.append_ne_nil_of_right_ne_nil _ hends.ne_nil
    split
    · rintro ds ⟨⟩
    · next hlength =>
      rintro ds ⟨⟩
      rw [ne_eq, List.drop_eq_nil_iff]
      exact hlength
  · split
    · rintro ds ⟨⟩
      rw [List.getLast?_append_of_ne_nil _ hends.ne_nil]
      exact hends.last
    split
    · rintro ds ⟨⟩
    · next hlength =>
      rintro ds ⟨⟩
      rw [List.getLast?_drop, if_neg hlength]
      exact hends.last

end Decimal

end LiveSheet
