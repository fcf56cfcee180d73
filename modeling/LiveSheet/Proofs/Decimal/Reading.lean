import LiveSheet.Proofs.Decimal.Spelling

namespace LiveSheet

/-!
# Decimals are read as the nearest double

* `Double.ofDecimal_eq` — the scales that are answered at once are answered rightly: every decimal
  is rounded.
* `Double.IsReading` — the double that is nearest to a number of units, infinite from the first
  point beyond the finite doubles on.
* `Double.isReading_ofDecimal`, `Double.read_of_scan` — every decimal and every numeral is read so.
* `Double.readsBack_iff_isNearest` — the decimals that read back as a double are those nearest to
  it.
-/

namespace Double

/-! ### Scales that are answered at once -/

/-- A quotient beyond the finite doubles is infinite. -/
theorem limit_le_of_isNearest {r : Nat} {x : ℚ} (h : IsNearest r x) (hx : (point limit : ℚ) ≤ x) :
    limit ≤ r := by
  by_contra hlt
  exact absurd (h.lt_point (Nat.lt_of_not_le hlt)) (not_lt.2 hx)

/-- What is below one half of a unit is rounded to zero. -/
theorem eq_zero_of_isNearest {r : Nat} {x : ℚ} (h : IsNearest r x) (hx : x < 1 / 2) : r = 0 := by
  by_contra hne
  obtain ⟨p, rfl⟩ := Nat.exists_eq_add_one_of_ne_zero hne
  have hmid : midpoint 0 ≤ midpoint p := strictMono_midpoint.monotone (Nat.zero_le p)
  have hhalf : midpoint 0 = 1 / 2 := by
    rw [midpoint, show point 0 = 0 from rfl, show point (0 + 1) = 1 from rfl]
    norm_num
  linarith [((isNearest_iff.1 h).2 p rfl).1]

/-- A decimal with so large a scale is beyond the finite doubles. -/
theorem point_limit_le {d : Decimal} (hpos : 0 < d.coefficient) (hscale : 400 < d.scale) :
    (point limit : ℚ) ≤ d.value * unitsPerOne := by
  have hpow : (2 : ℚ) ^ 1024 ≤ 10 ^ (400 : Int) := by
    have h : 2 ^ 1024 ≤ 10 ^ 400 := by decide +kernel
    exact_mod_cast h
  have hten : (10 : ℚ) ^ (400 : Int) ≤ 10 ^ d.scale := zpow_le_zpow_right₀ (by norm_num) hscale.le
  have hone : (1 : ℚ) ≤ d.coefficient := by exact_mod_cast hpos
  rw [point_limit, Nat.cast_mul, Nat.cast_pow, Nat.cast_ofNat]
  refine mul_le_mul_of_nonneg_right ?_ natCast_unitsPerOne_pos.le
  calc (2 : ℚ) ^ 1024 ≤ 10 ^ d.scale := hpow.trans hten
    _ ≤ d.coefficient * 10 ^ d.scale := le_mul_of_one_le_left (zpow_pos (by norm_num) _).le hone

/-- A decimal with so few digits for its scale is less than half a unit. -/
theorem value_lt_half {d : Decimal} (hscale : d.scale + d.coefficient.log2 < -400) :
    d.value * unitsPerOne < 1 / 2 := by
  have hlog : (d.coefficient : ℚ) < 10 ^ ((d.coefficient.log2 + 1 : Nat) : Int) := by
    rw [zpow_natCast]
    have h : d.coefficient < 10 ^ (d.coefficient.log2 + 1) :=
      Nat.lt_log2_self.trans_le (Nat.pow_le_pow_left (by decide) _)
    exact_mod_cast h
  have hten : (0 : ℚ) < 10 ^ d.scale := zpow_pos (by norm_num) _
  -- the value is below `10 ^ -400`, and this is far below a unit
  have hvalue : d.value < 10 ^ (-400 : Int) := by
    calc d.value < 10 ^ ((d.coefficient.log2 + 1 : Nat) : Int) * 10 ^ d.scale :=
          mul_lt_mul_of_pos_right hlog hten
      _ = 10 ^ (((d.coefficient.log2 + 1 : Nat) : Int) + d.scale) :=
          (zpow_add₀ (by norm_num) _ _).symm
      _ ≤ 10 ^ (-400 : Int) := zpow_le_zpow_right₀ (by norm_num) (by push_cast; omega)
  have hfine : step (-400) = 10 ^ (-17 : Int) * step (-383) := by
    rw [step, step, ← mul_assoc, ← zpow_add₀ (by norm_num)]
    rfl
  have hsmall : (10 : ℚ) ^ (-17 : Int) < 1 / 2 := by norm_num
  calc d.value * unitsPerOne < step (-400) := mul_lt_mul_of_pos_right hvalue natCast_unitsPerOne_pos
    _ ≤ 10 ^ (-17 : Int) := by
        rw [hfine]
        exact mul_le_of_le_one_right (zpow_pos (by norm_num) _).le step_le_one
    _ < 1 / 2 := hsmall

/-! ### Every decimal is rounded -/

/-- The value of a decimal is rounded to its nearest rank. -/
theorem isNearest_decimalRatio (d : Decimal) :
    IsNearest
      (nearest (decimalRatio d.coefficient d.scale).1 (decimalRatio d.coefficient d.scale).2)
      (d.value * unitsPerOne) := by
  rw [← decimalRatio_eq]
  exact isNearest_nearest _ (decimalRatio_snd_pos d.coefficient d.scale)

/-- **Every decimal is read by rounding**: where the scale decides the reading, rounding gives the
    same double. -/
theorem ofDecimal_eq (negative : Bool) (d : Decimal) :
    ofDecimal negative d.coefficient d.scale =
      ofRatio negative (decimalRatio d.coefficient d.scale).1
        (decimalRatio d.coefficient d.scale).2 := by
  have hnearest := isNearest_decimalRatio d
  -- below half a unit, rounding gives zero
  have hzero (hx : d.value * unitsPerOne < 1 / 2) :
      ofRatio negative (decimalRatio d.coefficient d.scale).1
        (decimalRatio d.coefficient d.scale).2 = .finite negative zeroRank := by
    have heq := eq_zero_of_isNearest hnearest hx
    simp only [ofRatio, heq]
    rfl
  unfold ofDecimal
  split
  · next hc =>
    -- a zero, with any scale
    refine (hzero ?_).symm
    rw [Decimal.value, hc, Nat.cast_zero, zero_mul, zero_mul]
    norm_num
  split
  · next hc hscale =>
    -- with so large a scale the value lies beyond the finite doubles
    have hlimit := limit_le_of_isNearest hnearest (point_limit_le (Nat.pos_of_ne_zero hc) hscale)
    rw [ofRatio, dif_neg (Nat.not_lt.2 hlimit)]
  split
  · -- with so small a scale it lies below half a unit
    next hscale => exact (hzero (value_lt_half hscale)).symm
  · rfl

/-- The double that is nearest to so many units, with a sign.  From the first point beyond the
    finite doubles on it is infinite. -/
def IsReading (negative : Bool) (x : ℚ) (v : Double) : Prop :=
  ∃ r, IsNearest r x ∧ v = if h : r < limit then .finite negative ⟨r, h⟩ else .infinite negative

/-- **Every decimal is read as the nearest double.** -/
theorem isReading_ofDecimal (negative : Bool) (d : Decimal) :
    IsReading negative (d.value * unitsPerOne) (ofDecimal negative d.coefficient d.scale) :=
  ⟨_, isNearest_decimalRatio d, ofDecimal_eq negative d⟩

/-- A finite double is the reading of the values that it is nearest to. -/
theorem isReading_finite_iff {negative s : Bool} {x : ℚ} {r : Fin limit} :
    IsReading negative x (.finite s r) ↔ s = negative ∧ IsNearest r x := by
  constructor
  · rintro ⟨p, hp, heq⟩
    split at heq
    · cases heq
      exact ⟨rfl, hp⟩
    · cases heq
  · rintro ⟨rfl, hr⟩
    exact ⟨r, hr, by rw [dif_pos r.isLt]⟩

/-- A number of units, with a sign, is read as one double only. -/
theorem IsReading.unique {negative : Bool} {x : ℚ} {v w : Double} (hv : IsReading negative x v)
    (hw : IsReading negative x w) : v = w := by
  obtain ⟨r, hr, rfl⟩ := hv
  obtain ⟨s, hs, rfl⟩ := hw
  obtain rfl := hr.unique hs
  rfl

/-- **The decimals that read back as a double are those nearest to it.** -/
theorem readsBack_iff_isNearest {r : Nat} {d : Decimal} (hr : r < limit) :
    readsBack r d = true ↔ IsNearest r (d.value * unitsPerOne) := by
  have hreading := isReading_ofDecimal false d
  rw [readsBack_iff hr]
  constructor
  · intro h
    rw [h] at hreading
    exact (isReading_finite_iff.1 hreading).2
  · intro h
    exact hreading.unique (isReading_finite_iff.2 ⟨rfl, h⟩)

/-! ### Texts -/

variable {cs : List Char} {n : Numeral}

/-- A text that is a sign and a numeral is read as the numeral with this sign. -/
theorem read_of_scan (h : Numeral.scan (splitSign cs).2 = some (n, [])) :
    read cs = some (ofNumeral (splitSign cs).1 n) := by
  simp only [read, h]

/-- **A numeral is read as the nearest double**, with the sign that stands before it. -/
theorem exists_isReading_of_scan (h : Numeral.scan (splitSign cs).2 = some (n, [])) :
    ∃ v, read cs = some v ∧ IsReading (splitSign cs).1 (n.decimal.value * unitsPerOne) v :=
  ⟨_, read_of_scan h, isReading_ofDecimal (splitSign cs).1 n.decimal⟩

/-- A numeral that is read as a finite double is nearest to it. -/
theorem isNearest_of_read {negative : Bool} {r : Fin limit}
    (h : Numeral.scan (splitSign cs).2 = some (n, []))
    (hread : read cs = some (.finite negative r)) :
    IsNearest r (n.decimal.value * unitsPerOne) := by
  obtain ⟨v, hv, hreading⟩ := exists_isReading_of_scan h
  rw [hread, Option.some.injEq] at hv
  rw [← hv] at hreading
  exact (isReading_finite_iff.1 hreading).2

end Double

end LiveSheet
