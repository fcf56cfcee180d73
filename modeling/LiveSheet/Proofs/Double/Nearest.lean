import LiveSheet.Proofs.Double.HalfEven

namespace LiveSheet

/-!
# What rounds to a double

* `Double.Rounds` — a quotient lies nearer to the point of a rank than half a gap, and not below the
  rank's block.
* `Double.nearest_of_rounds` — then it is rounded to that rank.
* `Double.nearest_congr` — rounding depends only on the value of a quotient.
-/

namespace Double

/-- So many units lie nearer to the point of rank `r` than half a gap, and not below the block of
    the rank, where the points are closer together. -/
structure Rounds (r : Nat) (x : ℚ) : Prop where
  low : (point r : ℚ) - gap r / 2 < x
  high : x < point r + gap r / 2
  floor : 0 < shift r → (block * gap r : ℚ) ≤ x

/-- What lies near to the point of a rank is nearest to it. -/
theorem Rounds.isNearest {r : Nat} {x : ℚ} (h : Rounds r x) : IsNearest r x := by
  have hgap : (0 : ℚ) < gap r := by exact_mod_cast gap_pos r
  have hpow : (gap r : ℚ) = 2 ^ shift r := Nat.cast_pow 2 (shift r)
  have hpoint : (point r : ℚ) = significand r * gap r := by exact_mod_cast point_eq r
  have hsig : (significand r + 1 : ℚ) ≤ 2 * block := by exact_mod_cast significand_lt r
  obtain ⟨hlow, hhigh, hfloor⟩ := h
  -- in the spacing of the block, the value is within one half of the significand
  have hge : (significand r : ℚ) - 1 / 2 < x / gap r := by
    rw [lt_div_iff₀ hgap]
    linarith
  have hle : x / gap r < significand r + 1 / 2 := by
    rw [div_lt_iff₀ hgap]
    linarith
  have hblock : 0 < shift r → (block : ℚ) ≤ x / gap r := by
    intro hshift
    rw [le_div_iff₀ hgap]
    exact hfloor hshift
  have hnearest := isNearest_blocks hblock (by linarith) hge.le hle.le fun htie =>
    absurd htie (not_or.2 ⟨hge.ne', hle.ne⟩)
  rw [shift_mul_block_add_significand, ← hpow, div_mul_cancel₀ _ hgap.ne'] at hnearest
  exact hnearest

/-- **What lies near to the point of a rank is rounded to it.** -/
theorem nearest_of_rounds {num den r : Nat} (hden : 0 < den) (h : Rounds r (num / den)) :
    nearest num den = r :=
  (isNearest_nearest num hden).unique h.isNearest

/-- **Rounding depends only on the value of a quotient.** -/
theorem nearest_congr {num den num' den' : Nat} (hden : 0 < den) (hden' : 0 < den')
    (h : (num : ℚ) / den = num' / den') : nearest num den = nearest num' den' := by
  have hnearest := isNearest_nearest num hden
  rw [h] at hnearest
  exact hnearest.unique (isNearest_nearest num' hden')

/-- Nothing is rounded to nothing. -/
theorem nearest_zero (den : Nat) : nearest 0 den = 0 := by
  have hspacing : spacing 0 den = 0 := by
    rw [spacing, Nat.zero_div, Nat.log2_zero]
  have hround (d : Nat) : roundHalfEven 0 d = 0 := by
    simp only [roundHalfEven, Nat.zero_div, Nat.zero_mod, and_true]
    split <;> omega
  simp only [nearest, hspacing, hround, Nat.zero_mul, Nat.add_zero]

end Double

end LiveSheet
