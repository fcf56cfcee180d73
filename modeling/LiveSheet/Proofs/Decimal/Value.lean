import LiveSheet.Decimal.Shortest
import LiveSheet.Proofs.Double.Nearest

namespace LiveSheet

/-!
# The value of a decimal

* `Decimal.value` — the number that a decimal is.
* `Decimal.InRange` — the decimals whose reading is decided by rounding and by nothing else.
* `Double.ofDecimal_congr` — of these, two of the same value are read as the same double.
* `Double.readsBack_of_rounds` — one that lies near enough to a double is read as it.
-/

namespace Decimal

/-- The number that a decimal is. -/
def value (d : Decimal) : ℚ := d.coefficient * 10 ^ d.scale

/-- A decimal that is not zero, with a scale that is neither so large nor so small that the scale
    decides the reading. -/
structure InRange (d : Decimal) : Prop where
  pos : 0 < d.coefficient
  low : -400 ≤ d.scale
  high : d.scale ≤ 400

end Decimal

namespace Double

/-- There are some units in one. -/
theorem unitsPerOne_pos : 0 < unitsPerOne := by decide +kernel

/-! ### The two quotients as numbers -/

/-- Ten to a power that is taken as a natural. -/
theorem natCast_pow_ten_toNat {k : Int} (h : 0 ≤ k) :
    ((Nat.pow 10 k.toNat : Nat) : ℚ) = 10 ^ k := by
  obtain ⟨n, rfl⟩ := Int.eq_ofNat_of_zero_le h
  change ((10 ^ n : Nat) : ℚ) = 10 ^ (n : Int)
  rw [zpow_natCast]
  push_cast
  rfl

/-- The quotient that a decimal is read by has no zero denominator. -/
theorem decimalRatio_snd_pos (c : Nat) (k : Int) : 0 < (decimalRatio c k).2 := by
  unfold decimalRatio
  split
  · exact Nat.one_pos
  · exact Nat.pow_pos (by decide)

/-- The quotient of a decimal is its value in units. -/
theorem decimalRatio_eq (d : Decimal) :
    ((decimalRatio d.coefficient d.scale).1 : ℚ) / (decimalRatio d.coefficient d.scale).2
      = d.value * unitsPerOne := by
  unfold decimalRatio Decimal.value
  split
  · next h =>
    push_cast [natCast_pow_ten_toNat h]
    rw [div_one]
  · next h =>
    push_cast [natCast_pow_ten_toNat (k := -d.scale) (by omega)]
    rw [zpow_neg, div_inv_eq_mul]
    ring

/-- The quotient that counts the steps of a grid has no zero denominator. -/
theorem scaledRatio_snd_pos (r : Nat) (k : Int) : 0 < (scaledRatio r k).2 := by
  unfold scaledRatio
  split
  · exact Nat.mul_pos unitsPerOne_pos (Nat.pow_pos (by decide))
  · dsimp only
    exact unitsPerOne_pos

/-- The scaled quotient of a rank counts the steps of a grid below its point. -/
theorem scaledRatio_eq (r : Nat) (k : Int) :
    ((scaledRatio r k).1 : ℚ) / (scaledRatio r k).2 = point r / (10 ^ k * unitsPerOne) := by
  unfold scaledRatio
  split
  · next h =>
    push_cast [natCast_pow_ten_toNat h]
    rw [mul_comm]
  · next h =>
    push_cast [natCast_pow_ten_toNat (k := -k) (by omega)]
    rw [zpow_neg, ← div_eq_mul_inv, div_div]

/-! ### Reading decimals -/

/-- In range, a decimal is read by rounding. -/
theorem ofDecimal_of_inRange {d : Decimal} (h : d.InRange) (negative : Bool) :
    ofDecimal negative d.coefficient d.scale =
      ofRatio negative (decimalRatio d.coefficient d.scale).1
        (decimalRatio d.coefficient d.scale).2 := by
  obtain ⟨hpos, hlow, hhigh⟩ := h
  unfold ofDecimal
  rw [if_neg (by omega), if_neg (by omega), if_neg (by omega)]

/-- **Decimals of the same value are read as the same double.** -/
theorem ofDecimal_congr {d d' : Decimal} (h : d.InRange) (h' : d'.InRange)
    (heq : d.value = d'.value) (negative : Bool) :
    ofDecimal negative d.coefficient d.scale = ofDecimal negative d'.coefficient d'.scale := by
  have hnear := nearest_congr (decimalRatio_snd_pos d.coefficient d.scale)
    (decimalRatio_snd_pos d'.coefficient d'.scale)
    (by rw [decimalRatio_eq, decimalRatio_eq, heq])
  rw [ofDecimal_of_inRange h, ofDecimal_of_inRange h']
  simp only [ofRatio, hnear]

/-! ### Signs -/

/-- A sign before a decimal becomes the sign of the double. -/
theorem ofDecimal_sign {c : Nat} {k : Int} {r : Fin limit}
    (h : ofDecimal false c k = .finite false r) (negative : Bool) :
    ofDecimal negative c k = .finite negative r := by
  -- each way of reading puts the sign on at its end
  unfold ofDecimal at h ⊢
  split at h
  · next hzero => cases h; rw [if_pos hzero]
  split at h
  · cases h
  split at h
  · next hne hle hsmall => cases h; rw [if_neg hne, if_neg hle, if_pos hsmall]
  · next hne hle hlarge =>
    rw [if_neg hne, if_neg hle, if_neg hlarge]
    unfold ofRatio at h ⊢
    split at h
    · next hlt => cases h; rw [dif_pos hlt]
    · cases h

/-- Rounding a quotient keeps the sign. -/
theorem negative_of_ofRatio {negative s : Bool} {num den : Nat} {r : Fin limit}
    (h : ofRatio negative num den = .finite s r) : s = negative := by
  unfold ofRatio at h
  split at h
  · cases h; rfl
  · cases h

/-- Reading a decimal keeps the sign. -/
theorem negative_of_ofDecimal {negative s : Bool} {coefficient : Nat} {scale : Int}
    {r : Fin limit} (h : ofDecimal negative coefficient scale = .finite s r) : s = negative := by
  unfold ofDecimal at h
  split at h
  · cases h; rfl
  split at h
  · cases h
  split at h
  · cases h; rfl
  · exact negative_of_ofRatio h

/-- A finite number is negative when there is a minus sign before it. -/
theorem negative_of_read {cs : List Char} {s : Bool} {r : Fin limit}
    (h : read cs = some (.finite s r)) : s = (splitSign cs).1 := by
  simp only [read] at h
  split at h
  · exact negative_of_ofDecimal (Option.some.inj h)
  · simp only [ofWord] at h
    split at h
    · cases h
    · split at h <;> cases h

/-! ### Reading back -/

/-- A decimal reads back as a double when it is read as the double of this rank. -/
theorem readsBack_iff {r : Nat} {d : Decimal} (hr : r < limit) :
    readsBack r d = true ↔ ofDecimal false d.coefficient d.scale = .finite false ⟨r, hr⟩ := by
  unfold readsBack
  constructor
  · intro h
    split at h
    · next s hs =>
      have heq : s = ⟨r, hr⟩ := Fin.ext (beq_iff_eq.1 h)
      rw [hs, heq]
    · cases h
  · intro h
    rw [h]
    exact beq_self_eq_true r

/-- A decimal that lies nearer to a double than half a gap reads back. -/
theorem readsBack_of_rounds {r : Nat} {d : Decimal} (hr : r < limit) (hd : d.InRange)
    (h : Rounds r (d.value * unitsPerOne)) : readsBack r d = true := by
  rw [← decimalRatio_eq] at h
  have hnear := nearest_of_rounds (decimalRatio_snd_pos d.coefficient d.scale) h
  rw [readsBack_iff hr, ofDecimal_of_inRange hd, ofRatio, dif_pos (hnear.symm ▸ hr)]
  simp only [hnear]

/-- No decimal of value zero reads back as a double that is not zero. -/
theorem coefficient_pos_of_readsBack {r : Nat} {d : Decimal} (hpos : 0 < r)
    (h : readsBack r d = true) : 0 < d.coefficient := by
  rw [Nat.pos_iff_ne_zero]
  intro hzero
  simp only [readsBack, hzero, ofDecimal, if_true, zeroRank, beq_iff_eq] at h
  omega

end Double

end LiveSheet
