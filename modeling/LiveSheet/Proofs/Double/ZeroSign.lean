import LiveSheet.Double.Arithmetic
import LiveSheet.Proofs.Double.Nearest

namespace LiveSheet

/-!
# The sign of a zero

* `Double.unsignZero` — a double, with the positive zero for both zeros.
* `Double.UpToZeroSign` — two doubles are the same but for the sign of a zero.
* `Double.unsignZero_add`, `unsignZero_sub`, `unsignZero_mul`, `unsignZero_div` — the sign of a zero
  operand decides no more than the sign of a zero result, unless it is divided by.
-/

namespace Double

/-- The double, with the positive zero for both zeros. -/
def unsignZero : Double → Double
  | .finite negative r => .finite (negative && r.val != 0) r
  | x => x

/-- Two doubles are the same, or both zeros. -/
def UpToZeroSign (x y : Double) : Prop := x = y ∨ x.isZero = true ∧ y.isZero = true

/-- The zeros are the two of rank zero. -/
theorem isZero_iff {x : Double} : x.isZero = true ↔ ∃ negative, x = .finite negative zeroRank := by
  cases x with
  | nan => simp [isZero]
  | infinite negative => simp [isZero]
  | finite negative r => simp [isZero, zeroRank, Fin.ext_iff]

/-- Both zeros become the positive one. -/
theorem unsignZero_zero (negative : Bool) :
    unsignZero (.finite negative zeroRank) = .finite false zeroRank := by
  cases negative <;> rfl

/-- Doubles that are not zero keep their sign. -/
theorem unsignZero_of_isZero_eq_false {x : Double} (h : x.isZero = false) : x.unsignZero = x := by
  cases x with
  | nan => rfl
  | infinite negative => rfl
  | finite negative r =>
    have hne : (r.val != 0) = true := by simpa [isZero] using h
    rw [unsignZero, hne, Bool.and_true]

/-- Without its sign a zero is a zero, and nothing else becomes one. -/
@[simp] theorem isZero_unsignZero (x : Double) : x.unsignZero.isZero = x.isZero := by
  cases x <;> rfl

/-- Taking the sign off a zero makes nothing finite or infinite. -/
@[simp] theorem isFinite_unsignZero (x : Double) : x.unsignZero.isFinite = x.isFinite := by
  cases x <;> rfl

/-- Taking the sign off twice is taking it off once. -/
theorem unsignZero_unsignZero (x : Double) : x.unsignZero.unsignZero = x.unsignZero := by
  cases x with
  | nan => rfl
  | infinite negative => rfl
  | finite negative r => rw [unsignZero, unsignZero, Bool.and_assoc, Bool.and_self]

/-- Doubles agree but for the sign of a zero when they agree without it. -/
theorem upToZeroSign_iff {x y : Double} : x.UpToZeroSign y ↔ x.unsignZero = y.unsignZero := by
  constructor
  · rintro (rfl | ⟨hx, hy⟩)
    · rfl
    · obtain ⟨s, rfl⟩ := isZero_iff.1 hx
      obtain ⟨t, rfl⟩ := isZero_iff.1 hy
      rw [unsignZero_zero, unsignZero_zero]
  · intro h
    have hsame : x.isZero = y.isZero := by rw [← isZero_unsignZero, h, isZero_unsignZero]
    by_cases hx : x.isZero = true
    · exact Or.inr ⟨hx, hsame.symm.trans hx⟩
    · rw [Bool.not_eq_true] at hx
      rw [unsignZero_of_isZero_eq_false hx,
        unsignZero_of_isZero_eq_false (hsame.symm.trans hx)] at h
      exact Or.inl h

/-- A finite number equals itself with the sign of a zero taken away. -/
theorem equals_unsignZero {x : Double} (h : x.isFinite = true) : x.unsignZero.equals x = true := by
  cases x with
  | nan => cases h
  | infinite negative => cases h
  | finite negative r => by_cases hr : r.val = 0 <;> simp [unsignZero, equals, isZero, hr]

/-- Numbers that compare equal are both finite or both not. -/
theorem isFinite_of_equals {x y : Double} (h : x.equals y = true) : x.isFinite = y.isFinite := by
  cases x <;> cases y <;> simp_all [equals, isZero, isFinite]

/-! ### Operations -/

/-- Nothing is rounded to a zero, whatever its sign. -/
theorem unsignZero_ofRatio_zero (negative : Bool) (den : Nat) :
    unsignZero (ofRatio negative 0 den) = .finite false zeroRank := by
  have hzero : ofRatio negative 0 den = .finite negative zeroRank := by
    simp only [ofRatio, nearest_zero]
    rfl
  rw [hzero, unsignZero_zero]

/-- A zero lies at the first point. -/
theorem point_zero : point zeroRank.val = 0 := rfl

/-- A zero is no units, whatever its sign. -/
theorem units_zero (negative : Bool) : units negative zeroRank.val = 0 := by
  cases negative <;> rfl

variable {x y : Double}

/-- What does not depend on the signs of zero operands can be computed without them. -/
theorem unsignZero_congr (op : Double → Double → Double)
    (hleft : ∀ s y, (op (.finite s zeroRank) y).unsignZero
      = (op (.finite false zeroRank) y).unsignZero)
    (hright : ∀ s x, (op x (.finite s zeroRank)).unsignZero
      = (op x (.finite false zeroRank)).unsignZero) (x y : Double) :
    (op x y).unsignZero = (op x.unsignZero y.unsignZero).unsignZero := by
  have hx : (op x y).unsignZero = (op x.unsignZero y).unsignZero := by
    cases h : x.isZero with
    | true =>
      obtain ⟨s, rfl⟩ := isZero_iff.1 h
      rw [unsignZero_zero, hleft]
    | false => rw [unsignZero_of_isZero_eq_false h]
  have hy : (op x.unsignZero y).unsignZero = (op x.unsignZero y.unsignZero).unsignZero := by
    cases h : y.isZero with
    | true =>
      obtain ⟨s, rfl⟩ := isZero_iff.1 h
      rw [unsignZero_zero, hright]
    | false => rw [unsignZero_of_isZero_eq_false h]
  rw [hx, hy]

/-- A sum that is zero has some sign, any other its own. -/
theorem unsignZero_sum (total : Int) (s t : Bool) :
    unsignZero (ofRatio (if total = 0 then s else decide (total < 0)) total.natAbs 1)
      = unsignZero (ofRatio (if total = 0 then t else decide (total < 0)) total.natAbs 1) := by
  by_cases h : total = 0
  · rw [h, Int.natAbs_zero, unsignZero_ofRatio_zero, unsignZero_ofRatio_zero]
  · rw [if_neg h, if_neg h]

/-- **Addition** does not see the signs of zeros, but for that of a zero result. -/
theorem unsignZero_add (x y : Double) :
    (add x y).unsignZero = (add x.unsignZero y.unsignZero).unsignZero := by
  refine unsignZero_congr add (fun s y => ?_) (fun s x => ?_) x y
  · cases y with
    | nan => rfl
    | infinite t => rfl
    | finite t b =>
      simp only [add, units_zero]
      exact unsignZero_sum _ _ _
  · cases x with
    | nan => rfl
    | infinite t => rfl
    | finite t a =>
      simp only [add, units_zero]
      exact unsignZero_sum _ _ _

/-- **Subtraction** does not see them either, being an addition. -/
theorem unsignZero_sub (x y : Double) :
    (sub x y).unsignZero = (sub x.unsignZero y.unsignZero).unsignZero := by
  refine unsignZero_congr sub (fun s y => ?_) (fun s x => ?_) x y
  · rw [sub, sub, unsignZero_add, unsignZero_add (.finite false zeroRank), unsignZero_zero]
    rfl
  · -- a zero with its sign changed is still a zero
    rw [sub, sub, neg, neg, unsignZero_add, unsignZero_add x (.finite (!false) zeroRank),
      unsignZero_zero, unsignZero_zero]

/-- **Multiplication** does not see them: a zero factor gives a zero, or what is no number. -/
theorem unsignZero_mul (x y : Double) :
    (mul x y).unsignZero = (mul x.unsignZero y.unsignZero).unsignZero := by
  refine unsignZero_congr mul (fun s y => ?_) (fun s x => ?_) x y
  · cases y with
    | nan => rfl
    | infinite t => rfl
    | finite t b =>
      simp only [mul, point_zero, Nat.zero_mul, unsignZero_ofRatio_zero]
  · cases x with
    | nan => rfl
    | infinite t => rfl
    | finite t a =>
      simp only [mul, point_zero, Nat.mul_zero, unsignZero_ofRatio_zero]

/-- Division by zero is left out: the sign of the divisor would decide that of an infinity. -/
theorem unsignZero_div (x : Double) {y : Double} (hy : y.isZero = false) :
    (div x y).unsignZero = (div x.unsignZero y.unsignZero).unsignZero := by
  rw [unsignZero_of_isZero_eq_false hy]
  cases hx : x.isZero with
  | false => rw [unsignZero_of_isZero_eq_false hx]
  | true =>
    obtain ⟨s, rfl⟩ := isZero_iff.1 hx
    rw [unsignZero_zero]
    cases y with
    | nan => rfl
    | infinite t => rw [div, div, unsignZero_zero, unsignZero_zero]
    | finite t b =>
      have hb : ¬ b.val = 0 := by simpa [isZero] using hy
      simp only [div, hb, if_false, point_zero, Nat.zero_mul, unsignZero_ofRatio_zero]

end Double

end LiveSheet
