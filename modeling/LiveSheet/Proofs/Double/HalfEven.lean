import LiveSheet.Double.Rounding
import Mathlib.Algebra.Order.Field.Rat
import Mathlib.Algebra.Order.Ring.Abs
import Mathlib.Order.Monotone.Basic
import Mathlib.Tactic.FieldSimp
import Mathlib.Tactic.Linarith
import Mathlib.Tactic.NormNum
import Mathlib.Tactic.Positivity
import Mathlib.Tactic.Ring

namespace LiveSheet

/-!
# Rounding takes the nearest double, and of two the even one

A quotient is rounded inside a block, where the points are equally far apart.  That the result is
the nearest of all points is a matter of the two neighbours only: it lies between the half-way
points to them.

* `Double.gap` — the distance from a rank's point to the next.
* `Double.IsNearest` — the point of a rank is the nearest to some units, and of two nearest points
  the one of even rank.
* `Double.isNearest_iff` — so it is between the half-way points, and on one of them if its rank is
  even.
* `Double.IsNearest.between` — what lies between two such values is such a value.
* `Double.isNearest_nearest` — a quotient is rounded to its nearest rank.
-/

namespace Double

/-! ### Ranks and their points -/

/-- The distance from the point of rank `r` to the next point, in units. -/
def gap (r : Nat) : Nat := Nat.pow 2 (shift r)

/-- Every point is followed by a farther one. -/
theorem gap_pos (r : Nat) : 0 < gap r := Nat.pow_pos (by decide)

/-- The point of a rank is its significand, in gaps. -/
theorem point_eq (r : Nat) : point r = significand r * gap r := rfl

/-- A rank counts the blocks below it and its significand. -/
theorem shift_mul_block_add_significand (r : Nat) : shift r * block + significand r = r := by
  unfold shift significand
  split
  · next hlt => rw [Nat.div_eq_of_lt hlt, Nat.zero_sub, Nat.zero_mul, Nat.zero_add]
  · next hge =>
    have hdiv : 1 ≤ r / block := (Nat.one_le_div_iff (by decide)).2 (Nat.le_of_not_lt hge)
    have hmod := Nat.div_add_mod' r block
    have hsub := Nat.sub_mul (r / block) 1 block
    have hle := Nat.mul_le_mul_right block hdiv
    omega

/-- A significand is below two blocks: there the gap doubles. -/
theorem significand_lt (r : Nat) : significand r < 2 * block := by
  unfold significand
  have hmod : r % block < block := Nat.mod_lt r (by decide)
  split <;> omega

/-- Only where the gap is one unit are there significands below one block. -/
theorem block_le_significand {r : Nat} (h : 0 < shift r) : block ≤ significand r := by
  unfold significand
  split
  · next hlt =>
    unfold shift at h
    rw [Nat.div_eq_of_lt hlt] at h
    exact absurd h (Nat.lt_irrefl 0)
  · exact Nat.le_add_right _ _

/-! ### Points in order -/

/-- There is one way to write a rank as blocks and a significand. -/
theorem shift_significand_eq {s q : Nat} (hlow : 0 < s → block ≤ q) (hhigh : q < 2 * block) :
    shift (s * block + q) = s ∧ significand (s * block + q) = q := by
  have heq := shift_mul_block_add_significand (s * block + q)
  have hlt := significand_lt (s * block + q)
  have hge := block_le_significand (r := s * block + q)
  rcases Nat.lt_trichotomy (shift (s * block + q)) s with h | h | h
  · -- one block less, and the significand would not fit
    have hmul := Nat.mul_le_mul_right block (Nat.succ_le_of_lt h)
    have hq := hlow (Nat.zero_lt_of_lt h)
    rw [Nat.succ_mul] at hmul
    omega
  · rw [h] at heq
    exact ⟨h, Nat.add_left_cancel heq⟩
  · have hmul := Nat.mul_le_mul_right block (Nat.succ_le_of_lt h)
    have hsig := hge (Nat.zero_lt_of_lt h)
    rw [Nat.succ_mul] at hmul
    omega

/-- The point of a rank that is written as blocks and a significand.  A significand of two blocks is
    the first of the next spacing. -/
theorem point_blocks {s q : Nat} (hlow : 0 < s → block ≤ q) (hhigh : q ≤ 2 * block) :
    point (s * block + q) = q * 2 ^ s := by
  rcases Nat.lt_or_eq_of_le hhigh with hlt | rfl
  · obtain ⟨hshift, hsig⟩ := shift_significand_eq hlow hlt
    rw [point, hshift, hsig]
    rfl
  · have hnext : s * block + 2 * block = (s + 1) * block + block := by ring
    obtain ⟨hshift, hsig⟩ := shift_significand_eq (s := s + 1) (q := block)
      (fun _ => Nat.le_refl block) (by decide)
    rw [hnext, point, hshift, hsig]
    show block * 2 ^ (s + 1) = _
    ring

/-- The point of blocks and a significand, as a rational. -/
theorem natCast_point_blocks {s q : Nat} (hlow : 0 < s → block ≤ q) (hhigh : q ≤ 2 * block) :
    (point (s * block + q) : ℚ) = q * 2 ^ s := by
  rw [point_blocks hlow hhigh]
  push_cast
  rfl

/-- From each point to the next it is one gap. -/
theorem point_succ (r : Nat) : point (r + 1) = point r + gap r := by
  have hrank := shift_mul_block_add_significand r
  have hpoint : point (shift r * block + (significand r + 1)) = _ :=
    point_blocks (fun h => Nat.le_succ_of_le (block_le_significand h)) (significand_lt r)
  rw [← Nat.add_assoc, hrank] at hpoint
  rw [hpoint, Nat.add_one_mul, point_eq]
  rfl

/-- Points lie in the order of their ranks. -/
theorem strictMono_point : StrictMono point :=
  strictMono_nat_of_lt_succ fun r => by
    rw [point_succ]
    exact Nat.lt_add_of_pos_right (gap_pos r)

/-! ### Half-way points -/

/-- The half-way point from the point of rank `r` to the next. -/
def midpoint (r : Nat) : ℚ := (point r + point (r + 1)) / 2

/-- Half-way points lie in the order of their ranks. -/
theorem strictMono_midpoint : StrictMono midpoint :=
  strictMono_nat_of_lt_succ fun r => by
    have hlow : (point r : ℚ) < point (r + 1) := by exact_mod_cast strictMono_point r.lt_succ_self
    have hhigh : (point (r + 1) : ℚ) < point (r + 1 + 1) := by
      exact_mod_cast strictMono_point (r + 1).lt_succ_self
    unfold midpoint
    linarith

/-- The half-way point lies above the point of its rank. -/
theorem point_lt_midpoint (r : Nat) : (point r : ℚ) < midpoint r := by
  have hlt : (point r : ℚ) < point (r + 1) := by exact_mod_cast strictMono_point r.lt_succ_self
  unfold midpoint
  linarith

/-- The half-way point lies below the next point. -/
theorem midpoint_lt_point (r : Nat) : midpoint r < point (r + 1) := by
  have hlt : (point r : ℚ) < point (r + 1) := by exact_mod_cast strictMono_point r.lt_succ_self
  unfold midpoint
  linarith

/-- Inside a block, the half-way points are half-way between significands. -/
theorem midpoint_blocks {s q : Nat} (hlow : 0 < s → block ≤ q) (hhigh : q < 2 * block) :
    midpoint (s * block + q) = (q + 1 / 2) * 2 ^ s := by
  rw [midpoint, Nat.add_assoc, natCast_point_blocks hlow hhigh.le,
    natCast_point_blocks (fun hs => Nat.le_succ_of_le (hlow hs)) hhigh]
  push_cast
  ring

/-- The lower of two numbers is the nearer one up to half-way. -/
theorem abs_sub_le_abs_sub_iff {a b x : ℚ} (h : a < b) : |x - a| ≤ |x - b| ↔ x ≤ (a + b) / 2 := by
  have hsq : (x - b) ^ 2 - (x - a) ^ 2 = (b - a) * (a + b - 2 * x) := by ring
  rw [← sq_le_sq, ← sub_nonneg, hsq, mul_nonneg_iff_of_pos_left (sub_pos.2 h)]
  constructor <;> intro hx <;> linarith

/-- From half-way on, the upper of two numbers is the nearer one. -/
theorem abs_sub_le_abs_sub_iff' {a b x : ℚ} (h : a < b) : |x - b| ≤ |x - a| ↔ (a + b) / 2 ≤ x := by
  have hsq : (x - a) ^ 2 - (x - b) ^ 2 = (b - a) * (2 * x - (a + b)) := by ring
  rw [← sq_le_sq, ← sub_nonneg, hsq, mul_nonneg_iff_of_pos_left (sub_pos.2 h)]
  constructor <;> intro hx <;> linarith

/-! ### The nearest point -/

/-- The point of rank `r` is nearest to so many units.  Of two nearest points it is the one of even
    rank. -/
structure IsNearest (r : Nat) (x : ℚ) : Prop where
  near : ∀ s, |x - point r| ≤ |x - point s|
  even : ∀ s, s ≠ r → |x - point s| = |x - point r| → r % 2 = 0

section IsNearest

variable {r s : Nat} {x y z : ℚ}

/-- **Only the two neighbours matter**: what is rounded to a rank lies between the half-way points
    to them, and is one of these if the rank is even. -/
theorem isNearest_iff : IsNearest r x ↔
    (x ≤ midpoint r ∧ (x = midpoint r → r % 2 = 0)) ∧
      ∀ p, p + 1 = r → midpoint p ≤ x ∧ (x = midpoint p → r % 2 = 0) := by
  have hlt {p q : Nat} (h : p < q) : (point p : ℚ) < point q := by exact_mod_cast strictMono_point h
  constructor
  · intro h
    refine ⟨⟨?_, fun hx => ?_⟩, ?_⟩
    · exact (abs_sub_le_abs_sub_iff (hlt r.lt_succ_self)).1 (h.near (r + 1))
    · refine h.even (r + 1) r.succ_ne_self (le_antisymm ?_ (h.near (r + 1)))
      exact (abs_sub_le_abs_sub_iff' (hlt r.lt_succ_self)).2 hx.ge
    · rintro p rfl
      refine ⟨?_, fun hx => ?_⟩
      · exact (abs_sub_le_abs_sub_iff' (hlt p.lt_succ_self)).1 (h.near p)
      · refine h.even p p.succ_ne_self.symm (le_antisymm ?_ (h.near p))
        exact (abs_sub_le_abs_sub_iff (hlt p.lt_succ_self)).2 hx.le
  · rintro ⟨⟨hle, htie⟩, hlow⟩
    -- the points beyond a neighbour have their half-way points beyond the neighbour's
    have habove {s : Nat} (h : r < s) : midpoint r ≤ (point r + point s) / 2 := by
      have hs : (point (r + 1) : ℚ) ≤ point s := by exact_mod_cast strictMono_point.monotone h
      unfold midpoint
      linarith
    have hbelow {p s : Nat} (h : s < p + 1) : ((point s + point (p + 1)) / 2 : ℚ) ≤ midpoint p := by
      have hs : (point s : ℚ) ≤ point p := by
        exact_mod_cast strictMono_point.monotone (Nat.le_of_lt_succ h)
      unfold midpoint
      linarith
    constructor
    · intro s
      rcases Nat.lt_trichotomy s r with h | rfl | h
      · obtain ⟨p, rfl⟩ := Nat.exists_eq_add_one_of_ne_zero (Nat.ne_zero_of_lt h)
        exact (abs_sub_le_abs_sub_iff' (hlt h)).2 ((hbelow h).trans (hlow p rfl).1)
      · exact le_rfl
      · exact (abs_sub_le_abs_sub_iff (hlt h)).2 (hle.trans (habove h))
    · intro s hs heq
      rcases Nat.lt_or_gt_of_ne hs with h | h
      · obtain ⟨p, rfl⟩ := Nat.exists_eq_add_one_of_ne_zero (Nat.ne_zero_of_lt h)
        have hx := (abs_sub_le_abs_sub_iff (hlt h)).1 heq.le
        exact (hlow p rfl).2 (le_antisymm (hx.trans (hbelow h)) (hlow p rfl).1)
      · have hx := (abs_sub_le_abs_sub_iff' (hlt h)).1 heq.le
        exact htie (le_antisymm hle ((habove h).trans hx))

/-- What lies between two values that are rounded to a rank is rounded to it. -/
theorem IsNearest.between (hx : IsNearest r x) (hz : IsNearest r z) (hxy : x ≤ y) (hyz : y ≤ z) :
    IsNearest r y := by
  rw [isNearest_iff] at hx hz ⊢
  refine ⟨⟨hyz.trans hz.1.1, fun hy => ?_⟩, fun p hp => ⟨(hx.2 p hp).1.trans hxy, fun hy => ?_⟩⟩
  · exact hz.1.2 (le_antisymm hz.1.1 (hy ▸ hyz))
  · exact (hx.2 p hp).2 (le_antisymm (hy ▸ hxy) (hx.2 p hp).1)

/-- To a point itself no other point is as near. -/
theorem isNearest_point (r : Nat) : IsNearest r (point r) := by
  constructor
  · intro s
    rw [sub_self, abs_zero]
    exact abs_nonneg _
  · intro s hs heq
    rw [sub_self, abs_zero, abs_eq_zero, sub_eq_zero] at heq
    exact absurd (strictMono_point.injective (by exact_mod_cast heq)).symm hs

/-- A value that is rounded to a rank is below that of the next. -/
theorem IsNearest.lt_point (h : IsNearest r x) (hs : r < s) : x < point s := by
  have hmid := (isNearest_iff.1 h).1.1.trans_lt (midpoint_lt_point r)
  exact hmid.trans_le (by exact_mod_cast strictMono_point.monotone hs)

/-- **No value is rounded to two ranks**: of neighbours only one is even. -/
theorem IsNearest.unique (hr : IsNearest r x) (hs : IsNearest s x) : r = s := by
  -- of two ranks, the greater is not the nearest to `x`
  have hle {r s : Nat} (hr : IsNearest r x) (hs : IsNearest s x) : s ≤ r := by
    by_contra hlt
    obtain ⟨p, rfl⟩ := Nat.exists_eq_add_one_of_ne_zero (Nat.ne_zero_of_lt (Nat.lt_of_not_le hlt))
    obtain ⟨⟨hupper, heven⟩, -⟩ := isNearest_iff.1 hr
    obtain ⟨hlower, heven'⟩ := (isNearest_iff.1 hs).2 p rfl
    have hrp : midpoint r ≤ midpoint p := strictMono_midpoint.monotone (by omega)
    have hp : x = midpoint p := le_antisymm (hupper.trans hrp) hlower
    have hr' : x = midpoint r := le_antisymm hupper (hrp.trans hlower)
    have hsame : r = p := strictMono_midpoint.injective (hr'.symm.trans hp)
    have hmod := heven hr'
    have hmod' := heven' hp
    omega
  exact Nat.le_antisymm (hle hs hr) (hle hr hs)

end IsNearest

/-! ### Quotients -/

section Quotient

variable (num : Nat) {den : Nat} (hden : 0 < den)

include hden

/-- The whole part of a quotient. -/
theorem natCast_div_bounds :
    ((num / den : Nat) : ℚ) ≤ num / den ∧ (num : ℚ) / den < (num / den : Nat) + 1 := by
  have hpos : (0 : ℚ) < den := by exact_mod_cast hden
  have hlt : num < (num / den + 1) * den := by
    rw [Nat.add_one_mul]
    exact Nat.lt_div_mul_add hden
  rw [le_div_iff₀ hpos, div_lt_iff₀ hpos]
  exact ⟨by exact_mod_cast Nat.div_mul_le_self num den, by exact_mod_cast hlt⟩

/-- A quotient is its whole part and what is left over. -/
theorem natCast_div_eq :
    (num : ℚ) / den = (num / den : Nat) + (num % den : Nat) / den := by
  have hpos : (0 : ℚ) < den := by exact_mod_cast hden
  have h : (num : ℚ) = (num / den : Nat) * den + (num % den : Nat) := by
    exact_mod_cast (Nat.div_add_mod' num den).symm
  rw [div_eq_iff hpos.ne', add_mul, div_mul_cancel₀ _ hpos.ne']
  exact h

/-- Whether what is left over is less than one half. -/
theorem natCast_mod_div_lt_iff :
    ((num % den : Nat) : ℚ) / den < 1 / 2 ↔ 2 * (num % den) < den := by
  have hpos : (0 : ℚ) < den := by exact_mod_cast hden
  rw [div_lt_iff₀ hpos, ← Nat.cast_lt (α := ℚ)]
  push_cast
  constructor <;> intro h <;> linarith

/-- Whether what is left over is one half. -/
theorem natCast_mod_div_eq_iff :
    ((num % den : Nat) : ℚ) / den = 1 / 2 ↔ 2 * (num % den) = den := by
  have hpos : (0 : ℚ) < den := by exact_mod_cast hden
  rw [div_eq_iff hpos.ne', ← Nat.cast_inj (R := ℚ)]
  push_cast
  constructor <;> intro h <;> linarith

/-- A quotient is within one half of the whole number it is rounded to, and at one half from it only
    if this is even. -/
theorem roundHalfEven_bounds :
    (roundHalfEven num den : ℚ) - 1 / 2 ≤ num / den ∧
      (num : ℚ) / den ≤ roundHalfEven num den + 1 / 2 ∧
      ((num : ℚ) / den = roundHalfEven num den - 1 / 2 ∨
        (num : ℚ) / den = roundHalfEven num den + 1 / 2 → roundHalfEven num den % 2 = 0) := by
  obtain ⟨hfloor, hceil⟩ := natCast_div_bounds num hden
  rw [natCast_div_eq num hden] at hfloor hceil ⊢
  unfold roundHalfEven
  dsimp only
  split
  · next hdown =>
    rw [← natCast_mod_div_lt_iff num hden, ← natCast_mod_div_eq_iff num hden] at hdown
    refine ⟨by linarith, ?_, ?_⟩
    · rcases hdown with h | h <;> linarith
    · rintro (h | h)
      · linarith
      · rcases hdown with hlt | heq
        · linarith
        · exact heq.2
  · next hup =>
    rw [← natCast_mod_div_lt_iff num hden, ← natCast_mod_div_eq_iff num hden, not_or, not_lt] at hup
    push_cast
    refine ⟨by linarith, by linarith, ?_⟩
    rintro (h | h)
    · -- half-way above an even number it would have been rounded down
      have hodd : ¬ num / den % 2 = 0 := fun hq => hup.2 ⟨by linarith, hq⟩
      omega
    · linarith

/-- In the spacing that is taken, a quotient has a significand of the right size. -/
theorem spacing_bounds :
    (num : ℚ) / (den * 2 ^ spacing num den) < 2 * block ∧
      (0 < spacing num den → (block : ℚ) ≤ num / (den * 2 ^ spacing num den)) := by
  have hpos : (0 : ℚ) < den * 2 ^ spacing num den := by positivity
  have hblock : block = 2 ^ 52 := by decide
  constructor
  · -- the logarithm is at most 52 above the spacing
    have hlog : num / den < 2 ^ (53 + spacing num den) := by
      refine Nat.lt_log2_self.trans_le (Nat.pow_le_pow_right Nat.two_pos ?_)
      unfold spacing
      omega
    have hlt : num < 2 * block * (den * 2 ^ spacing num den) := by
      rw [Nat.div_lt_iff_lt_mul hden, Nat.pow_add] at hlog
      calc num < 2 ^ 53 * 2 ^ spacing num den * den := hlog
        _ = 2 * block * (den * 2 ^ spacing num den) := by rw [hblock]; ring
    rw [div_lt_iff₀ hpos]
    exact_mod_cast hlt
  · intro hs
    have hne : num / den ≠ 0 := by
      intro hzero
      rw [spacing, hzero, Nat.log2_zero] at hs
      omega
    have hlog : 2 ^ (52 + spacing num den) ≤ num / den := by
      refine le_trans (Nat.pow_le_pow_right Nat.two_pos ?_) (Nat.log2_self_le hne)
      unfold spacing at hs ⊢
      omega
    have hle : block * (den * 2 ^ spacing num den) ≤ num := by
      rw [Nat.le_div_iff_mul_le hden, Nat.pow_add] at hlog
      calc block * (den * 2 ^ spacing num den) = 2 ^ 52 * 2 ^ spacing num den * den := by
            rw [hblock]; ring
        _ ≤ num := hlog
    rw [le_div_iff₀ hpos]
    exact_mod_cast hle

end Quotient

/-- A value is rounded to a rank when its significand, in the spacing of a block, is rounded to that
    of the rank. -/
theorem isNearest_blocks {s q : Nat} {y : ℚ}
    (hlow : 0 < s → (block : ℚ) ≤ y) (hhigh : y < 2 * block)
    (hge : (q : ℚ) - 1 / 2 ≤ y) (hle : y ≤ q + 1 / 2)
    (heven : y = q - 1 / 2 ∨ y = q + 1 / 2 → q % 2 = 0) :
    IsNearest (s * block + q) (y * 2 ^ s) := by
  have hpow : (0 : ℚ) < 2 ^ s := by positivity
  have hq : q ≤ 2 * block := by
    by_contra hlt
    have hcast : (2 * block + 1 : ℚ) ≤ q := by exact_mod_cast Nat.lt_of_not_le hlt
    linarith
  have hq' : 0 < s → block ≤ q := by
    intro hs
    by_contra hlt
    have hcast : (q + 1 : ℚ) ≤ block := by exact_mod_cast Nat.lt_of_not_le hlt
    linarith [hlow hs]
  have hparity : (s * block + q) % 2 = q % 2 := by
    have hblock : block = 2 * (block / 2) := by decide
    rw [hblock, Nat.mul_left_comm, Nat.mul_add_mod]
  rw [isNearest_iff, hparity]
  constructor
  · rcases Nat.lt_or_eq_of_le hq with hlt | hlast
    · rw [midpoint_blocks hq' hlt, mul_left_inj' hpow.ne']
      exact ⟨mul_le_mul_of_nonneg_right hle hpow.le, fun h => heven (Or.inr h)⟩
    · -- the last significand is one that was rounded up
      have hlt : y * 2 ^ s < midpoint (s * block + q) := by
        refine lt_trans ?_ (point_lt_midpoint _)
        rw [natCast_point_blocks hq' hq, hlast]
        push_cast
        exact mul_lt_mul_of_pos_right hhigh hpow
      exact ⟨hlt.le, fun h => absurd h hlt.ne⟩
  · intro p hp
    by_cases hfirst : 0 < s ∧ q = block
    · -- below the first significand of a block the points are closer together, but `y` is above
      have hlt : midpoint p < y * 2 ^ s := by
        refine (midpoint_lt_point p).trans_le ?_
        rw [hp, natCast_point_blocks hq' hq, hfirst.2]
        exact mul_le_mul_of_nonneg_right (hlow hfirst.1) hpow.le
      exact ⟨hlt.le, fun h => absurd h hlt.ne'⟩
    · -- the rank before it has the significand before it
      have hprev : 0 < s → block < q := fun hs =>
        Nat.lt_of_le_of_ne (hq' hs) fun h => hfirst ⟨hs, h.symm⟩
      obtain ⟨m, rfl⟩ : ∃ m, q = m + 1 := by
        refine Nat.exists_eq_add_one_of_ne_zero fun hzero => ?_
        rcases Nat.eq_zero_or_pos s with rfl | hs
        · omega
        · exact absurd (hprev hs) (by omega)
      obtain rfl : p = s * block + m := by omega
      have hmid := midpoint_blocks (fun hs => Nat.le_of_lt_succ (hprev hs)) hq
      have hhalf : (m + 1 / 2 : ℚ) = (m + 1 : Nat) - 1 / 2 := by
        push_cast
        ring
      rw [hmid, hhalf, mul_left_inj' hpow.ne']
      exact ⟨mul_le_mul_of_nonneg_right hge hpow.le, fun h => heven (Or.inl h)⟩

/-- **A quotient is rounded to its nearest rank**, and of two to the even one. -/
theorem isNearest_nearest (num : Nat) {den : Nat} (hden : 0 < den) :
    IsNearest (nearest num den) (num / den) := by
  have hpow : (2 : ℚ) ^ spacing num den ≠ 0 := by positivity
  have hpos : 0 < den * 2 ^ spacing num den := Nat.mul_pos hden (Nat.pow_pos Nat.two_pos)
  obtain ⟨hhigh, hlow⟩ := spacing_bounds num hden
  obtain ⟨hge, hle, heven⟩ := roundHalfEven_bounds num hpos
  push_cast at hge hle heven
  have hnearest := isNearest_blocks hlow hhigh hge hle heven
  rw [← div_div, div_mul_cancel₀ _ hpow] at hnearest
  exact hnearest

end Double

end LiveSheet
