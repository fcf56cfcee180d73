import LiveSheet.Proofs.Decimal.Value

namespace LiveSheet

/-!
# The shortest decimal reads back

Seventeen digits always suffice: on a grid with so many digits, a step is less than a gap between
doubles, and less than half a gap where the gap below a double is smaller than the one above it.  So
one of the two neighbours on the grid rounds to the double.

* `Double.leadingPlace_spec` — the place of the first digit.
* `Double.rounds_or_rounds` — of two neighbours on a grid that is fine enough, one rounds to the
  rank.
* `Double.shortest_first` — the shortest decimal is the first candidate.
* `Double.shortest_spec` — the shortest decimal is read as the double, and its reading is decided by
  rounding.
-/

namespace Double

/-! ### The size of a double -/

/-- There are some units in one, as a rational. -/
theorem natCast_unitsPerOne_pos : (0 : ℚ) < unitsPerOne := by exact_mod_cast unitsPerOne_pos

/-- Only the first rank is zero units. -/
theorem point_pos {r : Nat} (h : 0 < r) : 0 < point r := strictMono_point h

/-- The first point beyond the finite doubles. -/
theorem point_limit : point limit = 2 ^ 1024 * unitsPerOne := by decide +kernel

/-- A finite double is below `2 ^ 1024`. -/
theorem point_lt {r : Nat} (h : r < limit) : point r < 2 ^ 1024 * unitsPerOne :=
  point_limit ▸ strictMono_point h

/-! ### Neighbours on a grid -/

/-- The size of one step on the grid of `10 ^ k`, in units. -/
def step (k : Int) : ℚ := 10 ^ k * unitsPerOne

/-- Every grid has steps of some size. -/
theorem step_pos (k : Int) : 0 < step k :=
  mul_pos (zpow_pos (by norm_num) k) natCast_unitsPerOne_pos

/-- A finer grid has smaller steps. -/
theorem step_lt_step_iff {j k : Int} : step j < step k ↔ j < k := by
  rw [step, step, mul_lt_mul_iff_left₀ natCast_unitsPerOne_pos]
  exact zpow_lt_zpow_iff_right₀ (by norm_num)

/-- A step of a grid is so many steps of a finer one. -/
theorem step_natCast_add (n : Nat) (k : Int) : step (n + k) = (10 ^ n : Nat) * step k := by
  rw [step, step, zpow_add₀ (by norm_num), zpow_natCast]
  push_cast
  rw [mul_assoc]

/-- Grids as fine as this tell all doubles from zero. -/
theorem step_le_one : step (-383) ≤ 1 := by
  have hunits : unitsPerOne ≤ 10 ^ 383 := by decide +kernel
  have hcast : (unitsPerOne : ℚ) ≤ 10 ^ 383 := by exact_mod_cast hunits
  have hpos : (0 : ℚ) < 10 ^ (383 : Int) := zpow_pos (by norm_num) _
  rw [step, zpow_neg, inv_mul_le_iff₀ hpos, mul_one]
  exact_mod_cast hcast

/-- No double is so large as a step of this grid. -/
theorem point_lt_step {r : Nat} (h : r < limit) : (point r : ℚ) < step 400 := by
  have hpow : 2 ^ 1024 ≤ 10 ^ 400 := by decide +kernel
  have hlt : point r < 10 ^ 400 * unitsPerOne :=
    Nat.lt_of_lt_of_le (point_lt h) (Nat.mul_le_mul_right _ hpow)
  rw [step]
  exact_mod_cast hlt

/-- The lower neighbour on a grid is a whole number of steps. -/
theorem gridFloor_value (r : Nat) (k : Int) :
    (gridFloor r k).value * unitsPerOne = (gridFloor r k).coefficient * step k := by
  rw [Decimal.value, step, mul_assoc]
  rfl

/-- The upper neighbour on a grid is one step above the lower one. -/
theorem gridNext_value (r : Nat) (k : Int) :
    (gridNext r k).value * unitsPerOne = (gridFloor r k).value * unitsPerOne + step k := by
  rw [gridFloor_value, Decimal.value, gridNext, step]
  push_cast
  ring

/-- A double lies between its two neighbours on a grid. -/
theorem gridFloor_bounds (r : Nat) (k : Int) :
    (gridFloor r k).value * unitsPerOne ≤ point r ∧
      (point r : ℚ) < (gridFloor r k).value * unitsPerOne + step k := by
  obtain ⟨hle, hlt⟩ := natCast_div_bounds (scaledRatio r k).1 (scaledRatio_snd_pos r k)
  rw [scaledRatio_eq] at hle hlt
  change ((gridFloor r k).coefficient : ℚ) ≤ point r / step k at hle
  change point r / step k < ((gridFloor r k).coefficient : ℚ) + 1 at hlt
  rw [le_div_iff₀ (step_pos k)] at hle
  rw [div_lt_iff₀ (step_pos k), add_one_mul] at hlt
  rw [gridFloor_value]
  exact ⟨hle, hlt⟩

/-! ### The place of the first digit -/

/-- A positive natural has as many digits as the first power of ten above it tells. -/
theorem length_toDigits_bounds {n : Nat} (h : 0 < n) :
    10 ^ ((Nat.toDigits 10 n).length - 1) ≤ n ∧ n < 10 ^ (Nat.toDigits 10 n).length := by
  have hiff {k : Nat} (hk : 0 < k) := Nat.length_toDigits_le_iff (n := n) (by decide : 1 < 10) hk
  refine ⟨?_, (hiff Nat.length_toDigits_pos).1 (Nat.le_refl _)⟩
  rcases Nat.eq_zero_or_pos ((Nat.toDigits 10 n).length - 1) with hzero | hpos
  · rw [hzero]
    exact h
  · by_contra hlt
    have hle := (hiff hpos).2 (Nat.lt_of_not_le hlt)
    omega

/-- The first digit of a positive double stands before the place: the double is below ten to this
    power and not below the power before it. -/
theorem leadingPlace_spec {r : Nat} (h : 0 < r) :
    step (leadingPlace r - 1) ≤ point r ∧ (point r : ℚ) < step (leadingPlace r) := by
  -- the double on the grid of `10 ^ -400` has as many digits as the place tells
  obtain ⟨hle, hlt⟩ := gridFloor_bounds r (-400)
  rw [gridFloor_value] at hle hlt
  have hplace : leadingPlace r =
      (Nat.toDigits 10 (gridFloor r (-400)).coefficient).length - 400 := rfl
  have hlen := Nat.length_toDigits_pos (b := 10) (n := (gridFloor r (-400)).coefficient)
  have hone : 0 < (gridFloor r (-400)).coefficient := by
    rw [Nat.pos_iff_ne_zero]
    intro hzero
    -- otherwise the double would be below one step of the grid, which is less than a unit
    have hpoint : (1 : ℚ) ≤ point r := by exact_mod_cast point_pos h
    have hfine : step (-400) < step (-383) := step_lt_step_iff.2 (by decide)
    rw [hzero, Nat.cast_zero, zero_mul, zero_add] at hlt
    linarith [step_le_one]
  have hdigits := length_toDigits_bounds hone
  generalize (gridFloor r (-400)).coefficient = whole at *
  generalize (Nat.toDigits 10 whole).length = length at *
  have hscale (k : Nat) : step ((k : Int) - 400) = 10 ^ k * step (-400) := by
    rw [sub_eq_add_neg, step_natCast_add, Nat.cast_pow, Nat.cast_ofNat]
  have hlow : (10 : ℚ) ^ (length - 1) ≤ whole := by exact_mod_cast hdigits.1
  have hhigh : (whole : ℚ) + 1 ≤ 10 ^ length := by exact_mod_cast hdigits.2
  have hstep := (step_pos (-400)).le
  have hpred : (length : Int) - 400 - 1 = ((length - 1 : Nat) : Int) - 400 := by omega
  rw [hplace, hpred, hscale, hscale]
  refine ⟨(mul_le_mul_of_nonneg_right hlow hstep).trans hle, hlt.trans_le ?_⟩
  rw [← add_one_mul]
  exact mul_le_mul_of_nonneg_right hhigh hstep

/-- The first digits of the finite doubles stand at some eight hundred places only. -/
theorem leadingPlace_bounds {r : Nat} (hpos : 0 < r) (hr : r < limit) :
    -383 < leadingPlace r ∧ leadingPlace r ≤ 400 := by
  obtain ⟨hlow, hhigh⟩ := leadingPlace_spec hpos
  have hpoint : (1 : ℚ) ≤ point r := by exact_mod_cast point_pos hpos
  -- a double is at least one unit and below `10 ^ 400`
  have hmin := step_lt_step_iff.1 ((step_le_one.trans hpoint).trans_lt hhigh)
  have hmax := step_lt_step_iff.1 (hlow.trans_lt (point_lt_step hr))
  omega

/-! ### Seventeen digits suffice -/

/-- What lies above a double by less than half a gap rounds to it. -/
theorem rounds_of_le {r : Nat} {x : ℚ} (hle : (point r : ℚ) ≤ x) (hx : x < point r + gap r / 2) :
    Rounds r x where
  low := by
    have hgap : (0 : ℚ) < gap r := by exact_mod_cast gap_pos r
    linarith
  high := hx
  floor := by
    intro hshift
    have hfloor : block * gap r ≤ point r := Nat.mul_le_mul_right _ (block_le_significand hshift)
    exact le_trans (by exact_mod_cast hfloor) hle

/-- What lies below a double by less than half a gap rounds to it, if the double is not the first of
    a block: there the gap below it is the smaller one. -/
theorem rounds_of_lt {r : Nat} {x : ℚ} (hx : point r - gap r / 2 < x) (hlt : x ≤ point r)
    (hsig : 0 < shift r → block < significand r) : Rounds r x where
  low := hx
  high := by
    have hgap : (0 : ℚ) < gap r := by exact_mod_cast gap_pos r
    linarith
  floor := by
    intro hshift
    have hfloor : (block + 1) * gap r ≤ point r := Nat.mul_le_mul_right _ (hsig hshift)
    have hcast : ((block : ℚ) + 1) * gap r ≤ point r := by exact_mod_cast hfloor
    have hgap : (0 : ℚ) < gap r := by exact_mod_cast gap_pos r
    linarith

/-- **A grid with seventeen digits is fine enough.**  If a step of a grid is at most one part in
    `10 ^ 16` of a double, one of its two neighbours on the grid rounds to it. -/
theorem rounds_or_rounds {r : Nat} {x g : ℚ} (hg : 0 < g) (hfine : 10 ^ 16 * g ≤ point r)
    (hle : x ≤ point r) (hlt : point r < x + g) : Rounds r x ∨ Rounds r (x + g) := by
  by_cases hfirst : significand r ≤ block
  · -- the first significand of a block or a smaller one: a step is less than half a gap
    have hpoint : point r ≤ block * gap r := Nat.mul_le_mul_right _ hfirst
    have hcast : (point r : ℚ) ≤ block * gap r := by exact_mod_cast hpoint
    have hhalf : g < gap r / 2 := by
      norm_num [block] at hcast hfine
      linarith
    exact Or.inr (rounds_of_le hlt.le (by linarith))
  · have hpoint : point r < 2 * block * gap r :=
      Nat.mul_lt_mul_of_pos_right (significand_lt r) (gap_pos r)
    have hcast : (point r : ℚ) < 2 * block * gap r := by exact_mod_cast hpoint
    -- here a step is only less than a gap, so the nearer of the two has to be taken
    have hgap : g < gap r := by
      norm_num [block] at hcast hfine
      linarith
    rcases lt_or_ge (point r - gap r / 2 : ℚ) x with hnear | hfar
    · exact Or.inl (rounds_of_lt hnear hle fun _ => Nat.lt_of_not_le hfirst)
    · exact Or.inr (rounds_of_le hlt.le (by linarith))

/-! ### The shortest decimal -/

/-- A candidate is one of the two neighbours on the grid. -/
theorem candidate_eq_some {r : Nat} {k : Int} {d : Decimal} (h : candidate r k = some d) :
    readsBack r d = true ∧ (d = gridFloor r k ∨ d = gridNext r k) := by
  simp only [candidate] at h
  split at h
  · next hlow hhigh =>
      -- when both read back, the nearer one is taken
    split at h
    · cases h
      exact ⟨hlow, Or.inl rfl⟩
    · cases h
      exact ⟨hhigh, Or.inr rfl⟩
  · next hlow hhigh =>
    cases h
    exact ⟨hlow, Or.inl rfl⟩
  · next hlow hhigh =>
    cases h
    exact ⟨hhigh, Or.inr rfl⟩
  · cases h

/-- A grid has no candidate when neither of its two neighbours reads back. -/
theorem candidate_eq_none {r : Nat} {k : Int} (h : candidate r k = none) :
    readsBack r (gridFloor r k) = false ∧ readsBack r (gridNext r k) = false := by
  simp only [candidate] at h
  split at h
  · cases h
  · cases h
  · cases h
  · next hlow hhigh => exact ⟨hlow, hhigh⟩

/-- A decimal with seventeen digits can always be found. -/
theorem candidate_seventeen_ne_none {r : Nat} (hpos : 0 < r) (hr : r < limit) :
    candidate r (leadingPlace r - 17) ≠ none := by
  obtain ⟨hplace, hplace'⟩ := leadingPlace_bounds hpos hr
  obtain ⟨hle, hlt⟩ := gridFloor_bounds r (leadingPlace r - 17)
  -- the first of the seventeen digits is not a zero
  have hfine : 10 ^ 16 * step (leadingPlace r - 17) ≤ point r := by
    have hstep := step_natCast_add 16 (leadingPlace r - 17)
    rw [show ((16 : Nat) : Int) + (leadingPlace r - 17) = leadingPlace r - 1 by omega, Nat.cast_pow,
      Nat.cast_ofNat] at hstep
    exact hstep ▸ (leadingPlace_spec hpos).1
  have hcoefficient : 0 < (gridFloor r (leadingPlace r - 17)).coefficient := by
    rw [Nat.pos_iff_ne_zero]
    intro hzero
    rw [gridFloor_value, hzero, Nat.cast_zero, zero_mul, zero_add] at hlt
    linarith [step_pos (leadingPlace r - 17)]
  have hfloor : (gridFloor r (leadingPlace r - 17)).InRange :=
    ⟨hcoefficient, by simp only [gridFloor]; omega, by simp only [gridFloor]; omega⟩
  have hnext : (gridNext r (leadingPlace r - 17)).InRange :=
    ⟨Nat.succ_pos _, hfloor.low, hfloor.high⟩
  intro hnone
  obtain ⟨hlow, hhigh⟩ := candidate_eq_none hnone
  rcases rounds_or_rounds (step_pos _) hfine hle hlt with h | h
  · rw [readsBack_of_rounds hr hfloor h] at hlow
    cases hlow
  · rw [← gridNext_value] at h
    rw [readsBack_of_rounds hr hnext h] at hhigh
    cases hhigh

/-- **The shortest decimal is the first candidate**: with fewer digits there is none. -/
theorem shortest_first {r : Nat} (hpos : 0 < r) (hr : r < limit) :
    ∃ n : Nat, 0 < n ∧ n ≤ 17 ∧ candidate r (leadingPlace r - n) = some (shortest r) ∧
      ∀ m : Nat, 0 < m → m < n → candidate r (leadingPlace r - m) = none := by
  simp only [shortest]
  cases hfind : (List.range' 1 17).findSome? fun n : Nat => candidate r (leadingPlace r - n) with
  | none =>
    -- the search ends with a candidate, at the latest with seventeen digits
    have hnone := List.findSome?_eq_none_iff.1 hfind 17 (by decide)
    exact absurd hnone (candidate_seventeen_ne_none hpos hr)
  | some d =>
    obtain ⟨before, n, after, hrange, hcandidate, hbefore⟩ := List.findSome?_eq_some_iff.1 hfind
    have hmem {m : Nat} : m ∈ before ++ n :: after ↔ 1 ≤ m ∧ m < 1 + 17 := by
      rw [← hrange, List.mem_range'_1]
    have hn := hmem.1 (List.mem_append_right _ List.mem_cons_self)
    refine ⟨n, by omega, by omega, hcandidate, fun m hm hmn => ?_⟩
    -- the numbers come in order, so the smaller ones were tried before
    have horder : (before ++ n :: after).Pairwise (· < ·) := hrange ▸ List.pairwise_lt_range'
    obtain ⟨-, hafter, -⟩ := List.pairwise_append.1 horder
    rcases List.mem_append.1 (hmem.2 ⟨hm, by omega⟩) with h | h
    · exact hbefore m h
    rcases List.mem_cons.1 h with rfl | h
    · exact absurd hmn (Nat.lt_irrefl m)
    · have hlt := List.rel_of_pairwise_cons hafter h
      omega

/-- **The shortest decimal reads back**, and rounding decides its reading. -/
theorem shortest_spec {r : Nat} (hpos : 0 < r) (hr : r < limit) :
    readsBack r (shortest r) = true ∧ (shortest r).InRange := by
  obtain ⟨hplace, hplace'⟩ := leadingPlace_bounds hpos hr
  obtain ⟨n, hn, hn', hcandidate, -⟩ := shortest_first hpos hr
  obtain ⟨hback, hgrid⟩ := candidate_eq_some hcandidate
  have hscale : (shortest r).scale = leadingPlace r - n := by
    rcases hgrid with h | h <;> rw [h] <;> rfl
  refine ⟨hback, coefficient_pos_of_readsBack hpos hback, ?_, ?_⟩ <;> omega

end Double

end LiveSheet
