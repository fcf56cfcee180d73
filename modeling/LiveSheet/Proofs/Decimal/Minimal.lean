import LiveSheet.Proofs.Cell.Retyping
import LiveSheet.Proofs.Decimal.Reading
import LiveSheet.Proofs.Decimal.Significant

namespace LiveSheet

/-!
# No shorter numeral reads back

A decimal with `n` significant digits lies on the grid with `n` digits at the double's place, or it
is so small that a power of ten on this grid lies between it and the double.  If it reads back, so
does the grid's neighbour of the double on the same side, because what lies between two numbers that
read back reads back.  So the search would have found this neighbour.

* `Double.exists_candidate` — if any point of a grid reads back, there is a candidate, and no
  farther away.
* `Double.exists_on_grid` — a decimal that reads back gives such a point.
* `Double.shortest_minimal` — no decimal with fewer significant digits reads back, and of those with
  as many none is nearer.
* `Double.text_shortest` — what this says about the text of a number.
-/

namespace Double

variable {r : Nat} {k : Int}

/-! ### Candidates -/

/-- The lower neighbour on a grid is the nearer one below the half-way point. -/
theorem nearerToFloor_iff (r : Nat) (k : Int) : nearerToFloor r k = true ↔
    (point r : ℚ) <
      ((gridFloor r k).value * unitsPerOne + (gridNext r k).value * unitsPerOne) / 2 := by
  have hden := scaledRatio_snd_pos r k
  have hstep := step_pos k
  -- in steps of the grid, the double is what is left over above its lower neighbour
  have hsplit := natCast_div_eq (scaledRatio r k).1 hden
  rw [scaledRatio_eq] at hsplit
  change point r / step k = _ at hsplit
  rw [div_eq_iff hstep.ne', add_mul] at hsplit
  have hfloor : (point r : ℚ) = (gridFloor r k).value * unitsPerOne +
      ((scaledRatio r k).1 % (scaledRatio r k).2 : Nat) / (scaledRatio r k).2 * step k := by
    rw [gridFloor_value]
    exact hsplit
  rw [nearerToFloor, decide_eq_true_eq, ← natCast_mod_div_lt_iff _ hden, gridNext_value, hfloor,
    ← mul_lt_mul_iff_left₀ hstep]
  constructor <;> intro h <;> linarith

/-- Of the neighbours on a grid that read back, the candidate is the nearest one. -/
theorem exists_candidate_of_readsBack {e : Decimal} (he : readsBack r e = true)
    (hgrid : e = gridFloor r k ∨ e = gridNext r k) :
    ∃ d, candidate r k = some d ∧
      |point r - d.value * unitsPerOne| ≤ |point r - e.value * unitsPerOne| := by
  have hlt : (gridFloor r k).value * unitsPerOne < (gridNext r k).value * unitsPerOne := by
    rw [gridNext_value]
    exact lt_add_of_pos_right _ (step_pos k)
  simp only [candidate]
  cases hlow : readsBack r (gridFloor r k) with
  | false =>
    obtain rfl : e = gridNext r k := by
      refine hgrid.resolve_left ?_
      rintro rfl
      rw [hlow] at he
      cases he
    rw [he]
    exact ⟨_, rfl, le_rfl⟩
  | true =>
    cases hhigh : readsBack r (gridNext r k) with
    | false =>
      obtain rfl : e = gridFloor r k := by
        refine hgrid.resolve_right ?_
        rintro rfl
        rw [hhigh] at he
        cases he
      exact ⟨_, rfl, le_rfl⟩
    | true =>
      -- both neighbours read back, and the nearer one is taken
      refine ⟨_, rfl, ?_⟩
      have hmid := nearerToFloor_iff r k
      cases hnearer : nearerToFloor r k with
      | true =>
        rcases hgrid with rfl | rfl
        · exact le_rfl
        · exact (abs_sub_le_abs_sub_iff hlt).2 (hmid.1 hnearer).le
      | false =>
        rw [hnearer, Bool.false_eq_true, false_iff, not_lt] at hmid
        rcases hgrid with rfl | rfl
        · exact (abs_sub_le_abs_sub_iff' hlt).2 hmid
        · exact le_rfl

/-- **If any point of a grid reads back, there is a candidate on the grid**, and it is no farther
    from the double. -/
theorem exists_candidate {m : Nat} (hr : r < limit) (h : IsNearest r (m * step k)) :
    ∃ d, candidate r k = some d ∧ |point r - d.value * unitsPerOne| ≤ |point r - m * step k| := by
  obtain ⟨hfloor, hnext⟩ := gridFloor_bounds r k
  rw [← gridNext_value] at hnext
  have hstep := (step_pos k).le
  rcases Nat.lt_or_ge (gridFloor r k).coefficient m with hlt | hle
  · -- the point is not below the upper neighbour
    have hvalue : (gridNext r k).value * unitsPerOne ≤ m * step k := by
      have hcast : ((gridFloor r k).coefficient + 1 : ℚ) ≤ m := by exact_mod_cast hlt
      rw [gridNext_value, gridFloor_value, ← add_one_mul]
      exact mul_le_mul_of_nonneg_right hcast hstep
    have hback := (readsBack_iff_isNearest hr).2 ((isNearest_point r).between h hnext.le hvalue)
    obtain ⟨d, hd, hdistance⟩ := exists_candidate_of_readsBack hback (Or.inr rfl)
    refine ⟨d, hd, hdistance.trans ?_⟩
    rw [abs_sub_comm, abs_sub_comm _ (m * step k), abs_of_nonneg (by linarith),
      abs_of_nonneg (by linarith)]
    linarith
  · -- the point is not above the lower neighbour
    have hvalue : m * step k ≤ (gridFloor r k).value * unitsPerOne := by
      rw [gridFloor_value]
      exact mul_le_mul_of_nonneg_right (by exact_mod_cast hle) hstep
    have hback := (readsBack_iff_isNearest hr).2 (h.between (isNearest_point r) hvalue hfloor)
    obtain ⟨d, hd, hdistance⟩ := exists_candidate_of_readsBack hback (Or.inl rfl)
    refine ⟨d, hd, hdistance.trans ?_⟩
    rw [abs_of_nonneg (by linarith), abs_of_nonneg (by linarith)]
    linarith

/-! ### Decimals with few digits -/

/-- **A decimal with `n` digits that reads back gives a point on the grid with `n` digits** that
    does, and is no farther from the double. -/
theorem exists_on_grid {c n : Nat} (hpos : 0 < r) (h : IsNearest r (c * step k)) (hc : c < 10 ^ n) :
    0 < n ∧ ∃ m : Nat, IsNearest r (m * step (leadingPlace r - n)) ∧
      |point r - m * step (leadingPlace r - n)| ≤ |point r - c * step k| := by
  obtain ⟨hlow, -⟩ := leadingPlace_spec hpos
  have hn : 0 < n := by
    rw [Nat.pos_iff_ne_zero]
    rintro rfl
    -- without a digit the decimal is zero
    have hzero : c = 0 := by omega
    rw [hzero, Nat.cast_zero, zero_mul] at h
    exact hpos.ne' (eq_zero_of_isNearest h (by norm_num))
  refine ⟨hn, ?_⟩
  rcases lt_or_ge (c * step k) (step (leadingPlace r - 1)) with hsmall | hlarge
  · -- the power of ten at the double's first digit lies between the decimal and the double
    have hpower : step (leadingPlace r - 1) = (10 ^ (n - 1) : Nat) * step (leadingPlace r - n) := by
      rw [← step_natCast_add]
      congr 1
      omega
    refine ⟨10 ^ (n - 1), ?_⟩
    rw [← hpower]
    refine ⟨h.between (isNearest_point r) hsmall.le hlow, ?_⟩
    rw [abs_of_nonneg (by linarith), abs_of_nonneg (by linarith)]
    linarith
  · -- the decimal is a whole number of steps
    have hscale : leadingPlace r - 1 < n + k := by
      rw [← step_lt_step_iff, step_natCast_add]
      exact hlarge.trans_lt (mul_lt_mul_of_pos_right (by exact_mod_cast hc) (step_pos k))
    obtain ⟨j, hj⟩ := Int.le.dest (show leadingPlace r - n ≤ k by omega)
    refine ⟨c * 10 ^ j, ?_⟩
    have hsame : ((c * 10 ^ j : Nat) : ℚ) * step (leadingPlace r - n) = c * step k := by
      rw [← hj, add_comm _ (j : Int), step_natCast_add, Nat.cast_mul, mul_assoc]
    rw [hsame]
    exact ⟨h, le_rfl⟩

/-- A candidate on the grid with `n` digits has at most `n` digits. -/
theorem coefficient_le_of_candidate {n : Nat} {d : Decimal} (hpos : 0 < r)
    (h : candidate r (leadingPlace r - n) = some d) : d.coefficient ≤ 10 ^ n := by
  have hlt : (gridFloor r (leadingPlace r - n)).coefficient < 10 ^ n := by
    have hfloor := (gridFloor_bounds r (leadingPlace r - n)).1.trans_lt (leadingPlace_spec hpos).2
    have hplace := step_natCast_add n (leadingPlace r - n)
    rw [add_sub_cancel] at hplace
    rw [gridFloor_value, hplace, mul_lt_mul_iff_left₀ (step_pos _)] at hfloor
    exact_mod_cast hfloor
  rcases (candidate_eq_some h).2 with rfl | rfl
  · exact hlt.le
  · exact hlt

/-- **No decimal with fewer significant digits reads back** as a double than its shortest one, and
    none with as many is nearer to it. -/
theorem shortest_minimal {c n : Nat} (hpos : 0 < r) (hr : r < limit)
    (h : IsNearest r (c * step k)) (hc : c < 10 ^ n) :
    (shortest r).digits.length ≤ n ∧ (n = (shortest r).digits.length →
      |point r - (shortest r).value * unitsPerOne| ≤ |point r - c * step k|) := by
  obtain ⟨first, hfirst, -, hcandidate, hnone⟩ := shortest_first hpos hr
  have hlength := Decimal.length_digits_le hfirst (coefficient_le_of_candidate hpos hcandidate)
  constructor
  · obtain ⟨hn, m, hm, -⟩ := exists_on_grid hpos h hc
    obtain ⟨d, hd, -⟩ := exists_candidate hr hm
    by_contra hlt
    rw [hnone n hn (by omega)] at hd
    cases hd
  · rintro rfl
    -- the shortest decimal is the candidate on a grid that has all decimals with as many digits
    obtain ⟨-, m, hm, hdistance⟩ := exists_on_grid hpos h
      (hc.trans_le (Nat.pow_le_pow_right (by decide) hlength))
    obtain ⟨d, hd, hdistance'⟩ := exists_candidate hr hm
    rw [hcandidate, Option.some.injEq] at hd
    rw [hd]
    exact hdistance'.trans hdistance

/-! ### The text of a number -/

/-- A numeral that reads back has at least as many significant digits as the printed one. -/
theorem significant_minimal {r : Fin limit} {negative : Bool} {cs : List Char} {m : Numeral}
    (hpos : 0 < r.val) (hscan : Numeral.scan (splitSign cs).2 = some (m, []))
    (hread : read cs = some (.finite negative r)) :
    (shortest r).digits.length ≤ m.significant.length ∧
      (m.significant.length = (shortest r).digits.length →
        |point r - (shortest r).value * unitsPerOne| ≤
          |point r - m.decimal.value * unitsPerOne|) := by
  obtain ⟨c, k, hvalue, hlt⟩ := Numeral.exists_value_eq (Numeral.areDigits_of_scan hscan)
  have hnearest := isNearest_of_read hscan hread
  rw [hvalue, mul_assoc] at hnearest ⊢
  exact shortest_minimal hpos r.isLt hnearest hlt

/-- Different doubles that are not zero have different texts. -/
theorem eq_of_text_eq {negative negative' : Bool} {r r' : Fin limit} (hpos : 0 < r.val)
    (h : text (.finite negative' r') = text (.finite negative r)) :
    negative' = negative ∧ r' = r := by
  have hread := read_chars negative' r'
  rw [String.ofList_inj.1 h, read_chars, Option.some.injEq, Double.finite.injEq] at hread
  obtain ⟨hsign, rfl⟩ := hread
  have hne : (r.val != 0) = true := bne_iff_ne.2 hpos.ne'
  rw [hne, Bool.and_true, Bool.and_true] at hsign
  exact ⟨hsign.symm, rfl⟩

/-- **The text of a number is the shortest that reads back to the same double.**
    * A numeral is read as the double nearest to its value, of two the even one, with its sign.
    * Both zeros are written `0`.
    * Any other finite double is written as an optional minus sign and a numeral without exponent
      and superfluous zeros.  This is read as the double again, also when it is typed into a cell,
      so different doubles have different texts.  No numeral with fewer significant digits is read
      as the double, and of those with as many none is nearer to it. -/
theorem text_shortest :
    (∀ (cs : List Char) (m : Numeral), Numeral.scan (splitSign cs).2 = some (m, []) →
      ∃ v, read cs = some v ∧ IsReading (splitSign cs).1 (m.decimal.value * unitsPerOne) v) ∧
    ∀ (negative : Bool) (r : Fin limit),
      (r.val = 0 → text (.finite negative r) = "0") ∧
      (0 < r.val → ∃ n : Numeral, n.IsTidy ∧
        (text (.finite negative r)).toList = (if negative then ['-'] else []) ++ n.spelling ∧
        IsNearest r (n.decimal.value * unitsPerOne) ∧
        read (text (.finite negative r)).toList = some (.finite negative r) ∧
        Contents.ofInput (text (.finite negative r)) = .ok (some (.number (.finite negative r))) ∧
        (∀ (negative' : Bool) (r' : Fin limit),
          text (.finite negative' r') = text (.finite negative r) → negative' = negative ∧ r' = r) ∧
        ∀ (cs : List Char) (m : Numeral), Numeral.scan (splitSign cs).2 = some (m, []) →
          read cs = some (.finite negative r) →
          n.significant.length ≤ m.significant.length ∧
          (m.significant.length = n.significant.length →
            |point r - n.decimal.value * unitsPerOne| ≤
              |point r - m.decimal.value * unitsPerOne|)) := by
  refine ⟨fun cs m => exists_isReading_of_scan, fun negative r => ⟨fun hzero => ?_, fun hpos => ?_⟩⟩
  · rw [text, chars, if_pos hzero]
  · -- all of it is about the shortest decimal that the search finds
    obtain ⟨hback, hrange⟩ := shortest_spec hpos r.isLt
    have hne : (r.val != 0) = true := bne_iff_ne.2 hpos.ne'
    have hunsign : unsignZero (.finite negative r) = .finite negative r := by
      rw [unsignZero, hne, Bool.and_true]
    refine ⟨(shortest r).numeral, Decimal.isTidy_numeral hrange.pos, ?_, ?_, ?_, ?_,
      fun negative' r' => eq_of_text_eq hpos, fun cs m hscan hread => ?_⟩
    · rw [text, String.toList_ofList, chars, if_neg hpos.ne', Decimal.spelling_numeral]
    · rw [Decimal.value_numeral]
      exact (readsBack_iff_isNearest r.isLt).1 hback
    · rw [text, String.toList_ofList, read_chars, hne, Bool.and_true]
    · rw [Contents.ofInput_number rfl, hunsign]
    · rw [Decimal.significant_numeral hrange.pos, Decimal.value_numeral]
      exact significant_minimal hpos hscan hread

end Double

end LiveSheet
