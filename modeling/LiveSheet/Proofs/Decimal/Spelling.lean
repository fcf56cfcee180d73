import LiveSheet.Decimal.Positional
import LiveSheet.Proofs.Decimal.Shortest
import Mathlib.Data.List.TakeWhile

namespace LiveSheet

/-!
# Numbers are read back from their text

A positional text is the spelling of a numeral of the same value, and a numeral is cut off a text at
the first character that cannot belong to it.  With `Double.shortest_spec`, the text of a double is
read as the double.

* `Numeral.IsPlain` — a numeral with a whole part and no exponent.
* `Numeral.scan_spelling` — it is scanned from its spelling, whatever stands behind it.
* `Decimal.numeral` — the numeral that the positional text of a decimal spells.
* `Double.read_chars` — the text of a finite double is read as the double, but for the sign of zero.
-/

/-! ### Runs of characters -/

section Runs

variable {p : Char → Bool} {run rest : List Char} (hrun : ∀ c ∈ run, p c = true)
  (hrest : ∀ c ∈ rest.head?, p c = false)

include hrun hrest

/-- A run ends where a character of another kind follows. -/
theorem takeWhile_run_append : (run ++ rest).takeWhile p = run := by
  rw [List.takeWhile_append_of_pos hrun]
  cases rest with
  | nil => rw [List.takeWhile_nil, List.append_nil]
  | cons c cs =>
    rw [List.takeWhile_cons_of_neg (by simp [hrest c rfl]), List.append_nil]

/-- What follows a run is left. -/
theorem dropWhile_run_append : (run ++ rest).dropWhile p = rest := by
  rw [List.dropWhile_append_of_pos hrun]
  cases rest with
  | nil => rfl
  | cons c cs => rw [List.dropWhile_cons_of_neg (by simp [hrest c rfl])]

end Runs

namespace Numeral

/-! ### Scanning a spelling -/

/-- A numeral with a whole part and no exponent. -/
structure IsPlain (n : Numeral) : Prop where
  whole_ne_nil : n.whole ≠ []
  whole_digits : ∀ c ∈ n.whole, c.isDigit = true
  fraction_digits : ∀ ds ∈ n.fraction, ∀ c ∈ ds, c.isDigit = true
  exponent_eq : n.exponent = none

/-- Whether a numeral ends where this text follows. -/
def Stops (rest : List Char) : Prop :=
  ∀ c ∈ rest.head?, c.isDigit = false ∧ c ≠ '.' ∧ c ≠ 'e' ∧ c ≠ 'E'

/-- A numeral ends where the text ends. -/
theorem stops_nil : Stops [] := by
  intro c hc
  cases hc

/-- No exponent part is found where a numeral ends. -/
theorem exponentScan_of_stops {rest : List Char} (h : Stops rest) :
    Exponent.scan rest = (none, rest) := by
  cases rest with
  | nil => rfl
  | cons c cs =>
    obtain ⟨-, -, he, hE⟩ := h c rfl
    rw [Exponent.scan, if_neg (by simp [he, hE])]

/-- No fraction is found where a numeral ends. -/
theorem scanFraction_of_stops {rest : List Char} (whole : List Char) (h : Stops rest) :
    scanFraction whole rest = (none, rest) := by
  unfold scanFraction
  split
  · exact absurd rfl (h '.' rfl).2.1
  · rfl

/-- **A plain numeral is scanned from its spelling.** -/
theorem scan_spelling {n : Numeral} {rest : List Char} (hn : n.IsPlain) (h : Stops rest) :
    scan (n.spelling ++ rest) = some (n, rest) := by
  obtain ⟨whole, fraction, exponent⟩ := n
  obtain ⟨hne, hwhole, hfraction, hexponent⟩ := hn
  dsimp only at hne hwhole hfraction hexponent
  subst hexponent
  have hrest : ∀ c ∈ rest.head?, c.isDigit = false := fun c hc => (h c hc).1
  cases fraction with
  | none =>
    -- the whole part goes up to what follows the numeral
    have htake : leadingDigits (whole ++ rest) = whole := takeWhile_run_append hwhole hrest
    have hdrop : afterDigits (whole ++ rest) = rest := dropWhile_run_append hwhole hrest
    simp only [scan, spelling, fractionSpelling, Exponent.spelling, List.append_nil, htake, hdrop,
      scanFraction_of_stops whole h, exponentScan_of_stops h, hne, false_and, if_false]
  | some ds =>
    -- the whole part goes up to the point, the fraction up to what follows
    have hds := hfraction ds rfl
    have hpoint : ∀ c ∈ ('.' :: (ds ++ rest)).head?, c.isDigit = false := by
      intro c hc
      cases hc
      rfl
    have htake : leadingDigits (whole ++ '.' :: (ds ++ rest)) = whole :=
      takeWhile_run_append hwhole hpoint
    have hdrop : afterDigits (whole ++ '.' :: (ds ++ rest)) = '.' :: (ds ++ rest) :=
      dropWhile_run_append hwhole hpoint
    have htake' : leadingDigits (ds ++ rest) = ds := takeWhile_run_append hds hrest
    have hdrop' : afterDigits (ds ++ rest) = rest := dropWhile_run_append hds hrest
    simp only [scan, spelling, fractionSpelling, Exponent.spelling, List.append_nil,
      List.append_assoc, List.cons_append, htake, hdrop, scanFraction, hne, false_and, if_false,
      htake', hdrop', exponentScan_of_stops h]

/-- The decimal that a numeral stands for. -/
def decimal (n : Numeral) : Decimal := ⟨n.coefficient, n.scale⟩

end Numeral

/-! ### Zeros at an end -/

/-- A text is what is left without the zeros at its end, and these. -/
theorem strip_append_zeros (cs : List Char) :
    (cs.reverse.dropWhile (· == '0')).reverse ++
      List.replicate (cs.reverse.takeWhile (· == '0')).length '0' = cs := by
  have hzeros : cs.reverse.takeWhile (· == '0') =
      List.replicate (cs.reverse.takeWhile (· == '0')).length '0' := by
    refine List.eq_replicate_of_mem fun c hc => ?_
    exact beq_iff_eq.1 (List.mem_takeWhile_imp (p := (· == '0')) hc)
  -- the zeros are taken off at the end, so both parts are turned around
  have hsplit := List.takeWhile_append_dropWhile (p := (· == '0')) (l := cs.reverse)
  rw [hzeros] at hsplit
  have hreverse := congrArg List.reverse hsplit
  rw [List.reverse_append, List.reverse_replicate, List.reverse_reverse] at hreverse
  exact hreverse

namespace Decimal

/-! ### The digits of a decimal -/

/-- The number of zeros at the end of the coefficient. -/
def trailing (d : Decimal) : Nat :=
  ((Nat.toDigits 10 d.coefficient).reverse.takeWhile (· == '0')).length

/-- The digits that are written, and the zeros dropped after them, are those of the coefficient. -/
theorem toDigits_eq (d : Decimal) :
    Nat.toDigits 10 d.coefficient = d.digits ++ List.replicate d.trailing '0' :=
  (strip_append_zeros _).symm

/-- What is written of a coefficient is digits. -/
theorem isDigit_of_mem_digits {d : Decimal} : ∀ c ∈ d.digits, c.isDigit = true := by
  intro c hc
  have hmem : c ∈ Nat.toDigits 10 d.coefficient := d.toDigits_eq ▸ List.mem_append_left _ hc
  exact Nat.isDigit_of_mem_toDigits (by decide) (Nat.le_refl 10) hmem

/-- The digits and the zeros after them make up the coefficient. -/
theorem coefficient_eq (d : Decimal) :
    d.coefficient = Nat.ofDigitChars 10 d.digits 0 * 10 ^ d.trailing := by
  have h := Nat.ofDigitChars_toDigits (b := 10) (n := d.coefficient) (by decide) (by decide)
  rw [toDigits_eq, Nat.ofDigitChars_append, Nat.ofDigitChars_replicate_zero] at h
  rw [← h, Nat.mul_comm]

/-- The place of the point counts the digits that are written, the zeros dropped, and the scale. -/
theorem place_eq (d : Decimal) : d.place = d.digits.length + d.trailing + d.scale := by
  rw [place, toDigits_eq, List.length_append, List.length_replicate]
  push_cast
  rfl

/-- A decimal that is not zero has digits. -/
theorem digits_ne_nil {d : Decimal} (h : 0 < d.coefficient) : d.digits ≠ [] := by
  intro hnil
  rw [coefficient_eq, hnil] at h
  simp only [Nat.ofDigitChars_nil, Nat.zero_mul] at h
  exact Nat.lt_irrefl 0 h

/-! ### The numeral of a positional text -/

/-- The numeral that the positional text of a decimal spells. -/
def numeral (d : Decimal) : Numeral :=
  if d.place ≤ 0 then ⟨['0'], some (List.replicate (-d.place).toNat '0' ++ d.digits), none⟩
  else if d.digits.length ≤ d.place.toNat then
    ⟨d.digits ++ List.replicate (d.place.toNat - d.digits.length) '0', none, none⟩
  else ⟨d.digits.take d.place.toNat, some (d.digits.drop d.place.toNat), none⟩

/-- The numeral is spelt as the positional text. -/
theorem spelling_numeral (d : Decimal) : d.numeral.spelling = d.positional := by
  unfold numeral positional
  by_cases hplace : d.place ≤ 0
  · simp only [hplace, if_true, Numeral.spelling, Numeral.fractionSpelling, Exponent.spelling,
      List.append_nil, List.cons_append, List.nil_append]
  by_cases hlen : d.digits.length ≤ d.place.toNat
  · simp only [hplace, hlen, if_true, if_false, Numeral.spelling, Numeral.fractionSpelling,
      Exponent.spelling, List.append_nil]
  · simp only [hplace, hlen, if_false, Numeral.spelling, Numeral.fractionSpelling,
      Exponent.spelling, List.append_nil]

/-- The positional text of a decimal that is not zero has a whole part and no exponent. -/
theorem isPlain_numeral {d : Decimal} (h : 0 < d.coefficient) : d.numeral.IsPlain := by
  have hzeros {n : Nat} : ∀ c ∈ List.replicate n '0', c.isDigit = true := by
    intro c hc
    rw [List.eq_of_mem_replicate hc]
    rfl
  have happend {xs ys : List Char} (hxs : ∀ c ∈ xs, c.isDigit = true)
      (hys : ∀ c ∈ ys, c.isDigit = true) : ∀ c ∈ xs ++ ys, c.isDigit = true := by
    intro c hc
    exact (List.mem_append.1 hc).elim (hxs c) (hys c)
  have hdigits : ∀ c ∈ d.digits, c.isDigit = true := isDigit_of_mem_digits
  -- the point stands before all digits, after all of them, or among them
  unfold numeral
  split
  · refine ⟨List.cons_ne_nil _ _, hzeros (n := 1), ?_, rfl⟩
    rintro ds ⟨⟩
    exact happend hzeros hdigits
  split
  · refine ⟨?_, happend hdigits hzeros, ?_, rfl⟩
    · exact List.append_ne_nil_of_left_ne_nil (digits_ne_nil h) _
    · rintro ds ⟨⟩
  · next hplace hlen =>
    refine ⟨?_, fun c hc => hdigits c (List.mem_of_mem_take hc), ?_, rfl⟩
    · rw [Ne, List.take_eq_nil_iff, not_or]
      exact ⟨by omega, digits_ne_nil h⟩
    · rintro ds ⟨⟩ c hc
      exact hdigits c (List.mem_of_mem_drop hc)

/-- The decimal without the zeros at the end of its coefficient. -/
def stripped (d : Decimal) : Decimal := ⟨Nat.ofDigitChars 10 d.digits 0, d.scale + d.trailing⟩

/-- Dropping the zeros moves them to the scale, and the value stays. -/
theorem stripped_value (d : Decimal) : d.stripped.value = d.value := by
  rw [value, value, d.coefficient_eq, stripped]
  push_cast
  rw [zpow_add₀ (by norm_num), zpow_natCast]
  ring

/-- The numeral stands for the digits at their place: the zeros before and after the digits only
    shift the point. -/
theorem decimal_numeral (d : Decimal) : d.numeral.decimal =
    if 0 < d.place ∧ d.digits.length ≤ d.place.toNat then
      ⟨10 ^ (d.place.toNat - d.digits.length) * d.stripped.coefficient, 0⟩
    else d.stripped := by
  have hplace := d.place_eq
  have hzero : Nat.ofDigitChars 10 ['0'] 0 = 0 := rfl
  unfold numeral
  split
  · next hle =>
    -- a zero, the point, more zeros and the digits
    rw [if_neg (by omega)]
    simp only [Numeral.decimal, Numeral.coefficient, Numeral.digits, Numeral.scale, stripped,
      Option.getD_some, Nat.ofDigitChars_append, Nat.ofDigitChars_replicate_zero, hzero,
      Nat.mul_zero, List.length_append, List.length_replicate, mk.injEq, true_and]
    omega
  split
  · next hle hlen =>
    -- the digits, and zeros up to the place of the point
    rw [if_pos ⟨by omega, hlen⟩]
    simp only [Numeral.decimal, Numeral.coefficient, Numeral.digits, Numeral.scale, stripped,
      Option.getD_none, List.append_nil, Nat.ofDigitChars_append, Nat.ofDigitChars_replicate_zero,
      List.length_nil, Nat.cast_zero, sub_zero]
  · next hle hlen =>
    -- the point stands among the digits
    rw [if_neg (by omega)]
    simp only [Numeral.decimal, Numeral.coefficient, Numeral.digits, Numeral.scale, stripped,
      Option.getD_some, List.take_append_drop, List.length_drop, mk.injEq, true_and]
    omega

/-- **The positional text stands for the value of the decimal.** -/
theorem value_numeral (d : Decimal) : d.numeral.decimal.value = d.value := by
  rw [decimal_numeral, ← stripped_value d]
  split
  · next h =>
    obtain ⟨hpos, hlen⟩ := h
    have hscale : d.stripped.scale = ((d.place.toNat - d.digits.length : Nat) : Int) := by
      have hplace := d.place_eq
      simp only [stripped]
      omega
    rw [value, value, hscale]
    push_cast
    rw [zpow_natCast]
    ring
  · rfl

/-- Spelling does not bring a decimal out of range. -/
theorem inRange_numeral {d : Decimal} (h : d.InRange) : d.numeral.decimal.InRange := by
  have hplace := d.place_eq
  have hlow := h.low
  have hpos : 0 < d.stripped.coefficient := by
    have hc := h.pos
    rw [coefficient_eq] at hc
    exact Nat.pos_of_mul_pos_right hc
  rw [decimal_numeral]
  split
  · exact ⟨Nat.mul_pos (Nat.pow_pos (by decide)) hpos, by norm_num, by norm_num⟩
  · next hneg =>
    refine ⟨hpos, ?_, ?_⟩ <;> simp only [stripped] <;> omega

end Decimal

namespace Double

/-! ### Reading the text of a double -/

/-- Nothing is taken off as a sign where a digit stands. -/
theorem splitSign_of_isDigit {c : Char} {cs : List Char} (h : c.isDigit = true) :
    splitSign (c :: cs) = (false, c :: cs) := by
  unfold splitSign
  split
  · next heq => cases heq; exact absurd h (by decide)
  · next heq => cases heq; exact absurd h (by decide)
  · rfl

/-- A plain numeral, with or without a sign, is read as its decimal. -/
theorem read_spelling {n : Numeral} (hn : n.IsPlain) (negative : Bool) :
    read ((if negative then ['-'] else []) ++ n.spelling) = some (ofNumeral negative n) := by
  have hscan := Numeral.scan_spelling hn Numeral.stops_nil
  rw [List.append_nil] at hscan
  have hsplit : splitSign ((if negative then ['-'] else []) ++ n.spelling) =
      (negative, n.spelling) := by
    cases negative with
    | true => rfl
    | false =>
      -- the first character is a digit, so there is no sign to split off
      obtain ⟨c, whole, hwhole⟩ := List.exists_cons_of_ne_nil hn.whole_ne_nil
      have hc : c.isDigit = true := hn.whole_digits c (hwhole ▸ List.mem_cons_self)
      simp only [Numeral.spelling, hwhole, List.cons_append]
      exact splitSign_of_isDigit hc
  unfold read
  rw [hsplit]
  simp only [hscan]

/-- The decimal of a positive double is read as the double. -/
theorem ofNumeral_shortest {r : Fin limit} (hpos : 0 < r.val) (negative : Bool) :
    ofNumeral negative (shortest r.val).numeral = .finite negative r := by
  obtain ⟨hback, hrange⟩ := shortest_spec hpos r.isLt
  have hread := ofDecimal_sign ((readsBack_iff r.isLt).1 hback) negative
  rw [← hread, ofNumeral]
  exact ofDecimal_congr (Decimal.inRange_numeral hrange) hrange (Decimal.value_numeral _) negative

/-- **The text of a finite double is read as the double**, except that both zeros are read as the
    positive one. -/
theorem read_chars (negative : Bool) (r : Fin limit) :
    read (chars (.finite negative r)) = some (.finite (negative && r.val != 0) r) := by
  by_cases hzero : r.val = 0
  · obtain rfl : r = zeroRank := Fin.ext hzero
    have hne : (zeroRank.val != 0) = false := rfl
    rw [chars, if_pos hzero, hne, Bool.and_false]
    rfl
  · have hpos : 0 < r.val := Nat.pos_of_ne_zero hzero
    have hne : (r.val != 0) = true := bne_iff_ne.2 hzero
    have hplain := Decimal.isPlain_numeral (shortest_spec hpos r.isLt).2.pos
    rw [chars, if_neg hzero, ← Decimal.spelling_numeral, read_spelling hplain,
      ofNumeral_shortest hpos, hne, Bool.and_true]

end Double

end LiveSheet
