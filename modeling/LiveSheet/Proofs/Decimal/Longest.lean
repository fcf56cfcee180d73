import LiveSheet.Proofs.Decimal.Spelling

namespace LiveSheet

/-!
# The longest numeral of a text

Of the prefixes of a text that have the form of a numeral, the longest is scanned.  What could go on
after a shorter one is part of it: digits end only where a point or an exponent part begins, and an
exponent part is left only where it has no digits.

* `IsLongest` — the longest of the prefixes of a text that are of some kind.
* `FindsLongest` — a scanner finds it, if there is one.
* `IsNumeralText` — the form of numerals.
* `Numeral.findsLongest_scan` — the longest numeral is scanned.
-/

/-! ### The longest prefix -/

/-- The longest of the prefixes of a text that are of a kind. -/
structure IsLongest (P : List Char → Prop) (found cs : List Char) : Prop where
  initial : found <+: cs
  kind : P found
  longest : ∀ other, other <+: cs → P other → other.length ≤ found.length

/-- A scanner that finds the longest prefix of a kind, with what follows it, if there is one. -/
structure FindsLongest (P : List Char → Prop) (cs : List Char)
    (scan : Option (List Char × List Char)) : Prop where
  sound : ∀ found rest, scan = some (found, rest) → found ++ rest = cs ∧ P found
  complete : ∀ other, other <+: cs → P other →
    ∃ found rest, scan = some (found, rest) ∧ other.length ≤ found.length

section IsLongest

variable {P : List Char → Prop} {found other rest cs : List Char}
  {scan : Option (List Char × List Char)}

/-- There is only one longest prefix. -/
theorem IsLongest.unique (h : IsLongest P found cs) (h' : IsLongest P other cs) : found = other :=
  have hpart : found <+: other :=
    List.prefix_of_prefix_length_le h.initial h'.initial (h'.longest _ h.initial h.kind)
  hpart.eq_of_length_le (h.longest _ h'.initial h'.kind)

/-- What is found is the longest prefix of the kind. -/
theorem FindsLongest.isLongest (h : FindsLongest P cs scan) (hscan : scan = some (found, rest)) :
    IsLongest P found cs where
  initial := ⟨rest, (h.sound _ _ hscan).1⟩
  kind := (h.sound _ _ hscan).2
  longest other hother hP := by
    obtain ⟨found', rest', hscan', hle⟩ := h.complete other hother hP
    rw [hscan] at hscan'
    cases hscan'
    exact hle

/-- The longest prefix of the kind is found. -/
theorem FindsLongest.eq_some (h : FindsLongest P cs scan) (hfound : IsLongest P found cs) :
    ∃ rest, scan = some (found, rest) := by
  obtain ⟨found', rest, hscan, -⟩ := h.complete found hfound.initial hfound.kind
  rw [hfound.unique (h.isLongest hscan)]
  exact ⟨rest, hscan⟩

/-- Nothing is found exactly when no prefix is of the kind. -/
theorem FindsLongest.eq_none_iff (h : FindsLongest P cs scan) :
    scan = none ↔ ∀ other, other <+: cs → ¬ P other := by
  constructor
  · intro hnone other hother hP
    obtain ⟨found, rest, hscan, -⟩ := h.complete other hother hP
    rw [hnone] at hscan
    cases hscan
  · intro hnot
    cases hscan : scan with
    | none => rfl
    | some result => exact absurd (h.isLongest hscan).kind (hnot _ (h.isLongest hscan).initial)

end IsLongest

/-! ### Numerals -/

/-- ASCII digits only. -/
def AreDigits (cs : List Char) : Prop := ∀ c ∈ cs, c.isDigit = true

/-- The digits that a text starts with are digits. -/
theorem areDigits_leadingDigits (cs : List Char) : AreDigits (leadingDigits cs) :=
  List.all_eq_true.1 List.all_takeWhile

/-- Digits with an optional point, at least one digit before or after it. -/
inductive IsMantissa : List Char → Prop where
  | wholePoint {whole fraction : List Char} : whole ≠ [] → AreDigits whole → AreDigits fraction →
      IsMantissa (whole ++ '.' :: fraction)
  | pointFraction {whole fraction : List Char} : fraction ≠ [] → AreDigits whole →
      AreDigits fraction → IsMantissa (whole ++ '.' :: fraction)
  | whole {whole : List Char} : whole ≠ [] → AreDigits whole → IsMantissa whole

/-- An exponent mark, an optional sign and digits, at least one; or nothing. -/
inductive IsExponentPart : List Char → Prop where
  | absent : IsExponentPart []
  | present {mark : Char} {sign : Option Char} {digits : List Char} : mark = 'e' ∨ mark = 'E' →
      (∀ c ∈ sign, c = '+' ∨ c = '-') → digits ≠ [] → AreDigits digits →
      IsExponentPart (mark :: (sign.toList ++ digits))

/-- The texts of numerals. -/
def IsNumeralText (cs : List Char) : Prop :=
  ∃ mantissa exponent, cs = mantissa ++ exponent ∧ IsMantissa mantissa ∧ IsExponentPart exponent

namespace Exponent

/-- What is scanned as an exponent part is one. -/
theorem isExponentPart_scan (cs : List Char) : IsExponentPart (spelling (scan cs).1) := by
  cases cs with
  | nil => exact .absent
  | cons c rest =>
    by_cases hc : c = 'e' ∨ c = 'E'
    · -- a mark without digits behind it is none
      cases hd : leadingDigits (scanSign rest).2 with
      | nil =>
        simp only [scan, hc, if_true, hd]
        exact .absent
      | cons d ds =>
        simp only [scan, hc, if_true, hd]
        refine .present hc ?_ (List.cons_ne_nil d ds) (hd ▸ areDigits_leadingDigits _)
        unfold scanSign
        split
        · rintro c ⟨⟩
          exact Or.inl rfl
        · rintro c ⟨⟩
          exact Or.inr rfl
        · rintro c ⟨⟩
    · simp only [scan, hc, if_false]
      exact .absent

/-- An exponent part that is not empty ends the digits before it, and is no point. -/
theorem cons_of_isExponentPart {part : List Char} (h : IsExponentPart part) :
    part = [] ∨ ∃ c cs, part = c :: cs ∧ c.isDigit = false ∧ c ≠ '.' := by
  cases h with
  | absent => exact Or.inl rfl
  | present hmark =>
    refine Or.inr ⟨_, _, rfl, ?_⟩
    rcases hmark with rfl | rfl <;> decide

/-- Every exponent part at the start of a text is part of the one that is scanned. -/
theorem length_le_scan {part : List Char} (h : IsExponentPart part) (rest : List Char) :
    part.length ≤ (spelling (scan (part ++ rest)).1).length := by
  cases h with
  | absent => exact Nat.zero_le _
  | @present mark sign digits hmark hsign hne hdigits =>
    obtain ⟨d, ds, rfl⟩ := List.exists_cons_of_ne_nil hne
    have hscanSign : scanSign (sign.toList ++ (d :: ds ++ rest)) = (sign, d :: ds ++ rest) := by
      cases sign with
      | none =>
        -- the first digit is no sign
        have hd : d.isDigit = true := hdigits d List.mem_cons_self
        unfold scanSign
        split
        · next heq => cases heq; cases hd
        · next heq => cases heq; cases hd
        · rfl
      | some c => rcases hsign c rfl with rfl | rfl <;> rfl
    have hleading : leadingDigits (d :: ds ++ rest) = d :: (ds ++ leadingDigits rest) :=
      List.takeWhile_append_of_pos hdigits
    have hscan : (scan (mark :: (sign.toList ++ (d :: ds)) ++ rest)).1
        = some ⟨mark, sign, d :: (ds ++ leadingDigits rest)⟩ := by
      rw [List.cons_append, List.append_assoc]
      simp only [scan, hmark, if_true, hscanSign, hleading]
    rw [hscan]
    simp only [spelling, List.length_cons, List.length_append]
    omega

end Exponent

namespace Numeral

/-- Digits around a point are a mantissa if there are any. -/
theorem isMantissa_point {whole fraction : List Char} (h : ¬ (whole = [] ∧ fraction = []))
    (hwhole : AreDigits whole) (hfraction : AreDigits fraction) :
    IsMantissa (whole ++ '.' :: fraction) := by
  by_cases hne : whole = []
  · exact .pointFraction (fun hnil => h ⟨hne, hnil⟩) hwhole hfraction
  · exact .wholePoint hne hwhole hfraction

/-- What is scanned after the digits of a whole part makes a mantissa of them, if there is any. -/
theorem isMantissa_scanFraction {whole : List Char} (hwhole : AreDigits whole) (cs : List Char)
    (h : ¬ (whole = [] ∧ (scanFraction whole cs).1 = none)) :
    IsMantissa (whole ++ fractionSpelling (scanFraction whole cs).1) := by
  unfold scanFraction at h ⊢
  split at h
  · next rest =>
    by_cases hnone : whole = [] ∧ leadingDigits rest = []
    · simp only [hnone, and_self, if_true, not_true_eq_false] at h
    · simp only [hnone, if_false, fractionSpelling]
      exact isMantissa_point hnone hwhole (areDigits_leadingDigits rest)
  · simp only [and_true] at h
    simp only [fractionSpelling, List.append_nil]
    exact .whole h hwhole

/-- What is scanned has the form of a numeral. -/
theorem isNumeralText_of_scan {cs rest : List Char} {n : Numeral} (h : scan cs = some (n, rest)) :
    IsNumeralText n.spelling := by
  simp only [scan] at h
  split at h
  · cases h
  · next hne =>
    cases h
    exact ⟨_, _, rfl, isMantissa_scanFraction (areDigits_leadingDigits cs) _ hne,
      Exponent.isExponentPart_scan _⟩

/-- Digits and a point are scanned with all digits after the point. -/
theorem scan_point {whole rest : List Char} (hwhole : AreDigits whole)
    (h : ¬ (whole = [] ∧ leadingDigits rest = [])) : scan (whole ++ '.' :: rest) =
      some (⟨whole, some (leadingDigits rest), (Exponent.scan (afterDigits rest)).1⟩,
        (Exponent.scan (afterDigits rest)).2) := by
  have hpoint : ∀ c ∈ ('.' :: rest).head?, c.isDigit = false := by
    rintro c ⟨⟩
    rfl
  have htake : leadingDigits (whole ++ '.' :: rest) = whole := takeWhile_run_append hwhole hpoint
  have hdrop : afterDigits (whole ++ '.' :: rest) = '.' :: rest :=
    dropWhile_run_append hwhole hpoint
  simp only [scan, htake, hdrop, scanFraction, h, if_false, reduceCtorEq, and_false]

/-- Digits are scanned up to what can neither continue them nor be a point. -/
theorem scan_whole {whole rest : List Char} (hne : whole ≠ []) (hwhole : AreDigits whole)
    (hrest : ∀ c ∈ rest.head?, c.isDigit = false ∧ c ≠ '.') : scan (whole ++ rest) =
      some (⟨whole, none, (Exponent.scan rest).1⟩, (Exponent.scan rest).2) := by
  have hdigit : ∀ c ∈ rest.head?, c.isDigit = false := fun c hc => (hrest c hc).1
  have htake : leadingDigits (whole ++ rest) = whole := takeWhile_run_append hwhole hdigit
  have hdrop : afterDigits (whole ++ rest) = rest := dropWhile_run_append hwhole hdigit
  have hnone : scanFraction whole rest = (none, rest) := by
    unfold scanFraction
    split
    · exact absurd rfl (hrest '.' rfl).2
    · rfl
  simp only [scan, htake, hdrop, hnone, hne, false_and, if_false]

/-- Digits at the start of a text belong to the numeral that is scanned. -/
theorem exists_scan_of_digits {whole rest : List Char} (hne : whole ≠ [])
    (hwhole : AreDigits whole) :
    ∃ n left, scan (whole ++ rest) = some (n, left) ∧ whole.length ≤ n.spelling.length := by
  have htake : leadingDigits (whole ++ rest) = whole ++ leadingDigits rest :=
    List.takeWhile_append_of_pos hwhole
  have hsome : ¬ (whole ++ leadingDigits rest = [] ∧
      (scanFraction (whole ++ leadingDigits rest) (afterDigits (whole ++ rest))).1 = none) :=
    fun hnil => hne (List.append_eq_nil_iff.1 hnil.1).1
  simp only [scan, htake, hsome, if_false]
  refine ⟨_, _, rfl, ?_⟩
  simp only [spelling, List.length_append]
  omega

section Complete

variable {whole fraction part : List Char} (hwhole : AreDigits whole)
  (hpart : IsExponentPart part) (rest : List Char)

include hwhole hpart

/-- A numeral with a point at the start of a text is part of the one that is scanned. -/
theorem exists_scan_of_point (h : ¬ (whole = [] ∧ fraction = [])) (hfraction : AreDigits fraction) :
    ∃ n left, scan (whole ++ '.' :: (fraction ++ (part ++ rest))) = some (n, left) ∧
      (whole ++ '.' :: fraction ++ part).length ≤ n.spelling.length := by
  have hleading : leadingDigits (fraction ++ (part ++ rest))
      = fraction ++ leadingDigits (part ++ rest) := List.takeWhile_append_of_pos hfraction
  have hafter : afterDigits (fraction ++ (part ++ rest)) = afterDigits (part ++ rest) :=
    List.dropWhile_append_of_pos hfraction
  have hsome : ¬ (whole = [] ∧ leadingDigits (fraction ++ (part ++ rest)) = []) := fun hnil =>
    h ⟨hnil.1, (List.append_eq_nil_iff.1 (hleading ▸ hnil.2)).1⟩
  refine ⟨_, _, scan_point hwhole hsome, ?_⟩
  rw [hleading, hafter]
  rcases Exponent.cons_of_isExponentPart hpart with rfl | ⟨c, cs, rfl, hc, -⟩
  · simp only [spelling, fractionSpelling, List.length_append, List.length_cons, List.length_nil]
    omega
  · -- the fraction ends where the exponent part begins
    have hexponent := Exponent.length_le_scan hpart rest
    have hend : afterDigits (c :: cs ++ rest) = c :: cs ++ rest :=
      List.dropWhile_cons_of_neg (by simp [hc])
    rw [hend]
    simp only [spelling, fractionSpelling, List.length_append, List.length_cons] at hexponent ⊢
    omega

/-- A numeral without a point at the start of a text is part of the one that is scanned. -/
theorem exists_scan_of_whole (h : whole ≠ []) :
    ∃ n left, scan (whole ++ (part ++ rest)) = some (n, left) ∧
      (whole ++ part).length ≤ n.spelling.length := by
  rcases Exponent.cons_of_isExponentPart hpart with rfl | ⟨c, cs, rfl, hc, hne⟩
  · rw [List.append_nil]
    exact exists_scan_of_digits h hwhole
  · -- the whole part ends where the exponent part begins, and there is no point
    have hrest : ∀ d ∈ (c :: cs ++ rest).head?, d.isDigit = false ∧ d ≠ '.' := by
      rintro d ⟨⟩
      exact ⟨hc, hne⟩
    have hexponent := Exponent.length_le_scan hpart rest
    refine ⟨_, _, scan_whole h hwhole hrest, ?_⟩
    simp only [spelling, fractionSpelling, List.length_append, List.length_nil] at hexponent ⊢
    omega

end Complete

/-- **The longest numeral is scanned.** -/
theorem findsLongest_scan (cs : List Char) :
    FindsLongest IsNumeralText cs ((scan cs).map fun found => (found.1.spelling, found.2)) where
  sound found rest h := by
    obtain ⟨⟨n, left⟩, hscan, heq⟩ := Option.map_eq_some_iff.1 h
    cases heq
    exact ⟨spelling_append_of_scan hscan, isNumeralText_of_scan hscan⟩
  complete other hother hnumeral := by
    obtain ⟨mantissa, part, rfl, hmantissa, hpart⟩ := hnumeral
    obtain ⟨rest, rfl⟩ := hother
    -- the scanner goes at least as far as any numeral at the start, with or without a point
    have hscan : ∃ n left, scan (mantissa ++ part ++ rest) = some (n, left) ∧
        (mantissa ++ part).length ≤ n.spelling.length := by
      cases hmantissa with
      | wholePoint hne hwhole hfraction =>
        have h := exists_scan_of_point hwhole hpart rest (fun hnil => hne hnil.1) hfraction
        simpa only [List.append_assoc, List.cons_append] using h
      | pointFraction hne hwhole hfraction =>
        have h := exists_scan_of_point hwhole hpart rest (fun hnil => hne hnil.2) hfraction
        simpa only [List.append_assoc, List.cons_append] using h
      | whole hne hwhole =>
        rw [List.append_assoc]
        exact exists_scan_of_whole hwhole hpart rest hne
    obtain ⟨n, left, hn, hle⟩ := hscan
    exact ⟨n.spelling, left, by rw [hn]; rfl, hle⟩

end Numeral

end LiveSheet
