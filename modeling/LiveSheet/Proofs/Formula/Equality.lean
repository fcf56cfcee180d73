import LiveSheet.Proofs.Formula.Canonical

namespace LiveSheet

/-!
# Equal formulas

Formulas are compared by their canonical texts, but evaluated by their tokens.  A canonical text can
be cut into the tokens of a formula in one way only, so both see the same.

* `Token.same` — tokens that mean the same, literals being compared as numbers.
* `Formula.eq_of_text_eq` — a formula is determined by its canonical text.
* `Formula.equal_iff` — formulas are equal exactly when their tokens mean the same, and then nothing
  tells them apart.
-/

/-! ### Tokens -/

/-- Whether tokens mean the same; literals are compared as numbers. -/
def Token.same : Token → Token → Bool
  | .number v, .number w => (Literal.toDouble v).equals (Literal.toDouble w)
  | t, u => t == u

/-- No literal has a sign, so literals that are equal as numbers are the same. -/
theorem Literal.equals_toDouble_iff {v w : Literal} :
    v.toDouble.equals w.toDouble = true ↔ v = w := by
  simp only [Double.equals, toDouble, Double.isZero, Bool.or_eq_true, Bool.and_eq_true, beq_iff_eq,
    Double.finite.injEq, true_and]
  constructor
  · rintro (heq | ⟨hv, hw⟩)
    · exact heq
    · exact Fin.ext (hv.trans hw.symm)
  · exact Or.inl

/-- Tokens mean the same when they are the same: of literals, no two stand for equal numbers. -/
theorem Token.same_iff {t u : Token} : t.same u = true ↔ t = u := by
  unfold same
  split
  · next v w => rw [Literal.equals_toDouble_iff, Token.number.injEq]
  · exact beq_iff_eq

/-! ### Formulas -/

namespace Formula

/-- A formula is its tokens. -/
theorem ext_tokens {f g : Formula} (h : f.tokens = g.tokens) : f = g := by
  cases f
  cases g
  cases h
  rfl

/-- **Canonical texts are uniquely decodable**: different formulas never have the same one. -/
theorem eq_of_text_eq {f g : Formula} (h : f.text = g.text) : f = g := by
  have hread : read f.text = read g.text := congrArg read h
  rw [f.read_text, g.read_text, Except.ok.injEq] at hread
  exact hread

/-- **Formulas are equal when they are the same**, because equality compares canonical texts. -/
theorem beq_eq_true_iff {f g : Formula} : (f == g) = true ↔ f = g := by
  show (f.text == g.text) = true ↔ f = g
  rw [beq_iff_eq]
  exact ⟨eq_of_text_eq, congrArg text⟩

/-- **Equality of formulas is equality of their tokens.**  Formulas have the same canonical text
    exactly when their tokens mean the same one by one, literals being compared as numbers.  Equal
    formulas have the same tokens, the same hash and the same references, and whatever the
    operations and the values of the cells are, they read the same cells in the same order and have
    the same result. -/
theorem equal_iff (f g : Formula) :
    ((f == g) = true ↔ List.Forall₂ (fun t u => t.same u = true) f.tokens g.tokens) ∧
    ((f == g) = true ↔ f.tokens = g.tokens) ∧
    ((f == g) = true → hash f = hash g ∧ f.references = g.references ∧
      ∀ arithmetic lookup,
        (f.evaluate arithmetic lookup).result = (g.evaluate arithmetic lookup).result ∧
        (f.evaluate arithmetic lookup).reads = (g.evaluate arithmetic lookup).reads) := by
  have htokens : (f == g) = true ↔ f.tokens = g.tokens :=
    beq_eq_true_iff.trans ⟨congrArg tokens, ext_tokens⟩
  refine ⟨?_, htokens, fun h => ?_⟩
  · simp only [Token.same_iff]
    rw [htokens, List.forall₂_eq_eq_eq]
  · obtain rfl := beq_eq_true_iff.1 h
    exact ⟨rfl, rfl, fun _ _ => ⟨rfl, rfl⟩⟩

end Formula

end LiveSheet
