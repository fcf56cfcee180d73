import LiveSheet.Proofs.Cell.Typing
import LiveSheet.Proofs.Decimal.Value
import LiveSheet.Proofs.Formula.Grammar
import LiveSheet.Proofs.Formula.Reads
import Mathlib.Data.List.Forall2

namespace LiveSheet

/-!
# Which texts are formulas

* `Derivable` — the kinds of some lexemes are those of the tokens of a parse tree.
* `Lexeme.Denotes` — a token that a lexeme stands for.
* `Formula.read_eq_ok_iff` — reading gives the tokens of the lexemes, if they are a formula.
* `Lexeme.token_eq_ok_iff`, `Lexeme.exists_token_iff` — the token of a lexeme, and when it has one.
* `Formula.read_accepts` — the texts that are read, and what is read from them.
-/

/-! ### What the grammar sees -/

/-- The kinds of lexemes and tokens that the grammar tells apart. -/
inductive Kind where
  | leftParen
  | rightParen
  | op (o : Operator)
  | number
  | cell
  | invalid
deriving DecidableEq

/-- The kind of a token. -/
def Token.kind : Token → Kind
  | .leftParen => .leftParen
  | .rightParen => .rightParen
  | .op o => .op o
  | .number _ => .number
  | .cell _ => .cell

namespace Lexeme

/-- The kind of a lexeme. -/
def kind : Lexeme → Kind
  | .leftParen => .leftParen
  | .rightParen => .rightParen
  | .op o => .op o
  | .number _ => .number
  | .name _ => .cell
  | .invalid _ => .invalid

/-- A token that a lexeme stands for: a name in upper case, and for a numeral its value. -/
inductive Denotes : Lexeme → Token → Prop where
  | leftParen : Denotes .leftParen .leftParen
  | rightParen : Denotes .rightParen .rightParen
  | op (o : Operator) : Denotes (.op o) (.op o)
  | name {chars : List Char} {name : CellName} :
      name.text = CellName.normalized (String.ofList chars) → Denotes (.name chars) (.cell name)
  | number {chars : List Char} {value : Literal} :
      Double.read chars = some value.toDouble → Denotes (.number chars) (.number value)

end Lexeme

/-- Some lexemes can be derived from the grammar: a parse tree has their kinds. -/
def Derivable (ls : List Lexeme) : Prop :=
  ∃ t : Tree .sum, t.tokens.map Token.kind = ls.map Lexeme.kind

/-- Where a token can stand depends on its kind only. -/
theorem Cursor.step_eq_of_kind {t u : Token} (h : t.kind = u.kind) (place : Cursor) :
    place.step t = place.step u := by
  cases t <;> cases u <;> cases h <;> rfl

/-- Where some tokens lead to depends on their kinds only. -/
theorem Cursor.advance_eq_of_kind {ts us : List Token} (h : ts.map Token.kind = us.map Token.kind)
    (place : Cursor) : place.advance ts = place.advance us := by
  induction ts generalizing us place with
  | nil => rw [List.map_eq_nil_iff.1 h.symm]
  | cons t ts ih =>
    obtain ⟨u, us, rfl, hu, hus⟩ := List.map_eq_cons_iff.1 h.symm
    rw [advance, advance, step_eq_of_kind hu.symm]
    exact congrArg _ (funext fun next => ih hus.symm next)

/-- Tokens of the same kinds as some lexemes are a formula when the lexemes can be derived. -/
theorem isFormula_iff_derivable {ts : List Token} {ls : List Lexeme}
    (h : ts.map Token.kind = ls.map Lexeme.kind) : IsFormula ts ↔ Derivable ls := by
  constructor
  · intro hts
    obtain ⟨t, rfl⟩ := isFormula_iff.1 hts
    exact ⟨t, h⟩
  · rintro ⟨t, ht⟩
    rw [IsFormula, ← Cursor.advance_eq_of_kind (ht.trans h.symm)]
    exact isFormula_iff.2 ⟨t, rfl⟩

/-! ### Reading tokens -/

namespace Formula

variable {place : Cursor} {previous : Option Lexeme} {ls : List Lexeme} {ts : List Token}

/-- What is read are the tokens of the lexemes. -/
theorem map_token_of_readFrom (h : readFrom place previous ls = .ok ts) :
    ls.map Lexeme.token = ts.map .ok := by
  induction ls generalizing place previous ts with
  | nil =>
    rw [readFrom] at h
    split at h
    · cases h
    · cases h; rfl
  | cons l rest ih =>
    simp only [readFrom] at h
    split at h
    · cases h
    · next t htoken =>
      split at h
      · cases h
      · split at h
        · cases h
        · next hrest =>
          cases h
          rw [List.map_cons, List.map_cons, htoken, ih hrest]

/-- All tokens are read, if each can stand where it does and the formula can end after them. -/
theorem readFrom_of_advance (h : ls.map Lexeme.token = ts.map .ok)
    (hadv : place.advance ts = some Cursor.finish) : readFrom place previous ls = .ok ts := by
  induction ls generalizing place previous ts with
  | nil =>
    rw [List.map_eq_nil_iff.1 h.symm] at hadv ⊢
    rw [Option.some.inj hadv]
    rfl
  | cons l rest ih =>
    obtain ⟨t, ts, rfl, htoken, hrest⟩ := List.map_eq_cons_iff.1 h.symm
    obtain ⟨next, hstep, hadv⟩ := Option.bind_eq_some_iff.1 hadv
    simp only [readFrom, ← htoken, hstep, ih hrest.symm hadv]

/-- **Reading a text gives the tokens of its lexemes**, whenever these are a formula. -/
theorem read_eq_ok_iff {text : String} {f : Formula} :
    read text = .ok f ↔ (lexemes text.toList).map Lexeme.token = f.tokens.map .ok := by
  constructor
  · intro h
    unfold read at h
    split at h
    · cases h
    · next l rest hls =>
      split at h
      · cases h
      · next ts hts =>
        cases h
        rw [hls]
        exact map_token_of_readFrom hts
  · intro h
    have hread : readFrom Cursor.start none (lexemes text.toList) = .ok f.tokens :=
      readFrom_of_advance h f.isFormula
    unfold read
    split
    · next hls =>
      -- no lexemes at all are no formula
      rw [hls] at hread
      cases hread
    · next l rest hls =>
      rw [hls] at hread
      split
      · next fault hfault => rw [hread] at hfault; cases hfault
      · next ts hts => rw [hread] at hts; cases hts; rfl

end Formula

/-! ### Which lexemes a text can have -/

/-- What is left when the leading blank characters are skipped starts with another one. -/
theorem isBlank_of_trimLeft {c : Char} {cs rest : List Char} (h : trimLeft cs = c :: rest) :
    isBlank c = false := by
  have hhead := List.head?_dropWhile_not isBlank cs
  rw [show cs.dropWhile isBlank = c :: rest from h] at hhead
  exact hhead

/-- A lexeme of a text is the first of what is left of the text. -/
theorem exists_first_of_mem_lexemes {l : Lexeme} {cs : List Char} (h : l ∈ lexemes cs) :
    ∃ c rest, isBlank c = false ∧ (Lexeme.first c rest).1 = l := by
  fun_induction lexemes cs with
  | case1 cs htrim => cases h
  | case2 cs c rest htrim ih =>
    rcases List.mem_cons.1 h with rfl | hrest
    · exact ⟨c, rest, isBlank_of_trimLeft htrim, rfl⟩
    · exact ih hrest

/-- A name is letters and digits. -/
theorem isCellText_of_scanName {cs found rest : List Char} (h : scanName cs = some (found, rest)) :
    IsCellText (String.ofList found) := by
  simp only [scanName] at h
  split at h
  · cases h
  · next hne =>
    cases h
    rw [not_or] at hne
    exact isCellText_ofList.2 ⟨_, _, rfl, hne.1, hne.2, List.all_eq_true.1 List.all_takeWhile,
      List.all_eq_true.1 List.all_takeWhile⟩

namespace Lexeme

variable {c : Char} {cs chars : List Char}

/-- A lexeme that is a name is the name that the text starts with. -/
theorem scanName_of_first (h : (first c cs).1 = .name chars) :
    ∃ rest, scanName (c :: cs) = some (chars, rest) := by
  unfold first at h
  split at h
  · cases h
  split at h
  · cases h
  split at h
  · cases h
  split at h
  · next found rest hscan => cases h; exact ⟨rest, hscan⟩
  split at h <;> cases h

/-- A lexeme that is a name can name a cell. -/
theorem isCellText_of_first (h : (first c cs).1 = .name chars) :
    IsCellText (String.ofList chars) := by
  obtain ⟨rest, hscan⟩ := scanName_of_first h
  exact isCellText_of_scanName hscan

/-- A numeral has no sign. -/
theorem splitSign_of_first (h : (first c cs).1 = .number chars) :
    Double.splitSign chars = (false, chars) := by
  unfold first at h
  split at h
  · cases h
  split at h
  · cases h
  split at h
  · cases h
  · next hop =>
    split at h
    · cases h
    split at h
    · next n rest hscan =>
      cases h
      -- the numeral starts with `c`, which is no operator
      have happ := Numeral.spelling_append_of_scan hscan
      cases hn : n.spelling with
      | nil => rfl
      | cons d ds =>
        rw [hn] at happ
        cases happ
        unfold Double.splitSign
        split
        · next hminus => cases hminus; cases hop
        · next hplus => cases hplus; cases hop
        · rfl
    · cases h

end Lexeme

/-! ### The token of a lexeme -/

namespace Lexeme

variable {l : Lexeme} {cs : List Char}

/-- The token of a lexeme is the one that the lexeme denotes. -/
theorem token_eq_ok_iff (h : l ∈ lexemes cs) {t : Token} : l.token = .ok t ↔ l.Denotes t := by
  obtain ⟨c, rest, -, hfirst⟩ := exists_first_of_mem_lexemes h
  constructor
  · -- the token of each lexeme, as it is made
    intro ht
    cases l with
    | leftParen => cases ht; exact .leftParen
    | rightParen => cases ht; exact .rightParen
    | op o => cases ht; exact .op o
    | name chars =>
      rw [token] at ht
      split at ht
      · next found hfound => cases ht; exact .name (CellName.text_of_ofText? hfound)
      · cases ht
    | number chars =>
      rw [token] at ht
      split at ht
      · cases ht
      · next negative rank hread =>
        cases ht
        refine .number (hread.trans ?_)
        rw [Double.negative_of_read hread, splitSign_of_first hfirst, Literal.toDouble]
      · cases ht
    | invalid chars => cases ht
  · -- what each lexeme denotes, as the relation has it
    intro ht
    cases ht with
    | leftParen => rfl
    | rightParen => rfl
    | op o => rfl
    | @name chars name hname =>
      -- a scanned name always names a cell, and only one
      obtain ⟨found, hfound⟩ := (CellName.exists_ofText?_iff _).2 (isCellText_of_first hfirst)
      have hsame : found = name :=
        CellName.ext_text ((CellName.text_of_ofText? hfound).trans hname.symm)
      rw [token, hfound, hsame]
    | number hread => simp only [token, hread, Literal.toDouble]

/-- Every lexeme has a token but invalid runs and numerals beyond the largest double. -/
theorem exists_token_iff (h : l ∈ lexemes cs) : (∃ t, l.token = .ok t) ↔
    (∀ chars, l ≠ .invalid chars) ∧
      ∀ chars, l = .number chars → ∃ v, Double.read chars = some v ∧ v.isFinite = true := by
  obtain ⟨c, rest, -, hfirst⟩ := exists_first_of_mem_lexemes h
  cases l with
  | leftParen => simp [token]
  | rightParen => simp [token]
  | op o => simp [token]
  | name chars =>
    obtain ⟨found, hfound⟩ := (CellName.exists_ofText?_iff _).2 (isCellText_of_first hfirst)
    simp [token, hfound]
  | number chars =>
    cases hread : Double.read chars with
    | none => simp [token, hread]
    | some v => cases v <;> simp [token, hread, Double.isFinite]
  | invalid chars => simp [token]

/-- A token is of the kind of its lexeme. -/
theorem kind_of_token {t : Token} (h : l.token = .ok t) : t.kind = l.kind := by
  cases l with
  | leftParen => cases h; rfl
  | rightParen => cases h; rfl
  | op o => cases h; rfl
  | name chars =>
    rw [token] at h
    split at h <;> cases h
    rfl
  | number chars =>
    rw [token] at h
    split at h <;> cases h
    rfl
  | invalid chars => cases h

end Lexeme

/-! ### Lists of lexemes and tokens -/

/-- Tokens are of the kinds of their lexemes, one by one. -/
theorem map_kind_of_map_token {ls : List Lexeme} {ts : List Token}
    (h : ls.map Lexeme.token = ts.map .ok) : ts.map Token.kind = ls.map Lexeme.kind := by
  induction ls generalizing ts with
  | nil => rw [List.map_eq_nil_iff.1 h.symm]; rfl
  | cons l ls ih =>
    obtain ⟨t, ts, rfl, ht, hts⟩ := List.map_eq_cons_iff.1 h.symm
    rw [List.map_cons, List.map_cons, Lexeme.kind_of_token ht.symm, ih hts.symm]

/-- If every lexeme has a token, then so has the list. -/
theorem exists_map_token {ls : List Lexeme} (h : ∀ l ∈ ls, ∃ t, l.token = .ok t) :
    ∃ ts : List Token, ls.map Lexeme.token = ts.map .ok := by
  induction ls with
  | nil => exact ⟨[], rfl⟩
  | cons l ls ih =>
    obtain ⟨t, ht⟩ := h l List.mem_cons_self
    obtain ⟨ts, hts⟩ := ih fun m hm => h m (List.mem_cons_of_mem l hm)
    exact ⟨t :: ts, by rw [List.map_cons, List.map_cons, ht, hts]⟩

/-- Tokens that are made of lexemes are denoted by them, one by one. -/
theorem forall₂_denotes_of_map_token {ls : List Lexeme} {ts : List Token} {cs : List Char}
    (hls : ∀ l ∈ ls, l ∈ lexemes cs) (h : ls.map Lexeme.token = ts.map .ok) :
    List.Forall₂ Lexeme.Denotes ls ts := by
  induction ls generalizing ts with
  | nil => rw [List.map_eq_nil_iff.1 h.symm]; exact .nil
  | cons l ls ih =>
    obtain ⟨t, ts, rfl, ht, hts⟩ := List.map_eq_cons_iff.1 h.symm
    exact .cons ((Lexeme.token_eq_ok_iff (hls l List.mem_cons_self)).1 ht.symm)
      (ih (fun m hm => hls m (List.mem_cons_of_mem l hm)) hts.symm)

/-- A cell stands among the tokens when its name stands among the lexemes. -/
theorem cell_mem_iff_of_denotes {ls : List Lexeme} {ts : List Token}
    (h : List.Forall₂ Lexeme.Denotes ls ts) (name : CellName) :
    Token.cell name ∈ ts ↔ ∃ chars, Lexeme.name chars ∈ ls ∧
      name.text = CellName.normalized (String.ofList chars) := by
  induction h with
  | nil => simp
  | @cons l t ls ts hlt _ ih =>
    simp only [List.mem_cons, ih, or_and_right, exists_or]
    refine or_congr_left ?_
    cases hlt with
    | leftParen => simp
    | rightParen => simp
    | op o => simp
    | number hread => simp
    | @name chars found hfound =>
      simp only [Token.cell.injEq, Lexeme.name.injEq, exists_eq_left]
      exact ⟨fun hsame => hsame ▸ hfound, fun hname => CellName.ext_text (hname.trans hfound.symm)⟩

/-! ### The texts that are read -/

/-- **The texts that are formulas, and what is read from them.**
    * A text is read exactly when it has no invalid run, all its numerals have a finite value, and
      its lexemes can be derived from the grammar.
    * The tokens are then those of the lexemes, one by one and in order: names in upper case,
      numerals as their values.
    * The formula refers to the cells of its names. -/
theorem Formula.read_accepts (text : String) :
    let ls := lexemes text.toList
    ((∃ f, read text = .ok f) ↔ (∀ chars, .invalid chars ∉ ls) ∧
      (∀ chars, .number chars ∈ ls → ∃ v, Double.read chars = some v ∧ v.isFinite = true) ∧
      Derivable ls) ∧
    ∀ f, read text = .ok f → List.Forall₂ Lexeme.Denotes ls f.tokens ∧
      ∀ name, name ∈ f.references ↔ ∃ chars, Lexeme.name chars ∈ ls ∧
        name.text = CellName.normalized (String.ofList chars) := by
  intro ls
  refine ⟨⟨?_, ?_⟩, ?_⟩
  · -- every lexeme has a token, so none is invalid and all numbers are finite
    rintro ⟨f, hf⟩
    have hmap := read_eq_ok_iff.1 hf
    have htoken : ∀ l ∈ ls, ∃ t, l.token = .ok t := by
      intro l hl
      have hmem : l.token ∈ f.tokens.map Except.ok := hmap ▸ List.mem_map_of_mem hl
      obtain ⟨t, -, ht⟩ := List.mem_map.1 hmem
      exact ⟨t, ht.symm⟩
    refine ⟨fun chars hl => ?_, fun chars hl => ?_, ?_⟩
    · exact ((Lexeme.exists_token_iff hl).1 (htoken _ hl)).1 chars rfl
    · exact ((Lexeme.exists_token_iff hl).1 (htoken _ hl)).2 chars rfl
    · exact (isFormula_iff_derivable (map_kind_of_map_token hmap)).1 f.isFormula
  · rintro ⟨hinvalid, hnumber, hderivable⟩
    have htoken : ∀ l ∈ ls, ∃ t, l.token = .ok t := fun l hl =>
      (Lexeme.exists_token_iff hl).2
        ⟨fun chars h => hinvalid chars (h ▸ hl), fun chars h => hnumber chars (h ▸ hl)⟩
    -- the tokens are there, and they are a formula as the lexemes can be derived
    obtain ⟨ts, hts⟩ := exists_map_token htoken
    exact ⟨⟨ts, (isFormula_iff_derivable (map_kind_of_map_token hts)).2 hderivable⟩,
      read_eq_ok_iff.2 hts⟩
  · intro f hf
    have hdenotes := forall₂_denotes_of_map_token (fun _ h => h) (read_eq_ok_iff.1 hf)
    refine ⟨hdenotes, fun name => ?_⟩
    rw [mem_references, mem_mentions]
    exact cell_mem_iff_of_denotes hdenotes name

end LiveSheet
