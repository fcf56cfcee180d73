import LiveSheet.Json.Quoting
import Mathlib.Data.List.Forall2

namespace LiveSheet

/-!
# Strings of the JSON grammar

* `Json.CharOf`, `Json.StringOf` — the ways in which a character and a text can be written.
* `Json.stringOf_quote` — quoting a text is one of these ways.
* `Json.StringOf.exists_pieces` — a text is read from each of them, whatever stands behind it.
-/

namespace Json

/-! ### The grammar -/

/-- The escapes with one letter, each with the character that it stands for. -/
def shortEscapes : List (Char × Char) :=
  [('"', '"'), ('\\', '\\'), ('/', '/'), ('b', '\x08'), ('f', '\x0c'), ('n', '\x0a'),
    ('r', '\x0d'), ('t', '\x09')]

/-- The ways in which a character can be written in a string: as it is, if it is neither a quote nor
    a backslash nor a control, or escaped, with one letter, with the number of its 16-bit unit, or
    with those of its pair of units. -/
inductive CharOf : List Char → Char → Prop where
  | plain {c : Char} (hquote : c ≠ '"') (hslash : c ≠ '\\') (hcontrol : ¬ c.toNat < 0x20) :
      CharOf [c] c
  | short {e c : Char} (h : (e, c) ∈ shortEscapes) : CharOf ['\\', e] c
  | unit {p q r s c : Char} (h : unit? p q r s = some c.toNat) :
      CharOf ['\\', 'u', p, q, r, s] c
  | pair {p q r s p' q' r' s' c : Char} {n m : Nat} (h : unit? p q r s = some (0xd800 + n))
      (h' : unit? p' q' r' s' = some (0xdc00 + m)) (hn : n < 0x400) (hm : m < 0x400)
      (hc : c.toNat = 0x10000 + n * 0x400 + m) :
      CharOf ['\\', 'u', p, q, r, s, '\\', 'u', p', q', r', s'] c

/-- The ways in which a text can be written: its characters one after the other, in quotes. -/
def StringOf (cs : List Char) (text : String) : Prop :=
  ∃ written : List (List Char), cs = '"' :: (written.flatten ++ ['"']) ∧
    List.Forall₂ CharOf written text.toList

/-! ### Quoting -/

/-- The four digits of a control read as its number. -/
theorem unit?_control :
    ∀ n < 32, unit? '0' '0' (Nat.digitChar (n / 16)) (Nat.digitChar (n % 16)) = some n := by
  decide

/-- A character is escaped in one of the ways in which it can be written. -/
theorem charOf_escaped (c : Char) : CharOf (escaped c) c := by
  unfold escaped
  split
  · next h => subst h; exact .short (by decide)
  split
  · next h => subst h; exact .short (by decide)
  split
  · next h => subst h; exact .short (by decide)
  split
  · next h => subst h; exact .short (by decide)
  split
  · next h => subst h; exact .short (by decide)
  split
  · next h => subst h; exact .short (by decide)
  split
  · next h => subst h; exact .short (by decide)
  split
  · -- What is left are the other control characters and all that need no escape.
    next hcontrol => exact .unit (unit?_control c.toNat hcontrol)
  · next hquote hslash _ _ _ _ _ hcontrol => exact .plain hquote hslash hcontrol

/-- **A quoted text is a string of the grammar.** -/
theorem stringOf_quote (s : String) : StringOf (quote s) s := by
  refine ⟨s.toList.map escaped, ?_, ?_⟩
  · rw [quote, List.flatMap_def]
  · exact List.forall₂_map_left_iff.2 (List.forall₂_same.2 fun c _ => charOf_escaped c)

/-! ### Reading -/

/-- These pieces are scanned from the start of a text, and make up the characters. -/
def ScansAs (cs : List Char) (pieces : List Piece) (chars : List Char) : Prop :=
  (∀ found rest, scanString found (cs ++ rest) = scanString (pieces.reverse ++ found) rest) ∧
    ∀ found rest, joinPieces found (pieces ++ rest) = joinPieces (chars.reverse ++ found) rest

/-- No text is scanned as no pieces. -/
theorem scansAs_nil : ScansAs [] [] [] := ⟨fun _ _ => rfl, fun _ _ => rfl⟩

/-- Texts one after the other are scanned as their pieces one after the other. -/
theorem ScansAs.append {cs cs' chars chars' : List Char} {pieces pieces' : List Piece}
    (h : ScansAs cs pieces chars) (h' : ScansAs cs' pieces' chars') :
    ScansAs (cs ++ cs') (pieces ++ pieces') (chars ++ chars') := by
  constructor
  · intro found rest
    rw [List.append_assoc, h.1, h'.1, List.reverse_append, List.append_assoc]
  · intro found rest
    rw [List.append_assoc, h.2, h'.2, List.reverse_append, List.append_assoc]

/-- The unit of a character stands for the character. -/
theorem joinPieces_unit (c : Char) (found : List Char) (rest : List Piece) :
    joinPieces found (.unit c.toNat :: rest) = joinPieces (c :: found) rest := by
  have hvalid : c.toNat < 0xd800 ∨ 0xdfff < c.toNat ∧ c.toNat < 0x110000 := c.valid
  have htrailing : isTrailing c.toNat = false := by
    simp only [isTrailing, Bool.and_eq_false_iff, decide_eq_false_iff_not]
    omega
  have hleading : isLeading c.toNat = false := by
    simp only [isLeading, Bool.and_eq_false_iff, decide_eq_false_iff_not]
    omega
  rcases rest with _ | ⟨_ | _, _⟩ <;>
    simp only [joinPieces, htrailing, hleading, Char.ofNat_toNat] <;> rfl

/-- So do the two units of a pair. -/
theorem joinPieces_pair {c : Char} {n m : Nat} (hn : n < 0x400) (hm : m < 0x400)
    (hc : c.toNat = 0x10000 + n * 0x400 + m) (found : List Char) (rest : List Piece) :
    joinPieces found (.unit (0xd800 + n) :: .unit (0xdc00 + m) :: rest)
      = joinPieces (c :: found) rest := by
  -- The first unit leads and the second trails, so they are joined.
  have hfirst : isTrailing (0xd800 + n) = false := by
    simp only [isTrailing, Bool.and_eq_false_iff, decide_eq_false_iff_not]
    omega
  have hleading : isLeading (0xd800 + n) = true := by
    simp only [isLeading, Bool.and_eq_true, decide_eq_true_eq]
    omega
  have htrailing : isTrailing (0xdc00 + m) = true := by
    simp only [isTrailing, Bool.and_eq_true, decide_eq_true_eq]
    omega
  have hchar :
      Char.ofNat (0x10000 + (0xd800 + n - 0xd800) * 0x400 + (0xdc00 + m - 0xdc00)) = c := by
    rw [Nat.add_sub_cancel_left, Nat.add_sub_cancel_left, ← hc, Char.ofNat_toNat]
  simp only [joinPieces, hfirst, hleading, htrailing, hchar, if_true]
  rfl

/-- However a character is written, it is read. -/
theorem CharOf.exists_pieces {cs : List Char} {c : Char} (h : CharOf cs c) :
    ∃ pieces, ScansAs cs pieces [c] := by
  cases h with
  | plain hquote hslash hcontrol =>
    refine ⟨[.char c], fun found rest => ?_, fun found rest => ?_⟩
    · simp [scanString, hslash, hcontrol]
    · exact joinPieces.eq_2 ..
  | @short e _ h =>
    refine ⟨[.char c], fun found rest => ?_, fun found rest => by simp [joinPieces]⟩
    -- The eight short escapes, one by one.
    simp only [shortEscapes, List.mem_cons, List.not_mem_nil, or_false, Prod.mk.injEq] at h
    rcases h with ⟨rfl, rfl⟩ | ⟨rfl, rfl⟩ | ⟨rfl, rfl⟩ | ⟨rfl, rfl⟩ | ⟨rfl, rfl⟩ | ⟨rfl, rfl⟩ |
      ⟨rfl, rfl⟩ | ⟨rfl, rfl⟩ <;> rfl
  | unit h =>
    refine ⟨[.unit c.toNat], fun found rest => ?_, fun found rest => joinPieces_unit c found rest⟩
    simp [scanString, h]
  | @pair _ _ _ _ _ _ _ _ _ n m h h' hn hm hc =>
    refine ⟨[.unit (0xd800 + n), .unit (0xdc00 + m)], fun found rest => ?_,
      fun found rest => joinPieces_pair hn hm hc found rest⟩
    simp [scanString, h, h']

/-- **However a text is written, it is read.** -/
theorem StringOf.exists_pieces {cs : List Char} {text : String} (h : StringOf cs text) :
    ∃ body pieces, cs = '"' :: (body ++ ['"']) ∧ ScansAs body pieces text.toList := by
  obtain ⟨written, rfl, hwritten⟩ := h
  obtain ⟨pieces, hpieces⟩ : ∃ pieces, ScansAs written.flatten pieces text.toList := by
    generalize text.toList = chars at hwritten
    induction hwritten with
    | nil => exact ⟨[], scansAs_nil⟩
    | cons hc _ ih =>
      obtain ⟨first, hfirst⟩ := hc.exists_pieces
      obtain ⟨others, hothers⟩ := ih
      exact ⟨_, hfirst.append hothers⟩
  exact ⟨_, pieces, rfl, hpieces⟩

end Json

end LiveSheet
