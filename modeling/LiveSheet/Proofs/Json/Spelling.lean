import LiveSheet.Json.Reading
import LiveSheet.Proofs.Json.Quoting
import LiveSheet.Storage.Writing

namespace LiveSheet

/-!
# Strings and objects are read from their texts

* `Json.Derives` — the grammar of strings and objects.
* `Json.Cuts` — a text is cut into these lexemes, whatever stands behind it.
* `Json.Makes` — these lexemes make up a value, wherever one is expected.
* `Json.Derives.exists_lexemes`, `Json.ofText?_of_derives` — what the grammar gives is read.
* `Json.derives_quote`, `Json.derives_object` — what is written is in the grammar, in either layout.
-/

namespace Json

/-! ### The grammar -/

/-- These characters may stand between lexemes. -/
def Blank (gap : List Char) : Prop := ∀ c ∈ gap, c ∈ [' ', '\t', '\n', '\r']

/-- What a text of the grammar is: a value, or members of an object. -/
inductive Phrase where
  | value (v : Json)
  | members (ms : List (Option String × Json))

/-- The texts of strings and objects, and of what they are made of. -/
inductive Derives : List Char → Phrase → Prop where
  | string {cs : List Char} {text : String} (h : StringOf cs text) :
      Derives cs (.value (.string (some text)))
  | emptyObject {gap : List Char} (hgap : Blank gap) :
      Derives ('\x7b' :: (gap ++ ['\x7d'])) (.value (.object []))
  | object {cs : List Char} {ms : List (Option String × Json)} (h : Derives cs (.members ms)) :
      Derives ('\x7b' :: (cs ++ ['\x7d'])) (.value (.object ms))
  | member {name gap cs : List Char} {text : String} {v : Json} (hname : StringOf name text)
      (hgap : Blank gap) (h : Derives cs (.value v)) :
      Derives (name ++ (gap ++ ':' :: cs)) (.members [(some text, v)])
  | comma {cs cs' : List Char} {m : Option String × Json} {ms : List (Option String × Json)}
      (h : Derives cs (.members [m])) (h' : Derives cs' (.members ms)) :
      Derives (cs ++ ',' :: cs') (.members (m :: ms))
  | before {gap cs : List Char} {p : Phrase} (hgap : Blank gap) (h : Derives cs p) :
      Derives (gap ++ cs) p
  | after {gap cs : List Char} {p : Phrase} (hgap : Blank gap) (h : Derives cs p) :
      Derives (cs ++ gap) p

/-! ### Cutting texts into lexemes -/

/-- A text is cut into these lexemes, whatever stands behind it. -/
def Cuts (cs : List Char) (ls : List Lexeme) : Prop :=
  ∀ (found : List Lexeme) (rest : List Char),
    lexemesFrom found (cs ++ rest) = lexemesFrom (ls.reverse ++ found) rest

variable {cs cs' : List Char} {ls ls' : List Lexeme}

/-- No text is cut into no lexemes. -/
theorem cuts_nil : Cuts [] [] := fun _ _ => rfl

/-- **Texts one after the other are cut one after the other**: each stops where the next one
    starts. -/
theorem Cuts.append (h : Cuts cs ls) (h' : Cuts cs' ls') : Cuts (cs ++ cs') (ls ++ ls') := by
  intro found rest
  rw [List.append_assoc, h, h', List.reverse_append, List.append_assoc]

/-- Spaces between lexemes are skipped. -/
theorem cuts_space {c : Char} (h : isSpace c = true) : Cuts [c] [] := by
  intro found rest
  have hskip : ([c] ++ rest).dropWhile isSpace = rest.dropWhile isSpace :=
    List.dropWhile_cons_of_pos h
  rw [lexemesFrom, lexemesFrom, hskip]
  rfl

/-- Blanks are cut into no lexemes. -/
theorem cuts_blank {gap : List Char} (h : Blank gap) : Cuts gap [] := by
  induction gap with
  | nil => exact cuts_nil
  | cons c rest ih =>
    have hspace : isSpace c = true := by
      simpa [isSpace, or_assoc] using h c List.mem_cons_self
    exact (cuts_space hspace).append (ih fun c hc => h c (List.mem_cons_of_mem _ hc))

/-- A lexeme is cut off where it starts the text. -/
theorem lexemesFrom_of_first {c : Char} {rest after : List Char} {l : Lexeme}
    (hspace : isSpace c = false) (h : Lexeme.first c rest = some (l, after)) (found : List Lexeme) :
    lexemesFrom found (c :: rest) = lexemesFrom (l :: found) after := by
  have hkeep : (c :: rest).dropWhile isSpace = c :: rest :=
    List.dropWhile_cons_of_neg (by simp [hspace])
  rw [lexemesFrom]
  split
  · next hnil => rw [hkeep] at hnil; cases hnil
  · next d ds hcons =>
    rw [hkeep] at hcons
    cases hcons
    split
    · next hl => rw [h] at hl; cases hl; rfl
    · next hl => rw [h] at hl; cases hl

/-- A punctuation mark is a lexeme by itself, whatever follows it. -/
theorem cuts_punctuation {c : Char} {l : Lexeme} (hspace : isSpace c = false)
    (h : punctuation? c = some l) : Cuts [c] [l] := by
  intro found rest
  have hfirst : Lexeme.first c rest = some (l, rest) := by
    simp only [Lexeme.first, h]
  exact lexemesFrom_of_first hspace hfirst found

/-- A string is one lexeme, however it is written. -/
theorem cuts_string {text : String} (h : StringOf cs text) : Cuts cs [.string (some text)] := by
  obtain ⟨body, pieces, rfl, hscan, hjoin⟩ := h.exists_pieces
  intro found rest
  have hfirst : Lexeme.first '"' (body ++ '"' :: rest) = some (.string (some text), rest) := by
    have hbody : scanString [] (body ++ '"' :: rest) = some (pieces, rest) := by
      rw [hscan, scanString, List.append_nil, List.reverse_reverse]
    have htext : joinPieces [] pieces = some text.toList := by
      have hpieces := hjoin [] []
      rwa [List.append_nil, List.append_nil, joinPieces, List.reverse_reverse] at hpieces
    show scanText _ = _
    simp only [scanText, hbody, htext, Option.map_some, String.ofList_toList]
  have hwritten : '"' :: (body ++ ['"']) ++ rest = '"' :: (body ++ '"' :: rest) := by
    rw [List.cons_append, List.append_assoc, List.singleton_append]
  rw [hwritten]
  exact lexemesFrom_of_first rfl hfirst found

/-! ### Putting values together -/

/-- A run takes one step, and goes on from there if the lexeme may stand at its place. -/
theorem State.run_cons (s : State) (l : Lexeme) (rest : List Lexeme) :
    s.run (l :: rest) = (s.step l).bind (run · rest) := by
  rw [run]
  cases s.step l <;> rfl

/-- These lexemes make up a value, wherever one is expected. -/
def Makes (ls : List Lexeme) (v : Json) : Prop :=
  ∀ (stack : List Frame) (rest : List Lexeme),
    State.run (.reading .value stack) (ls ++ rest) = (State.put v stack).bind (State.run · rest)

/-- These lexemes make up members of an object, at its start or after a comma. -/
def MakesMembers (ls : List Lexeme) (members : List (Option String × Json)) : Prop :=
  ∀ expect, expect = .member ∨ expect = .name →
    ∀ (found : List (Option String × Json)) (stack : List Frame) (rest : List Lexeme),
      State.run (.reading expect (.object found :: stack)) (ls ++ rest)
        = State.run (.reading .next (.object (members.reverse ++ found) :: stack)) rest

/-- A string is a value. -/
theorem makes_string (text : Option String) : Makes [.string text] (.string text) :=
  fun stack rest => State.run_cons (.reading .value stack) (.string text) rest

/-- A name, a colon and the lexemes of a value make up a member. -/
theorem Makes.member {v : Json} (h : Makes ls v) (name : Option String) :
    MakesMembers (.string name :: .colon :: ls) [(name, v)] := by
  rintro expect hexpect found stack rest
  have hname : State.step (.reading expect (.object found :: stack)) (.string name)
      = some (.reading .colon (.field found name :: stack)) := by
    rcases hexpect with rfl | rfl <;> rfl
  rw [List.cons_append, State.run_cons, hname, Option.bind_some, List.cons_append, State.run_cons]
  exact h (.field found name :: stack) rest

/-- Members follow a member and a comma. -/
theorem MakesMembers.comma {m : Option String × Json} {ms : List (Option String × Json)}
    (h : MakesMembers ls [m]) (h' : MakesMembers ls' ms) :
    MakesMembers (ls ++ .comma :: ls') (m :: ms) := by
  rintro expect hexpect found stack rest
  rw [List.append_assoc, h expect hexpect, List.cons_append, State.run_cons]
  refine (h' .name (Or.inr rfl) (m :: found) stack rest).trans ?_
  rw [List.reverse_cons, List.append_assoc, List.singleton_append]

/-- The two braces make up an object without members. -/
theorem makes_object_nil : Makes [.openObject, .closeObject] (.object []) := by
  intro stack rest
  rw [List.cons_append, State.run_cons]
  exact State.run_cons (.reading .member (.object [] :: stack)) .closeObject rest

/-- Members in braces make up an object. -/
theorem MakesMembers.object {members : List (Option String × Json)} (h : MakesMembers ls members) :
    Makes (.openObject :: (ls ++ [.closeObject])) (.object members) := by
  intro stack rest
  rw [List.cons_append, State.run_cons]
  refine (congrArg _ (List.append_assoc _ _ _)).trans ?_
  refine (h .member (Or.inl rfl) [] stack _).trans ?_
  rw [List.append_nil, List.singleton_append, State.run_cons]
  -- the members were collected last one first
  show (State.put (.object members.reverse.reverse) stack).bind _ = _
  rw [List.reverse_reverse]

/-! ### Reading -/

/-- These lexemes make up a value or members. -/
def Phrase.MadeBy (ls : List Lexeme) : Phrase → Prop
  | .value v => Makes ls v
  | .members ms => MakesMembers ls ms

/-- **What the grammar gives is cut into lexemes that make it up.** -/
theorem Derives.exists_lexemes {p : Phrase} (h : Derives cs p) :
    ∃ ls, Cuts cs ls ∧ p.MadeBy ls := by
  have hopen : Cuts ['\x7b'] [.openObject] := cuts_punctuation rfl rfl
  have hclose : Cuts ['\x7d'] [.closeObject] := cuts_punctuation rfl rfl
  have hcolon : Cuts [':'] [.colon] := cuts_punctuation rfl rfl
  have hcomma : Cuts [','] [.comma] := cuts_punctuation rfl rfl
  -- One case per rule: the cuts of the parts are put behind one another.
  induction h with
  | string h => exact ⟨_, cuts_string h, makes_string _⟩
  | emptyObject hgap =>
    exact ⟨_, hopen.append ((cuts_blank hgap).append hclose), makes_object_nil⟩
  | object _ ih =>
    obtain ⟨ls, hcuts, hmakes⟩ := ih
    exact ⟨_, hopen.append (hcuts.append hclose), MakesMembers.object hmakes⟩
  | member hname hgap _ ih =>
    obtain ⟨ls, hcuts, hmakes⟩ := ih
    exact ⟨_, (cuts_string hname).append ((cuts_blank hgap).append (hcolon.append hcuts)),
      Makes.member hmakes _⟩
  | comma _ _ ih ih' =>
    obtain ⟨ls, hcuts, hmakes⟩ := ih
    obtain ⟨ls', hcuts', hmakes'⟩ := ih'
    exact ⟨_, hcuts.append (hcomma.append hcuts'), MakesMembers.comma hmakes hmakes'⟩
  | before hgap _ ih =>
    obtain ⟨ls, hcuts, hmakes⟩ := ih
    exact ⟨ls, (cuts_blank hgap).append hcuts, hmakes⟩
  | after hgap _ ih =>
    obtain ⟨ls, hcuts, hmakes⟩ := ih
    refine ⟨ls, ?_, hmakes⟩
    simpa only [List.append_nil] using hcuts.append (cuts_blank hgap)

/-- **A value of the grammar is read from its text.** -/
theorem ofText?_of_derives {v : Json} (h : Derives cs (.value v)) :
    ofText? (String.ofList cs) = some v := by
  obtain ⟨ls, hcuts, hmakes⟩ := h.exists_lexemes
  have hlexemes : lexemes cs = some ls := by
    have hcut := hcuts [] []
    rw [List.append_nil, List.append_nil] at hcut
    rw [lexemes, hcut, lexemesFrom]
    simp
  have hmake := hmakes [] []
  rw [List.append_nil] at hmake
  rw [ofText?, String.toList_ofList, hlexemes, Option.bind_some, ofLexemes?, hmake]
  rfl

/-! ### Writing -/

variable (layout : Layout)

/-- A gap may be empty. -/
theorem blank_nil : Blank [] := fun _ h => absurd h List.not_mem_nil

/-- In either layout there are only blanks between two lines. -/
theorem blank_newline (depth : Nat) : Blank (layout.newline depth) := by
  cases layout with
  | compact => exact blank_nil
  | pretty =>
    intro c hc
    rcases List.mem_cons.1 hc with rfl | hspace
    · decide
    · rw [List.eq_of_mem_replicate hspace]
      decide

/-- A quoted text is a value of the grammar. -/
theorem derives_quote (s : String) : Derives (quote s) (.value (.string (some s))) :=
  .string (stringOf_quote s)

/-- A member is written as the grammar has it, in either layout. -/
theorem derives_member {v : Json} (h : Derives cs (.value v)) (name : String) :
    Derives (layout.member name cs) (.members [(some name, v)]) := by
  rw [Layout.member, List.append_assoc]
  cases layout with
  | compact => exact .member (stringOf_quote name) blank_nil h
  | pretty =>
    have hspace : Blank [' '] := fun c hc => List.mem_cons.2 (.inl (List.mem_singleton.1 hc))
    exact .member (stringOf_quote name) blank_nil (.before hspace h)

/-- Members on lines of their own are members. -/
theorem derives_lines {depth : Nat} {texts : List (List Char)} {ms : List (Option String × Json)}
    (h : List.Forall₂ (fun cs m => Derives cs (.members [m])) texts ms) (hne : texts ≠ []) :
    Derives (layout.lines depth texts) (.members ms) := by
  induction h with
  | nil => exact absurd rfl hne
  | @cons cs m texts ms hm hrest ih =>
    have hline : Derives (layout.newline depth ++ cs) (.members [m]) :=
      .before (blank_newline layout depth) hm
    cases hrest with
    | nil => exact hline
    | cons => exact .comma hline (ih (List.cons_ne_nil _ _))

/-- **An object is written as one of the grammar**, in either layout. -/
theorem derives_object {depth : Nat} {texts : List (List Char)} {ms : List (Option String × Json)}
    (h : List.Forall₂ (fun cs m => Derives cs (.members [m])) texts ms) :
    Derives (layout.object depth texts) (.value (.object ms)) := by
  cases h with
  | nil => exact .emptyObject blank_nil
  | cons hm hrest =>
    have hlines := @derives_lines layout (depth + 1) _ _ (.cons hm hrest) (List.cons_ne_nil _ _)
    exact .object (.after (blank_newline layout depth) hlines)

end Json

end LiveSheet
