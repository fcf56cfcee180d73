import LiveSheet.Toml.Number

namespace LiveSheet

/-!
# Reading TOML

* `Toml.scanKey` — a key: names with dots between them.
* `Toml.scanValue` — a value; arrays and inline tables are nested less than `maxDepth` deep.
* `Toml.Statement` — a line that says something: a header of a table or of an array of tables, or a
  key with a value.
* `Toml.statements?` — all statements of a document.
-/

namespace Toml

/-- Arrays and inline tables are nested less than this deep, and keys have fewer parts. -/
def maxDepth : Nat := 80

/-! ### Keys -/

/-- Whether a character may stand in a name without quotes. -/
def isBare (c : Char) : Bool := c.isAlphanum || c == '-' || c == '_'

/-- One name of a key. -/
def scanName : List Char → Option (String × List Char)
  | [] => none
  | c :: rest =>
    if c = '"' ∨ c = '\'' then scanShortString (c :: rest)
    else
      match (c :: rest).takeWhile isBare with
      | [] => none
      | name => some (String.ofList name, (c :: rest).dropWhile isBare)

/-- A key with at most the given number of names, with white space around each. -/
def scanNames : Nat → List Char → Option (List String × List Char)
  | 0, _ => none
  | budget + 1, cs => do
    let name ← scanName (skipSpace cs)
    match skipSpace name.2 with
    | '.' :: rest => do
      let more ← scanNames budget rest
      some (name.1 :: more.1, more.2)
    | rest => some ([name.1], rest)

/-- A key. -/
def scanKey (cs : List Char) : Option (List String × List Char) := scanNames (maxDepth - 1) cs

/-! ### Inline tables -/

/-- The table that a key stands for: nested tables with the value at the end. -/
def nest : List String → Toml → Toml
  | [], v => v
  | name :: rest, v => .table true [(name, nest rest v)]

/-- Puts a value under a key of a table.  A key that is there already may only be extended, and only
    if it was made by keys with dots. -/
def assign (entries : List (String × Toml)) : List String → Toml → Option (List (String × Toml))
  | [], _ => none
  | name :: path, v =>
    match entries.lookup name with
    | none => some (entries ++ [(name, nest path v)])
    | some (.table true inner) =>
      if path = [] then none
      else
        (assign inner path v).map fun inner =>
          entries.map fun entry =>
            if entry.1 = name then (name, .table true inner) else entry
    | some _ => none

/-! ### Comments -/

/-- A text without the comment it starts with. -/
def skipComment : List Char → List Char
  | '#' :: rest => rest.dropWhile isPlain
  | cs => cs

/-- A text without the white space, comments and line ends it starts with; a comment needs a line
    end.  The number bounds how many lines are skipped; the length of the text is enough. -/
def skipLines : Nat → List Char → Option (List Char)
  | 0, cs => some cs
  | bound + 1, cs =>
    match skipSpace cs with
    | '#' :: rest =>
      match lineEnd? (rest.dropWhile isPlain) with
      | some rest => skipLines bound rest
      | none => none
    | '\n' :: rest => skipLines bound rest
    | '\r' :: rest =>
      match lineEnd? ('\r' :: rest) with
      | some rest => skipLines bound rest
      | none => none
    | rest => some rest

/-! ### Values -/

/-- A scanner for values. -/
abbrev ValueScanner := List Char → Option (Toml × List Char)

/-- The items of an array, from where an item may start; `bound` bounds their number and the length
    of the text. -/
def scanItems (scan : ValueScanner) : Nat → List Toml → ValueScanner
  | 0, _, _ => none
  | bound + 1, items, cs => do
    match ← skipLines bound cs with
    | ']' :: rest => some (.array items.reverse, rest)
    | cs => do
      let item ← scan cs
      match ← skipLines bound item.2 with
      | ',' :: rest => scanItems scan bound (item.1 :: items) rest
      | ']' :: rest => some (.array (item.1 :: items).reverse, rest)
      | _ => none

/-- The entries of an inline table, from where an entry has to start; `bound` bounds their
    number. -/
def scanEntries (scan : ValueScanner) : Nat → List (String × Toml) → ValueScanner
  | 0, _, _ => none
  | bound + 1, entries, cs => do
    let key ← scanKey cs
    match key.2 with
    | '=' :: rest => do
      let value ← scan (skipSpace rest)
      let entries ← assign entries key.1 value.1
      match skipSpace value.2 with
      | ',' :: rest => scanEntries scan bound entries rest
      | '\x7d' :: rest => some (.table false entries, rest)
      | _ => none
    | _ => none

/-- Takes a word off. -/
def scanWord (word : List Char) (v : Toml) (cs : List Char) : Option (Toml × List Char) :=
  if word.isPrefixOf cs then some (v, cs.drop word.length) else none

/-- A value that is neither an array nor an inline table and starts with the given character. -/
def scanPlain (c : Char) (cs : List Char) : Option (Toml × List Char) :=
  if c = '"' ∨ c = '\'' then (scanString cs).map fun s => (.string s.1, s.2)
  else if c = 't' then scanWord ['t', 'r', 'u', 'e'] (.bool true) cs
  else if c = 'f' then scanWord ['f', 'a', 'l', 's', 'e'] (.bool false) cs
  else if startsDate cs || startsTime cs then scanMoment cs
  else scanNumber cs

/-- A value in a text of at most `bound` characters, with arrays and inline tables nested at most
    `depth` deep. -/
def scanNested (bound : Nat) : Nat → ValueScanner
  | _, [] => none
  | 0, c :: rest => if c = '[' ∨ c = '\x7b' then none else scanPlain c (c :: rest)
  | depth + 1, c :: rest =>
    if c = '[' then scanItems (scanNested bound depth) bound [] rest
    else if c = '\x7b' then
      match skipSpace rest with
      | '\x7d' :: rest => some (.table false [], rest)
      | _ => scanEntries (scanNested bound depth) bound [] rest
    else scanPlain c (c :: rest)

/-- A value in a text of at most `bound` characters. -/
def scanValue (bound : Nat) : ValueScanner := scanNested bound (maxDepth - 1)

/-! ### Documents -/

/-- A line that says something. -/
inductive Statement where
  /-- What follows belongs to a table. -/
  | table (key : List String)
  /-- What follows belongs to a new item of an array of tables. -/
  | item (key : List String)
  /-- A key has a value. -/
  | entry (key : List String) (value : Toml)

/-- The end of a statement: white space, perhaps a comment, then a line end or the end of the
    text. -/
def scanEnd (cs : List Char) : Option (List Char) :=
  match skipComment (skipSpace cs) with
  | [] => some []
  | cs => lineEnd? cs

/-- A header, from after its opening bracket. -/
def scanHeader : List Char → Option (Statement × List Char)
  | '[' :: rest => do
    let key ← scanKey rest
    match key.2 with
    | ']' :: ']' :: rest => some (.item key.1, rest)
    | _ => none
  | cs => do
    let key ← scanKey cs
    match key.2 with
    | ']' :: rest => some (.table key.1, rest)
    | _ => none

/-- A key with its value. -/
def scanEntry (bound : Nat) (cs : List Char) : Option (Statement × List Char) := do
  let key ← scanKey cs
  match key.2 with
  | '=' :: rest => do
    let value ← scanValue bound (skipSpace rest)
    some (.entry key.1 value.1, value.2)
  | _ => none

/-- A statement, without its end. -/
def scanStatement (bound : Nat) : List Char → Option (Statement × List Char)
  | '[' :: rest => scanHeader rest
  | cs => scanEntry bound cs

/-- The statements of a text, after those found so far, last one first; `bound` bounds the number of
    lines and the length of the text. -/
def scanStatements : Nat → List Statement → List Char → Option (List Statement)
  | 0, _, _ => none
  | bound + 1, found, cs =>
    match skipSpace cs with
    | [] => some found.reverse
    | '#' :: rest => (scanEnd ('#' :: rest)).bind (scanStatements bound found)
    | '\n' :: rest => scanStatements bound found rest
    | '\r' :: rest => (lineEnd? ('\r' :: rest)).bind (scanStatements bound found)
    | cs =>
      match scanStatement bound cs with
      | some (statement, rest) =>
        (scanEnd rest).bind (scanStatements bound (statement :: found))
      | none => none

/-- A text without the mark that may stand at its start. -/
def skipMark : List Char → List Char
  | '\ufeff' :: rest => rest
  | cs => cs

/-- The statements of a document. -/
def statements? (s : String) : Option (List Statement) :=
  let cs := skipMark s.toList
  scanStatements (cs.length + 1) [] cs

end Toml

end LiveSheet
