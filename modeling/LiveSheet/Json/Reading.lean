import LiveSheet.Json.Lexeme

namespace LiveSheet

/-!
# Reading JSON

The lexemes are taken in one by one.  A stack holds the arrays and objects that are open, so values
may be nested to any depth.

* `Json.Frame` — an open array or object.
* `Json.Expect`, `Json.State` — what may come next.
* `Json.State.step` — one lexeme.
* `Json.ofText?` — a whole text.
-/

namespace Json

/-- An array or object that is open, with its values so far, last one first. -/
inductive Frame where
  | array (items : List Json)
  | object (members : List (Option String × Json))
  /-- An object with a name that waits for its value. -/
  | field (members : List (Option String × Json)) (name : Option String)

/-- What may come next. -/
inductive Expect where
  /-- A value. -/
  | value
  /-- The first item of an array, or its end. -/
  | item
  /-- The first member of an object, or its end. -/
  | member
  /-- A member after a comma. -/
  | name
  /-- The colon after a name. -/
  | colon
  /-- A comma or the end of what is open. -/
  | next

/-- The state of reading. -/
inductive State where
  | reading (expect : Expect) (stack : List Frame)
  | done (value : Json)

namespace State

/-- A value is complete. -/
def put (v : Json) : List Frame → Option State
  | [] => some (.done v)
  | .array items :: below => some (.reading .next (.array (v :: items) :: below))
  | .field members name :: below => some (.reading .next (.object ((name, v) :: members) :: below))
  | .object _ :: _ => none

/-- The innermost array ends. -/
def closeArray : List Frame → Option State
  | .array items :: below => put (.array items.reverse) below
  | _ => none

/-- The innermost object ends. -/
def closeObject : List Frame → Option State
  | .object members :: below => put (.object members.reverse) below
  | _ => none

/-- A value starts. -/
def startValue (stack : List Frame) : Lexeme → Option State
  | .openArray => some (.reading .item (.array [] :: stack))
  | .openObject => some (.reading .member (.object [] :: stack))
  | .string text => put (.string text) stack
  | .atom v => put v stack
  | _ => none

/-- A member starts. -/
def startMember (name : Option String) : List Frame → Option State
  | .object members :: below => some (.reading .colon (.field members name :: below))
  | _ => none

/-- A comma after a value. -/
def afterComma : List Frame → Option State
  | .array items :: below => some (.reading .value (.array items :: below))
  | .object members :: below => some (.reading .name (.object members :: below))
  | _ => none

/-- Takes in one lexeme. -/
def step : State → Lexeme → Option State
  | .reading .value stack, l => startValue stack l
  | .reading .item stack, .closeArray => closeArray stack
  | .reading .item stack, l => startValue stack l
  | .reading .member stack, .closeObject => closeObject stack
  | .reading .member stack, .string name => startMember name stack
  | .reading .name stack, .string name => startMember name stack
  | .reading .colon stack, .colon => some (.reading .value stack)
  | .reading .next stack, .comma => afterComma stack
  | .reading .next stack, .closeArray => closeArray stack
  | .reading .next stack, .closeObject => closeObject stack
  | _, _ => none

/-- Takes in a list of lexemes. -/
def run (s : State) : List Lexeme → Option State
  | [] => some s
  | l :: rest =>
    match s.step l with
    | some next => next.run rest
    | none => none

end State

/-- The value that a list of lexemes makes up. -/
def ofLexemes? (ls : List Lexeme) : Option Json :=
  match State.run (.reading .value []) ls with
  | some (.done v) => some v
  | _ => none

/-- The value that a text is. -/
def ofText? (s : String) : Option Json := (lexemes s.toList).bind ofLexemes?

end Json

end LiveSheet
