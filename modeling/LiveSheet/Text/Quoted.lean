import LiveSheet.Text.Unprintable

namespace LiveSheet

/-!
# Quoted texts

A text in double quotes, as error messages show it.

* `quotedChar` — a character inside the quotes: a backslash form for quotes, backslashes and the
  common controls, a code point in braces for what has no visible form, else the character itself.
* `quoted` — the whole text.
-/

/-- A character as it stands inside a quoted text. -/
def quotedChar (c : Char) : List Char :=
  if c = '"' then ['\\', '"']
  else if c = '\\' then ['\\', '\\']
  else if c = '\n' then ['\\', 'n']
  else if c = '\r' then ['\\', 'r']
  else if c = '\t' then ['\\', 't']
  else if c = '\x00' then ['\\', '0']
  else if isUnprintable c then ['\\', 'u', '\x7b'] ++ Nat.toDigits 16 c.toNat ++ ['\x7d']
  else [c]

/-- A text in double quotes. -/
def quoted (s : String) : String :=
  String.ofList (('"' :: s.toList.flatMap quotedChar) ++ ['"'])

end LiveSheet
