/-
**Quoted text.**  Messages and descriptions show a text between quotation marks, with every
character that would not show as itself spelled out.

Main definitions:

* `Text.escape` — how one character stands in a quoted text;
* `Text.quoted` — a text between quotation marks.
-/

import Chronicle.Text.Printable

set_option autoImplicit false

namespace Chronicle.Text

/-- A number in lower-case hexadecimal, without leading zeros. -/
def hex (n : Nat) : String :=
  String.ofList (Nat.toDigits 16 n)

/-- How a character stands in a quoted text: the quotation mark and the backslash behind a
backslash, four controls by a letter, what is not printable by its code point. -/
def escape (c : Char) : String :=
  if c = '"' then "\\\""
  else if c = '\\' then "\\\\"
  else if c = '\x00' then "\\0"
  else if c = '\t' then "\\t"
  else if c = '\n' then "\\n"
  else if c = '\r' then "\\r"
  else if isPrintable c then c.toString
  else "\\u\x7b" ++ hex c.toNat ++ "\x7d"

/-- A text between quotation marks. -/
def quoted (s : String) : String :=
  "\"" ++ String.join (s.toList.map escape) ++ "\""

end Chronicle.Text
