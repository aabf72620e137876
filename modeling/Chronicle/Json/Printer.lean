/-
**Writing values.**  A value as a text on one line, without blanks.

Main definitions:

* `Number.text` — a number, an integer in decimal, a double by its shortest decimal;
* `Json.render` — a value as a text.
-/

import Chronicle.Decimal.Written
import Chronicle.Json.Basic

set_option autoImplicit false

namespace Chronicle

/-- Doubles are written in full from the fifth place behind the point to the sixteenth before it, and
else with a power of ten. -/
def Number.style : Decimal.Style := ⟨-5, 15⟩

/-- A double by its shortest decimal. -/
def Number.floatText (x : Float) : String :=
  let (negative, d) := Decimal.ofFloat x
  (if negative then "-" else "") ++ d.write Number.style

/-- A number as a text. -/
def Number.text : Number → String
  | .int n => toString n
  | .float x => Number.floatText x

namespace Json

/-- How a character stands in a written string. -/
def escape (c : Char) : String :=
  if c = '"' then "\\\""
  else if c = '\\' then "\\\\"
  else if c.toNat < 0x20 then "\\u00" ++ toString (c.toNat / 16) ++
    String.ofList (Nat.toDigits 16 (c.toNat % 16))
  else c.toString

/-- A text as a written string. -/
def renderText (s : String) : String :=
  "\"" ++ String.join (s.toList.map escape) ++ "\""

mutual

/-- A value as a text. -/
def render : Json → String
  | .null => "null"
  | .bool b => if b then "true" else "false"
  | .num n => n.text
  | .str s => renderText s
  | .arr items => "[" ++ ",".intercalate (renderItems items) ++ "]"
  | .obj members => "\x7b" ++ ",".intercalate (renderMembers members) ++ "\x7d"

/-- The items of an array, each as a text. -/
def renderItems : List Json → List String
  | [] => []
  | v :: rest => render v :: renderItems rest

/-- The members of an object, each as a text. -/
def renderMembers : List (String × Json) → List String
  | [] => []
  | (name, v) :: rest => (renderText name ++ ":" ++ render v) :: renderMembers rest

end

end Json

end Chronicle
