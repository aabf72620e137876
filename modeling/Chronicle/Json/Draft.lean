/-
**Drafts.**  A draft is the tree of a data text with nothing checked but its grammar: an object may
name a member twice, a string may not be text, a number may be out of range, and nesting has no
bound.  A draft is built by a machine with a stack of open brackets, so that no depth is too great.

Main definitions:

* `Draft` — the tree of a text;
* `Draft.parse?` — the tree of a text, if it has one;
* `Draft.toJson?` — the value of a tree, if its strings and numbers have one and its brackets are
  not nested too deeply;
* `Json.parse?` — the value of a text.
-/

import Chronicle.Json.Token
import Chronicle.Assoc

set_option autoImplicit false

namespace Chronicle

/-- The tree of a data text. -/
inductive Draft where
  | null
  | bool (value : Bool)
  | num (numeral : Numeral)
  | str (fragments : List Fragment)
  | arr (items : List Draft)
  | obj (members : List (List Fragment × Draft))

namespace Draft

/-! ### Building -/

/-- An open bracket with what stands in it so far, the last first. -/
inductive Frame where
  | arr (items : List Draft)
  | obj (members : List (List Fragment × Draft))
  /-- An object with a member that has its name and lacks its value. -/
  | member (members : List (List Fragment × Draft)) (name : List Fragment)

/-- What the next token has to be. -/
inductive Expected where
  /-- A value. -/
  | value
  /-- A value or the end of the array just opened. -/
  | firstItem
  /-- A name or the end of the object just opened. -/
  | firstName
  /-- A name. -/
  | name
  /-- The colon after a name. -/
  | colon
  /-- A comma or a closing bracket; nothing, if no bracket is open. -/
  | separator

/-- The machine: the open brackets, innermost first, what comes next, and the finished tree. -/
structure Builder where
  stack : List Frame
  expected : Expected
  result : Option Draft

namespace Builder

/-- Hands a finished value to the innermost open bracket. -/
def deliver? (stack : List Frame) (v : Draft) : Option Builder :=
  match stack with
  | [] => some ⟨[], .separator, some v⟩
  | .arr items :: rest => some ⟨.arr (v :: items) :: rest, .separator, none⟩
  | .member members name :: rest => some ⟨.obj ((name, v) :: members) :: rest, .separator, none⟩
  | .obj _ :: _ => none

/-- The step on a token where a value may begin. -/
def value? (stack : List Frame) : Token → Option Builder
  | .null => deliver? stack .null
  | .bool b => deliver? stack (.bool b)
  | .num n => deliver? stack (.num n)
  | .str fs => deliver? stack (.str fs)
  | .openArray => some ⟨.arr [] :: stack, .firstItem, none⟩
  | .openObject => some ⟨.obj [] :: stack, .firstName, none⟩
  | _ => none

/-- The step on a closing bracket, which has to match the innermost open one. -/
def close? : List Frame → Token → Option Builder
  | .arr items :: rest, .closeArray => deliver? rest (.arr items.reverse)
  | .obj members :: rest, .closeObject => deliver? rest (.obj members.reverse)
  | _, _ => none

/-- The step on the name of a member. -/
def name? : List Frame → Token → Option Builder
  | .obj members :: rest, .str fs => some ⟨.member members fs :: rest, .colon, none⟩
  | _, _ => none

/-- One step of the machine. -/
def step? (b : Builder) (t : Token) : Option Builder :=
  match b.expected with
  | .value => value? b.stack t
  | .firstItem => if t = .closeArray then close? b.stack t else value? b.stack t
  | .firstName => if t = .closeObject then close? b.stack t else name? b.stack t
  | .name => name? b.stack t
  | .colon => if t = .colon then some ⟨b.stack, .value, none⟩ else none
  | .separator =>
    if t = .comma then
      match b.stack with
      | .arr _ :: _ => some ⟨b.stack, .value, none⟩
      | .obj _ :: _ => some ⟨b.stack, .name, none⟩
      | _ => none
    else close? b.stack t

end Builder

/-- The tree of a list of tokens. -/
def ofTokens? (tokens : List Token) : Option Draft :=
  (tokens.foldlM Builder.step? ⟨[], .value, none⟩).bind (·.result)

/-- The tree of a text. -/
def parse? (text : String) : Option Draft :=
  (Token.scan? text).bind ofTokens?

/-! ### Values -/

/-- The value of a tree with at most `depth` brackets around one another.  Of members with one name
the last counts. -/
def toJson? : Nat → Draft → Option Json
  | _, .null => some .null
  | _, .bool b => some (.bool b)
  | _, .num n => n.value?.map .num
  | _, .str fs => (Fragment.text? fs).map .str
  | 0, .arr _ => none
  | 0, .obj _ => none
  | depth + 1, .arr items => (items.mapM (toJson? depth)).map .arr
  | depth + 1, .obj members => do
    let members ← members.mapM fun (name, v) => do
      return (← Fragment.text? name, ← toJson? depth v)
    return .obj (members.foldl (fun m (name, v) => Assoc.put name v m) [])

end Draft

/-- The deepest nesting of brackets that is read. -/
def Json.maxDepth : Nat := 127

/-- The value of a text. -/
def Json.parse? (text : String) : Option Json :=
  (Draft.parse? text).bind (Draft.toJson? Json.maxDepth)

end Chronicle
