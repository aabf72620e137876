/-
**Configuration values.**  A configuration text in TOML is a table of values.  Tables come about in
four ways, and how a table came about decides what later lines may add to it: one written in braces
is closed for good, one opened by a header takes no dotted key from elsewhere, one that a longer
header implied may still be opened, and one that a dotted key made takes further dotted keys.

Main definitions:

* `Toml.Value`, `Toml.Origin` — values, and how a table came about;
* `Toml.assign?` — gives a dotted key its value;
* `Toml.openTable?`, `Toml.openRow?` — open a table, or a further row of an array of tables;
* `Toml.assignUnder?` — gives a dotted key its value in the table opened last.
-/

import Chronicle.Assoc

set_option autoImplicit false

namespace Chronicle.Toml

/-- How a table came about. -/
inductive Origin where
  /-- By a header of its own. -/
  | header
  /-- By a header of a table inside it. -/
  | implied
  /-- By a dotted key. -/
  | dotted
  /-- By braces. -/
  | braces
deriving DecidableEq, Repr

/-- A configuration value; numbers with a fraction and points in time are kept as written. -/
inductive Value where
  | text (value : String)
  | int (value : Int)
  | float (lexeme : String)
  | bool (value : Bool)
  | moment (lexeme : String)
  | list (items : List Value)
  | table (origin : Origin) (members : List (String × Value))
  /-- An array of tables that headers opened one by one; it has at least one row. -/
  | rows (rows : List (List (String × Value)))

/-- The members of a table. -/
abbrev Members := List (String × Value)

/-- Changes the last row of an array of tables. -/
def lastRow? (f : Members → Option Members) (rows : List Members) : Option (List Members) :=
  match rows.reverse with
  | [] => none
  | row :: earlier => (f row).map fun row => (row :: earlier).reverse

/-! ### Dotted keys -/

/-- Gives a dotted key its value.  The tables on its way are made if they are missing, and may not be
closed; the last part has to be new, and to lie in a table that dotted keys may write to, which
`direct` says of this one. -/
def assign? (v : Value) (direct : Bool) : List String → Members → Option Members
  | [], _ => none
  | [key], members =>
    if direct ∧ (Assoc.get? key members).isNone then some (members ++ [(key, v)]) else none
  | key :: path, members =>
    match Assoc.get? key members with
    | none => (assign? v true path []).map fun sub => Assoc.put key (.table .dotted sub) members
    | some (.table .dotted sub) =>
      (assign? v true path sub).map fun sub => Assoc.put key (.table .dotted sub) members
    | some (.table .implied sub) =>
      (assign? v false path sub).map fun sub => Assoc.put key (.table .implied sub) members
    | some (.rows rows) =>
      (lastRow? (assign? v false path) rows).map fun rows => Assoc.put key (.rows rows) members
    | some _ => none

/-! ### Headers -/

/-- Walks a header to its last key, and changes what stands there.  The tables on its way are made if
they are missing; of an array of tables the last row is meant. -/
def under? (change : Option Value → Option Value) : List String → Members → Option Members
  | [], _ => none
  | [key], members => (change (Assoc.get? key members)).map fun v => Assoc.put key v members
  | key :: path, members =>
    match Assoc.get? key members with
    | none => (under? change path []).map fun sub => Assoc.put key (.table .implied sub) members
    | some (.table .braces _) => none
    | some (.table origin sub) =>
      (under? change path sub).map fun sub => Assoc.put key (.table origin sub) members
    | some (.rows rows) =>
      (lastRow? (under? change path) rows).map fun rows => Assoc.put key (.rows rows) members
    | some _ => none

/-- Opens a table, which has to be new or so far only implied. -/
def openTable? : List String → Members → Option Members :=
  under? fun
    | none => some (.table .header [])
    | some (.table .implied members) => some (.table .header members)
    | _ => none

/-- Opens a row of an array of tables, which has to be new or to have come about in this way. -/
def openRow? : List String → Members → Option Members :=
  under? fun
    | none => some (.rows [[]])
    | some (.rows rows) => some (.rows (rows ++ [[]]))
    | _ => none

/-- Gives a dotted key its value in the table opened last, the whole text's if none was. -/
def assignUnder? (header path : List String) (v : Value) (members : Members) : Option Members :=
  if header.isEmpty then assign? v true path members
  else under? (fun
    | some (.table origin sub) => (assign? v true path sub).map (.table origin)
    | some (.rows rows) => (lastRow? (assign? v true path) rows).map .rows
    | _ => none) header members

end Chronicle.Toml
