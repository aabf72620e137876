/-
**Data values.**  The values that records, requests and settings are made of: null, truth values,
numbers, texts, arrays and objects.  An object is a list of named members; a look-up finds the
first member of a name.

Main definitions:

* `Number`, `Json` — numbers and values;
* `Json.natural` — a natural number as a value.
-/

set_option autoImplicit false

namespace Chronicle

/-- A number is an integer, or it is a double. -/
inductive Number where
  | int (value : Int)
  | float (value : Float)

/-- A data value. -/
inductive Json where
  | null
  | bool (value : Bool)
  | num (value : Number)
  | str (value : String)
  | arr (items : List Json)
  | obj (members : List (String × Json))

namespace Json

instance : Inhabited Json := ⟨.null⟩

/-- An integer as a value. -/
def int (n : Int) : Json := .num (.int n)

/-- A natural number as a value. -/
def natural (n : Nat) : Json := .num (.int n)

/-- A value that may be missing, `null` when it is. -/
def ofOption {α : Type} (write : α → Json) : Option α → Json
  | none => .null
  | some a => write a

end Json

end Chronicle
