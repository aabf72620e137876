/-
**Reading values.**  Readers for the plain kinds of value, and the two ways in which a record is
read: from an object by the names of its members, and from an array by their order.

The members of an object are taken one after another, and the first that is refused decides; only
then are the missing ones noticed.  Unknown members count for nothing.

Main definitions:

* `Reading` — a value read, or the refusal;
* `Json.word64`, `Json.word32`, `Json.count`, `Json.boolean`, `Json.text`, `Json.list`,
  `Json.optional` — readers;
* `Json.member?`, `Json.require` — a member of an object, and the demand for it;
* `RecordForm`, `RecordForm.item`, `RecordForm.item?`, `RecordForm.close` — items of an array.

Main results:

* `Json.naturalBelow_natural`, `Json.list_map` — numbers in range, and lists of what reads back, read
  back.
-/

import Chronicle.Assoc
import Chronicle.Json.Refusal

set_option autoImplicit false

namespace Chronicle

/-- What was read, or why nothing was. -/
abbrev Reading (α : Type) := Except Refusal α

namespace Json

/-! ### Plain values -/

/-- Reads a natural number below a bound. -/
def naturalBelow (bound : Nat) (wanted : Wanted) : Json → Reading Nat
  | .num (.int (.ofNat n)) => if n < bound then .ok n else .error (.outOfRange n wanted)
  | .num (.int n) => .error (.outOfRange n wanted)
  | v => .error (.wrongType v wanted)

theorem naturalBelow_natural {n bound : Nat} {wanted : Wanted} (h : n < bound) :
    naturalBelow bound wanted (natural n) = .ok n :=
  if_pos h

/-- Reads a 64-bit word. -/
def word64 (v : Json) : Reading UInt64 :=
  (naturalBelow UInt64.size .word64 v).map UInt64.ofNat

/-- Reads a 32-bit word. -/
def word32 (v : Json) : Reading UInt32 :=
  (naturalBelow UInt32.size .word32 v).map UInt32.ofNat

/-- Reads a count of things. -/
def count (v : Json) : Reading Nat :=
  naturalBelow UInt64.size .count v

/-- Reads a bound on a count of things. -/
def countBound (v : Json) : Reading UInt64 :=
  (count v).map UInt64.ofNat

/-- Reads a truth value. -/
def boolean : Json → Reading Bool
  | .bool b => .ok b
  | v => .error (.wrongType v .boolean)

/-- Reads a text. -/
def text : Json → Reading String
  | .str s => .ok s
  | v => .error (.wrongType v .text)

/-- Reads an array of values of one kind. -/
def list {α : Type} (read : Json → Reading α) : Json → Reading (List α)
  | .arr items => items.mapM read
  | v => .error (.wrongType v .sequence)

/-- What reads back one by one reads back as a list. -/
theorem list_map {α : Type} {read : Json → Reading α} {write : α → Json}
    (h : ∀ a, read (write a) = .ok a) (l : List α) :
    list read (.arr (l.map write)) = .ok l := by
  rw [list]
  induction l with
  | nil => rfl
  | cons a l ih =>
      rw [List.map_cons, List.mapM_cons, h a, ih]
      rfl

/-- Reads a value that may be `null`. -/
def optional {α : Type} (read : Json → Reading α) : Json → Reading (Option α)
  | .null => .ok none
  | v => (read v).map some

/-! ### Members of an object -/

/-- Reads a member of an object, if it is there. -/
def member? {α : Type} (name : String) (read : Json → Reading α)
    (members : List (String × Json)) : Reading (Option α) :=
  match Assoc.get? name members with
  | none => .ok none
  | some v => (read v).map some

/-- Refuses an object for want of a member. -/
def require {α : Type} (name : String) : Option α → Reading α
  | some a => .ok a
  | none => .error (.missingField name)

end Json

/-! ### Items of an array -/

/-- The name of a kind of record, and its fields in order. -/
structure RecordForm where
  name : String
  fields : List String

namespace RecordForm

/-- Reads an item of a record given as an array, if it is there. -/
def item? {α : Type} (i : Nat) (read : Json → Reading α) (items : List Json) :
    Reading (Option α) :=
  match items[i]? with
  | none => .ok none
  | some v => (read v).map some

/-- Reads an item of a record given as an array, and refuses the array if it is not there. -/
def item {α : Type} (form : RecordForm) (i : Nat) (read : Json → Reading α)
    (items : List Json) : Reading α := do
  match ← item? i read items with
  | some a => return a
  | none => throw (.wrongLength i (.record form.name form.fields.length))

/-- Refuses an array with more items than the record has fields. -/
def close (form : RecordForm) (items : List Json) : Reading Unit :=
  if form.fields.length < items.length then .error (.wrongLength items.length .fewer) else .ok ()

/-- Reads a record from an object by names, or from an array by order. -/
def read {α : Type} (form : RecordForm) (ofMembers : List (String × Json) → Reading α)
    (ofItems : List Json → Reading α) : Json → Reading α
  | .obj members => ofMembers members
  | .arr items => do
    let a ← ofItems items
    form.close items
    return a
  | v => .error (.wrongType v (.record form.name))

end RecordForm

end Chronicle
