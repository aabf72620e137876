/-
**Tables.**  A table holds one row for each of finitely many documents, in the order in which they
came.

Main definitions:

* `Table` — rows under document names, no name twice;
* `Table.get?`, `Table.put`, `Table.erase`, `Table.ids` — look up, write and remove a row, and the
  names in order.

Main results:

* `Table.get?_put`, `Table.get?_erase`, `Table.get?_empty` — what each operation does to look-ups.
-/

import Chronicle.Assoc
import Chronicle.Id

set_option autoImplicit false

namespace Chronicle

/-- Rows under document names, no name twice. -/
structure Table (α : Type) where
  rows : List (DocumentId × α)
  nodup : (rows.map (·.1)).Nodup

namespace Table

variable {α : Type}

/-- The table without rows. -/
def empty : Table α := ⟨[], .nil⟩

/-- The row of a document. -/
def get? (t : Table α) (id : DocumentId) : Option α :=
  Assoc.get? id t.rows

/-- Whether a document has a row. -/
def contains (t : Table α) (id : DocumentId) : Bool :=
  (t.get? id).isSome

/-- Gives a document a row, in place of the one it has. -/
def put (t : Table α) (id : DocumentId) (row : α) : Table α :=
  ⟨Assoc.put id row t.rows, Assoc.keys_put_nodup t.nodup⟩

/-- Removes the row of a document. -/
def erase (t : Table α) (id : DocumentId) : Table α :=
  ⟨Assoc.erase id t.rows, Assoc.keys_erase_nodup t.nodup⟩

/-- How many rows there are. -/
def size (t : Table α) : Nat :=
  t.rows.length

/-- The names of the documents with a row, in ascending order. -/
def ids (t : Table α) : List DocumentId :=
  Id.sort (t.rows.map (·.1))

@[simp]
theorem get?_empty (id : DocumentId) : (empty : Table α).get? id = none := rfl

@[simp]
theorem get?_put (t : Table α) (id id' : DocumentId) (row : α) :
    (t.put id' row).get? id = if id' = id then some row else t.get? id :=
  Assoc.get?_put id id' row t.rows

@[simp]
theorem get?_erase (t : Table α) (id id' : DocumentId) :
    (t.erase id').get? id = if id' = id then none else t.get? id :=
  Assoc.get?_erase id id' t.rows

end Table

end Chronicle
