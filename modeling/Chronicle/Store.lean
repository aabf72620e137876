/-
**Stores.**  A store keeps the records of one collection.  Writes are conditional: an insertion
wants the name to be free, and a swap wants the version that its caller has read.  Each operation
answers, and leaves a store behind; a refused one leaves it as it was.

Main definitions:

* `Store`, `StoreError` — the records of a collection, and what can go wrong;
* `Store.load`, `Store.insert`, `Store.swap`, `Store.delete`, `Store.sweep` — the operations.

Main results:

* `Store.schema_insert` and its companions — no operation changes the schema.
-/

import Chronicle.Schema
import Chronicle.Table

set_option autoImplicit false

namespace Chronicle

/-- What can go wrong with a store. -/
inductive StoreError where
  /-- There is no such document. -/
  | notFound (id : DocumentId)
  /-- The stored version is not the one that the writer read. -/
  | versionConflict (id : DocumentId) (expected actual : UInt64)
  /-- The name is taken. -/
  | alreadyExists (id : DocumentId)
  /-- A document is to be written under a name that is not its own. -/
  | idMismatch (keyed carried : DocumentId)
  /-- A record is not the record of any document. -/
  | corrupt (collection reason : String)
  /-- Another writer left the store in the middle of a write. -/
  | lockPoisoned
deriving DecidableEq

/-- The error in words. -/
def StoreError.message : StoreError → String
  | .notFound id => "document not found: " ++ id.text
  | .versionConflict id expected actual =>
    "version conflict on " ++ id.text ++ ": expected " ++ toString expected.toNat ++ ", found " ++
      toString actual.toNat
  | .alreadyExists id => "document already exists: " ++ id.text
  | .idMismatch keyed carried =>
    "document id mismatch: keyed " ++ keyed.text ++ ", document carries " ++ carried.text
  | .corrupt collection reason => "corrupt record in " ++ collection ++ ": " ++ reason
  | .lockPoisoned => "store lock poisoned"

/-- The records of a collection. -/
structure Store where
  schema : Schema := {}
  records : Table Json := .empty

namespace Store

/-! ### Reading -/

/-- The document of a record of this collection. -/
def decode (s : Store) (record : Json) : Except StoreError Document :=
  (s.schema.restore record).mapError fun fault => .corrupt s.schema.name fault.message

/-- The document of a name, if there is one. -/
def load (s : Store) (id : DocumentId) : Except StoreError (Option Document) :=
  match s.records.get? id with
  | none => .ok none
  | some record => (s.decode record).map some

/-- Whether there is a record of a name, sound or not. -/
def contains (s : Store) (id : DocumentId) : Bool :=
  s.records.contains id

/-- The record of a name. -/
def raw? (s : Store) (id : DocumentId) : Option Json :=
  s.records.get? id

/-! ### Writing -/

/-- Writes a document under its name, which has to be free. -/
def insert (s : Store) (d : Document) : Except StoreError Unit × Store :=
  if s.records.contains d.id then (.error (.alreadyExists d.id), s)
  else (.ok (), { s with records := s.records.put d.id (s.schema.layOut d) })

/-- Replaces the document of a name, which has to be at the expected version. -/
def swap (s : Store) (id : DocumentId) (expected : UInt64) (d : Document) :
    Except StoreError Unit × Store :=
  if d.id ≠ id then (.error (.idMismatch id d.id), s)
  else match s.records.get? id with
    | none => (.error (.notFound id), s)
    | some record =>
      match s.decode record with
      | .error e => (.error e, s)
      | .ok current =>
        if current.version ≠ expected then
          (.error (.versionConflict id expected current.version), s)
        else (.ok (), { s with records := s.records.put id (s.schema.layOut d) })

/-- Removes the record of a name, and tells whether there was one. -/
def delete (s : Store) (id : DocumentId) : Except StoreError Bool × Store :=
  (.ok (s.records.contains id), { s with records := s.records.erase id })

/-- The names of those rows whose document was last changed before a deadline; every row has to hold
a document. -/
def expired (s : Store) (deadline : Timestamp) :
    List (DocumentId × Json) → Except StoreError (List DocumentId)
  | [] => .ok []
  | (id, record) :: rest => do
    let d ← s.decode record
    let others ← s.expired deadline rest
    return if d.updated.millis < deadline.millis then id :: others else others

/-- Removes every document last changed before a deadline, and tells how many there were. -/
def sweep (s : Store) (deadline : Timestamp) : Except StoreError Nat × Store :=
  match s.expired deadline s.records.rows with
  | .error e => (.error e, s)
  | .ok ids => (.ok ids.length, { s with records := ids.foldl Table.erase s.records })

/-! ### The schema stays -/

@[simp]
theorem schema_insert (s : Store) (d : Document) : (s.insert d).2.schema = s.schema := by
  unfold insert
  split <;> rfl

@[simp]
theorem schema_swap (s : Store) (id : DocumentId) (expected : UInt64) (d : Document) :
    (s.swap id expected d).2.schema = s.schema := by
  unfold swap
  split
  · rfl
  · split
    · rfl
    · split
      · rfl
      · split <;> rfl

@[simp]
theorem schema_delete (s : Store) (id : DocumentId) : (s.delete id).2.schema = s.schema := rfl

@[simp]
theorem schema_sweep (s : Store) (deadline : Timestamp) :
    (s.sweep deadline).2.schema = s.schema := by
  unfold sweep
  split <;> rfl

end Store

end Chronicle
