/-
**Schemas and records.**  Collections hold the same documents under different field names: the field
of the document's name and the field of the time of change, the latter on entries too, are what a
schema chooses.  A record is a document laid out under a schema.

Laying out renames the fields of the document's own form one after another, and restoring renames
them back; a schema whose names collide with other fields overwrites them, and nothing forbids such
a schema.

Main definitions:

* `Schema` — the name of a collection and its two field names;
* `Schema.layOut` — the record of a document;
* `Schema.restore`, `RecordFault` — the document of a record, or what is wrong with it.
-/

import Chronicle.Form.Document

set_option autoImplicit false

namespace Chronicle

/-- The name of a collection and the field names of its records. -/
@[ext]
structure Schema where
  /-- The collection's name, for messages. -/
  name : String := "version_log"
  /-- The field of a document's name. -/
  idField : String := "d_id"
  /-- The field of the time of change, on documents and on entries. -/
  timeField : String := "update_time"
deriving DecidableEq, Repr

/-- Why a record is not the record of any document. -/
inductive RecordFault where
  /-- It is no object. -/
  | notObject
  /-- It, or one of its entries, lacks a field of the schema. -/
  | missingField (name : String)
  /-- One of its entries is no object. -/
  | entryNotObject (index : Nat)
  /-- Its fields, under the document's own names, are not those of a document. -/
  | refused (cause : Refusal)

/-- The fault in words. -/
def RecordFault.message : RecordFault → String
  | .notObject => "record is not an object"
  | .missingField name => (Refusal.missingField name).message
  | .entryNotObject index => "log entry " ++ toString index ++ " is not an object"
  | .refused cause => cause.message

namespace Schema

/-- A collection that keeps the time of change under its usual name. -/
def updateTime (name : String) : Schema := { name }

/-- A collection that keeps the time of change as `last_update`. -/
def lastUpdate (name : String) : Schema := { name, timeField := "last_update" }

/-! ### From documents to records -/

/-- Renames the time of an entry, if the value is an object. -/
def layOutEntry (s : Schema) : Json → Json
  | .obj members => .obj (Assoc.rename "update_time" s.timeField members)
  | v => v

/-- The record of a document's members. -/
def layOutMembers (s : Schema) (members : List (String × Json)) : List (String × Json) :=
  let renamed := Assoc.rename "update_time" s.timeField (Assoc.rename "d_id" s.idField members)
  match Assoc.get? "logs" renamed with
  | some (.arr items) => Assoc.put "logs" (.arr (items.map s.layOutEntry)) renamed
  | _ => renamed

/-- The record of a document. -/
def layOut (s : Schema) (d : Document) : Json :=
  .obj (s.layOutMembers d.members)

/-! ### From records to documents -/

/-- Refuses an object for want of a field of the schema. -/
def demand (name : String) (members : List (String × Json)) : Except RecordFault Unit :=
  match Assoc.get? name members with
  | some _ => .ok ()
  | none => .error (.missingField name)

/-- Gives the entries of a log, from a given index on, the document's own field names. -/
def restoreEntries (s : Schema) (index : Nat) : List Json → Except RecordFault (List Json)
  | [] => .ok []
  | .obj members :: rest => do
    demand s.timeField members
    let rest ← s.restoreEntries (index + 1) rest
    return .obj (Assoc.rename s.timeField "update_time" members) :: rest
  | _ :: _ => .error (.entryNotObject index)

/-- Gives the members of a record the document's own field names. -/
def restoreMembers (s : Schema) (members : List (String × Json)) :
    Except RecordFault (List (String × Json)) := do
  demand s.idField members
  demand s.timeField members
  let renamed := Assoc.rename s.timeField "update_time" (Assoc.rename s.idField "d_id" members)
  match Assoc.get? "logs" renamed with
  | some (.arr items) => return Assoc.put "logs" (.arr (← s.restoreEntries 0 items)) renamed
  | _ => return renamed

/-- The document of a record. -/
def restore (s : Schema) : Json → Except RecordFault Document
  | .obj members => do
    let members ← s.restoreMembers members
    (Document.ofMembers members).mapError .refused
  | _ => .error .notObject

end Schema

end Chronicle
