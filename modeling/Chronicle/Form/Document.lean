/-
**Documents as data.**  How names, times, entries and documents are written as data values, and how
they are read back.

Main definitions:

* `Id.toJson`, `Timestamp.toJson`, `Entry.toJson`, `Document.toJson` — writing;
* `Id.ofJson`, `Timestamp.ofJson`, `Entry.ofJson`, `Document.ofJson` — reading;
* `Entry.form`, `Document.form` — the fields in order, for records given as arrays;
* `Entry.shape`, `Document.shape` — the fields that a text may name once.

Main results:

* `Id.ofJson_toJson`, `Timestamp.ofJson_toJson`, `Entry.ofJson_toJson`, `Document.ofJson_toJson` —
  what is written reads back as itself.
-/

import Chronicle.Document
import Chronicle.Json.Reading
import Chronicle.Json.Shape

set_option autoImplicit false

namespace Chronicle

/-! ### Names and times -/

/-- A 64-bit word as a value. -/
def Json.ofWord64 (n : UInt64) : Json := .natural n.toNat

@[simp]
theorem Json.word64_ofWord64 (n : UInt64) : (Json.ofWord64 n).word64 = .ok n := by
  rw [Json.word64, Json.ofWord64, Json.naturalBelow_natural n.toNat_lt_size, Except.map,
    UInt64.ofNat_toNat]

/-- A name is written as its text. -/
def Id.toJson {kind : IdKind} (i : Id kind) : Json := .str i.text

/-- A name is read from a text that is not empty. -/
def Id.ofJson (kind : IdKind) (v : Json) : Reading (Id kind) := do
  let s ← v.text
  (Id.ofText kind s).mapError .emptyId

@[simp]
theorem Id.ofJson_toJson {kind : IdKind} (i : Id kind) : Id.ofJson kind i.toJson = .ok i := by
  change (Id.ofText kind i.text).mapError Refusal.emptyId = .ok i
  rw [Id.ofText_text]
  rfl

/-- A time is written as its number of milliseconds. -/
def Timestamp.toJson (t : Timestamp) : Json := .ofWord64 t.millis

/-- A time is read from a number of milliseconds. -/
def Timestamp.ofJson (v : Json) : Reading Timestamp := v.word64.map Timestamp.mk

@[simp]
theorem Timestamp.ofJson_toJson (t : Timestamp) : Timestamp.ofJson t.toJson = .ok t := by
  rw [Timestamp.ofJson, Timestamp.toJson, Json.word64_ofWord64]
  rfl

/-! ### Entries -/

namespace Entry

/-- The fields of an entry. -/
def form : RecordForm := ⟨"LogEntry", ["e_id", "deleted", "version", "update_time"]⟩

/-- The fields of an entry are plain. -/
def shape : Shape := .record (form.fields.map fun name => (name, .whole))

/-- The members of an entry. -/
def members (e : Entry) : List (String × Json) :=
  [("e_id", e.id.toJson), ("deleted", .bool e.deleted), ("version", .ofWord64 e.version),
    ("update_time", e.updated.toJson)]

/-- An entry as an object. -/
def toJson (e : Entry) : Json := .obj e.members

/-- Reads an entry by the names of its members. -/
def ofMembers (members : List (String × Json)) : Reading Entry := do
  let deleted ← Json.member? "deleted" Json.boolean members
  let id ← Json.member? "e_id" (Id.ofJson .entry) members
  let updated ← Json.member? "update_time" Timestamp.ofJson members
  let version ← Json.member? "version" Json.word64 members
  return ⟨← Json.require "e_id" id, ← Json.require "deleted" deleted,
    ← Json.require "version" version, ← Json.require "update_time" updated⟩

/-- Reads an entry by the order of its items. -/
def ofItems (items : List Json) : Reading Entry := do
  return ⟨← form.item 0 (Id.ofJson .entry) items, ← form.item 1 Json.boolean items,
    ← form.item 2 Json.word64 items, ← form.item 3 Timestamp.ofJson items⟩

/-- Reads an entry. -/
def ofJson : Json → Reading Entry := form.read ofMembers ofItems

@[simp]
theorem ofJson_toJson (e : Entry) : ofJson e.toJson = .ok e := by
  simp [ofJson, toJson, RecordForm.read, ofMembers, members, Json.member?, Assoc.get?_cons,
    Json.boolean, Json.require, Except.map, bind, Except.bind, pure, Except.pure]

end Entry

/-! ### Documents -/

namespace Document

/-- The fields of a document. -/
def form : RecordForm := ⟨"Document", ["d_id", "version", "deleted", "update_time", "logs"]⟩

/-- The fields of a document, its log being a list of entries. -/
def shape : Shape :=
  .record [("d_id", .whole), ("version", .whole), ("deleted", .whole), ("update_time", .whole),
    ("logs", .list Entry.shape)]

/-- The members of a document. -/
def members (d : Document) : List (String × Json) :=
  [("d_id", d.id.toJson), ("version", .ofWord64 d.version), ("deleted", .ofWord64 d.watermark),
    ("update_time", d.updated.toJson), ("logs", .arr (d.log.map Entry.toJson))]

/-- A document as an object. -/
def toJson (d : Document) : Json := .obj d.members

/-- Reads a document by the names of its members; the watermark and the log may be left out. -/
def ofMembers (members : List (String × Json)) : Reading Document := do
  let id ← Json.member? "d_id" (Id.ofJson .document) members
  let watermark ← Json.member? "deleted" Json.word64 members
  let log ← Json.member? "logs" (Json.list Entry.ofJson) members
  let updated ← Json.member? "update_time" Timestamp.ofJson members
  let version ← Json.member? "version" Json.word64 members
  return {
    id := ← Json.require "d_id" id
    version := ← Json.require "version" version
    watermark := watermark.getD 0
    updated := ← Json.require "update_time" updated
    log := log.getD [] }

/-- Reads a document by the order of its items; the log may be left out. -/
def ofItems (items : List Json) : Reading Document := do
  let id ← form.item 0 (Id.ofJson .document) items
  let version ← form.item 1 Json.word64 items
  let watermark ← RecordForm.item? 2 Json.word64 items
  let updated ← form.item 3 Timestamp.ofJson items
  let log ← RecordForm.item? 4 (Json.list Entry.ofJson) items
  return { id, version, watermark := watermark.getD 0, updated, log := log.getD [] }

/-- Reads a document. -/
def ofJson : Json → Reading Document := form.read ofMembers ofItems

@[simp]
theorem ofJson_toJson (d : Document) : ofJson d.toJson = .ok d := by
  simp [ofJson, toJson, RecordForm.read, ofMembers, members, Json.member?, Assoc.get?_cons,
    Json.require, Json.list_map Entry.ofJson_toJson, Except.map, bind, Except.bind, pure,
    Except.pure]

end Document

end Chronicle
