/-
**Settings as data.**  How schemas and settings are written as data values, and how they are read
back.  Every field may be left out, and then has its default.

Main definitions:

* `Schema.toJson`, `Settings.toJson` — writing;
* `Schema.ofJson`, `Settings.ofJson` — reading;
* `Schema.shape`, `Settings.shape` — the fields that a text may name once.

Main results:

* `Schema.ofJson_toJson` — a schema reads back as itself.
-/

import Chronicle.Settings

set_option autoImplicit false

namespace Chronicle

/-! ### Schemas -/

namespace Schema

/-- The fields of a schema. -/
def form : RecordForm := ⟨"CollectionSchema", ["name", "id_field", "update_time_field"]⟩

/-- The fields of a schema are plain. -/
def shape : Shape := .record (form.fields.map fun name => (name, .whole))

/-- A schema as an object. -/
def toJson (s : Schema) : Json :=
  .obj [("name", .str s.name), ("id_field", .str s.idField),
    ("update_time_field", .str s.timeField)]

/-- A schema from those of its fields that are given. -/
def ofParts (name idField timeField : Option String) : Schema :=
  let base : Schema := {}
  ⟨name.getD base.name, idField.getD base.idField, timeField.getD base.timeField⟩

/-- Reads a schema by the names of its members. -/
def ofMembers (members : List (String × Json)) : Reading Schema := do
  let idField ← Json.member? "id_field" Json.text members
  let name ← Json.member? "name" Json.text members
  let timeField ← Json.member? "update_time_field" Json.text members
  return ofParts name idField timeField

/-- Reads a schema by the order of its items. -/
def ofItems (items : List Json) : Reading Schema := do
  let name ← RecordForm.item? 0 Json.text items
  let idField ← RecordForm.item? 1 Json.text items
  let timeField ← RecordForm.item? 2 Json.text items
  return ofParts name idField timeField

/-- Reads a schema. -/
def ofJson : Json → Reading Schema := form.read ofMembers ofItems

@[simp]
theorem ofJson_toJson (s : Schema) : ofJson s.toJson = .ok s := by
  simp [ofJson, toJson, RecordForm.read, ofMembers, ofParts, Json.member?, Assoc.get?_cons,
    Json.text, Except.map, bind, Except.bind, pure, Except.pure]

end Schema

/-! ### Settings -/

namespace Settings

/-- The fields of the settings. -/
def form : RecordForm :=
  ⟨"SdkConfig", ["max_conflict_retries", "default_max_log_len", "collection"]⟩

/-- The fields of the settings, one of them being a schema. -/
def shape : Shape :=
  .record [("max_conflict_retries", .whole), ("default_max_log_len", .whole),
    ("collection", Schema.shape)]

/-- Settings as an object. -/
def toJson (s : Settings) : Json :=
  .obj [("max_conflict_retries", .natural s.maxRetries.toNat),
    ("default_max_log_len", .ofOption .ofWord64 s.maxLogLength),
    ("collection", s.collection.toJson)]

/-- Settings from those of their fields that are given. -/
def ofParts (maxRetries : Option UInt32) (maxLogLength : Option (Option UInt64))
    (collection : Option Schema) : Settings :=
  let base : Settings := {}
  ⟨maxRetries.getD base.maxRetries, maxLogLength.getD base.maxLogLength,
    collection.getD base.collection⟩

/-- Reads settings by the names of their members. -/
def ofMembers (members : List (String × Json)) : Reading Settings := do
  let collection ← Json.member? "collection" Schema.ofJson members
  let maxLogLength ← Json.member? "default_max_log_len" (Json.optional Json.countBound) members
  let maxRetries ← Json.member? "max_conflict_retries" Json.word32 members
  return ofParts maxRetries maxLogLength collection

/-- Reads settings by the order of their items. -/
def ofItems (items : List Json) : Reading Settings := do
  let maxRetries ← RecordForm.item? 0 Json.word32 items
  let maxLogLength ← RecordForm.item? 1 (Json.optional Json.countBound) items
  let collection ← RecordForm.item? 2 Schema.ofJson items
  return ofParts maxRetries maxLogLength collection

/-- Reads settings. -/
def ofJson : Json → Reading Settings := form.read ofMembers ofItems

end Settings

end Chronicle
