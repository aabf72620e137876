/-
**Descriptions.**  Ids, entries, documents, stores and clients on one line, for logs and for people
who look for a fault.

Main definitions:

* `Id.describe`, `Timestamp.describe`, `Entry.describe`, `Document.describe`, `Store.describe`,
  `Client.describe` — the descriptions.
-/

import Chronicle.Client

set_option autoImplicit false

namespace Chronicle

/-- A value in braces, behind the name of its kind. -/
def Text.braced (name : String) (parts : List String) : String :=
  name ++ " \x7b " ++ ", ".intercalate parts ++ " \x7d"

/-- A name, quoted, behind the kind of thing it names. -/
def Id.describe {kind : IdKind} (i : Id kind) : String :=
  let name := match kind with
    | .document => "DocumentId"
    | .entry => "EntryId"
  name ++ "(" ++ Text.quoted i.text ++ ")"

/-- A time in milliseconds. -/
def Timestamp.describe (t : Timestamp) : String :=
  "Timestamp(" ++ t.text ++ ")"

/-- An entry with all its fields. -/
def Entry.describe (e : Entry) : String :=
  Text.braced "LogEntry"
    ["entry_id: " ++ e.id.describe, "deleted: " ++ (if e.deleted then "true" else "false"),
      "version: " ++ toString e.version.toNat, "update_time: " ++ e.updated.describe]

/-- A document with all its fields. -/
def Document.describe (d : Document) : String :=
  Text.braced "Document"
    ["id: " ++ d.id.describe, "version: " ++ toString d.version.toNat,
      "deleted: " ++ toString d.watermark.toNat, "update_time: " ++ d.updated.describe,
      "logs: [" ++ ", ".intercalate (d.log.map Entry.describe) ++ "]"]

/-- A store by its collection and its size. -/
def Store.describe (s : Store) : String :=
  Text.braced "InMemoryDocumentStore"
    ["collection: " ++ Text.quoted s.schema.name,
      "document_count: " ++ toString s.records.size]

/-- What edits documents, of which there is nothing to tell. -/
def Edit.describeEditor : String :=
  Text.braced "LogEngine" [".."]

/-- A client by its collection and its patience. -/
def Client.describe (settings : Settings) : String :=
  Text.braced "VersionLog"
    ["collection: " ++ Text.quoted settings.collection.name,
      "max_conflict_retries: " ++ toString settings.maxRetries.toNat, ".."]

end Chronicle
