/-
**Views as data.**  How queries, views and the reasons for withholding one are written as data
values, and how they are read back.

Main definitions:

* `Query.toJson`, `Suppression.toJson`, `View.toJson` — writing;
* `Query.ofJson`, `Suppression.ofJson`, `View.ofJson` — reading;
* `Query.shape`, `Suppression.shape`, `View.shape` — the fields that a text may name once.
-/

import Chronicle.Form.Document
import Chronicle.View

set_option autoImplicit false

namespace Chronicle

/-! ### Queries -/

namespace Query

/-- The fields of a query. -/
def form : RecordForm := ⟨"ViewQuery", ["min_version", "max_allowed_len"]⟩

/-- The fields of a query are plain. -/
def shape : Shape := .record (form.fields.map fun name => (name, .whole))

/-- A query as an object. -/
def toJson (q : Query) : Json :=
  .obj [("min_version", .ofWord64 q.since), ("max_allowed_len", .ofOption .ofWord64 q.limit)]

/-- Reads a query by the names of its members; a limit left out is no limit. -/
def ofMembers (members : List (String × Json)) : Reading Query := do
  let limit ← Json.member? "max_allowed_len" (Json.optional Json.countBound) members
  let since ← Json.member? "min_version" Json.word64 members
  return ⟨← Json.require "min_version" since, limit.join⟩

/-- Reads a query by the order of its items. -/
def ofItems (items : List Json) : Reading Query := do
  return ⟨← form.item 0 Json.word64 items, ← form.item 1 (Json.optional Json.countBound) items⟩

/-- Reads a query. -/
def ofJson : Json → Reading Query := form.read ofMembers ofItems

end Query

/-! ### Reasons -/

namespace Suppression

/-- The names of the reasons. -/
inductive Reason where
  | stale
  | reset
  | tooLarge
deriving DecidableEq, Repr

/-- Reads the name of a reason. -/
def Reason.ofJson : Json → Reading Reason
  | .str "stale" => .ok .stale
  | .str "reset" => .ok .reset
  | .str "too_large" => .ok .tooLarge
  | .str s => .error (.unknownReason s)
  | v => .error (.wrongType v .reason)

/-- A reason names its case, and one case has two counts of its own. -/
def shape : Shape :=
  .tagged "reason" [("too_large", ["log_len", "max_allowed_len"])]

/-- A reason as an object. -/
def toJson : Suppression → Json
  | .stale => .obj [("reason", .str "stale")]
  | .reset => .obj [("reason", .str "reset")]
  | .tooLarge found allowed =>
    .obj [("reason", .str "too_large"), ("log_len", .natural found),
      ("max_allowed_len", .ofWord64 allowed)]

/-- Reads a reason by the names of its members. -/
def ofMembers (members : List (String × Json)) : Reading Suppression := do
  let reason ← Json.require "reason" (Assoc.get? "reason" members)
  match ← Reason.ofJson reason with
  | .stale => return .stale
  | .reset => return .reset
  | .tooLarge =>
    let found ← Json.member? "log_len" Json.count members
    let allowed ← Json.member? "max_allowed_len" Json.countBound members
    return .tooLarge (← Json.require "log_len" found) (← Json.require "max_allowed_len" allowed)

/-- Refuses fields beyond those of the case. -/
def close (n : Nat) (fields : List Json) : Reading Unit :=
  if n < fields.length then .error (.wrongLength fields.length (.exactly n)) else .ok ()

/-- Reads a field of the case with counts. -/
def field {α : Type} (i : Nat) (read : Json → Reading α) (fields : List Json) : Reading α := do
  match ← RecordForm.item? i read fields with
  | some a => return a
  | none => throw (.wrongLength i .tooLarge)

/-- Reads a reason by the order of its items, its name first. -/
def ofItems : List Json → Reading Suppression
  | [] => .error (.missingField "reason")
  | reason :: fields => do
    match ← Reason.ofJson reason with
    | .stale => close 0 fields; return .stale
    | .reset => close 0 fields; return .reset
    | .tooLarge =>
      let found ← field 0 Json.count fields
      let allowed ← field 1 Json.countBound fields
      close 2 fields
      return .tooLarge found allowed

/-- Reads a reason. -/
def ofJson : Json → Reading Suppression
  | .obj members => ofMembers members
  | .arr items => ofItems items
  | v => .error (.wrongType v .suppression)

end Suppression

/-! ### Views -/

namespace View

/-- The fields of a view. -/
def form : RecordForm :=
  ⟨"ChangeLog", ["version", "deleted", "update_time", "log_len", "logs", "suppressed"]⟩

/-- The fields of a view, its log being a list of entries. -/
def shape : Shape :=
  .record [("version", .whole), ("deleted", .whole), ("update_time", .whole), ("log_len", .whole),
    ("logs", .list Entry.shape), ("suppressed", Suppression.shape)]

/-- A view as an object. -/
def toJson (v : View) : Json :=
  .obj [("version", .ofWord64 v.version), ("deleted", .ofWord64 v.watermark),
    ("update_time", v.updated.toJson), ("log_len", .natural v.found),
    ("logs", .arr (v.log.map Entry.toJson)),
    ("suppressed", .ofOption Suppression.toJson v.suppressed)]

/-- Reads a view by the names of its members; a reason left out is none. -/
def ofMembers (members : List (String × Json)) : Reading View := do
  let watermark ← Json.member? "deleted" Json.word64 members
  let found ← Json.member? "log_len" Json.count members
  let log ← Json.member? "logs" (Json.list Entry.ofJson) members
  let suppressed ← Json.member? "suppressed" (Json.optional Suppression.ofJson) members
  let updated ← Json.member? "update_time" Timestamp.ofJson members
  let version ← Json.member? "version" Json.word64 members
  return {
    version := ← Json.require "version" version
    watermark := ← Json.require "deleted" watermark
    updated := ← Json.require "update_time" updated
    found := ← Json.require "log_len" found
    log := ← Json.require "logs" log
    suppressed := suppressed.join }

/-- Reads a view by the order of its items. -/
def ofItems (items : List Json) : Reading View := do
  return ⟨← form.item 0 Json.word64 items, ← form.item 1 Json.word64 items,
    ← form.item 2 Timestamp.ofJson items, ← form.item 3 Json.count items,
    ← form.item 4 (Json.list Entry.ofJson) items,
    ← form.item 5 (Json.optional Suppression.ofJson) items⟩

/-- Reads a view. -/
def ofJson : Json → Reading View := form.read ofMembers ofItems

end View

end Chronicle
