/-
**Edits.**  A document changes by edits only.  Each edit takes the whole document, at a reading of
the clock, to a whole new document whose version is one higher; a document at the last version
there is takes no edit.

Main definitions:

* `Edit` — the three kinds of change: a live entry, a tombstone, a batch;
* `EditError` — why an edit is refused;
* `Document.edit` — what an edit makes of a document.

Main results:

* `Document.nextVersion_eq_ok_iff` — an edit finds a next version iff the last is not yet reached.
-/

import Chronicle.Document

set_option autoImplicit false

namespace Chronicle

/-- A change to a document's log. -/
inductive Edit where
  /-- Writes a live entry: in place of the first one so tagged, or else at the end. -/
  | upsert (id : EntryId)
  /-- Writes a tombstone, placed as a live entry would be. -/
  | markDeleted (id : EntryId)
  /-- Drops the entries tagged in `remove` or in `append`, then appends `append`, of which a
  repeated tag counts once. -/
  | replace (remove : List EntryId) (append : List Entry)
deriving DecidableEq

/-- Why an edit is refused. -/
inductive EditError where
  /-- The document is at the last version there is. -/
  | versionOverflow (id : DocumentId)
deriving DecidableEq

/-- The refusal in words. -/
def EditError.message : EditError → String
  | .versionOverflow id =>
    "document " ++ id.text ++ " is at the maximum version and accepts no further writes"

/-! ### Parts of an edit -/

/-- An entry as an edit writes it, whatever version and time it came with. -/
def Entry.stamp (e : Entry) (version : UInt64) (now : Timestamp) : Entry :=
  { e with version, updated := now }

/-- The entries whose tag does not occur earlier in the list or among `seen`. -/
def Entry.firstOccurrences (seen : List EntryId) : List Entry → List Entry
  | [] => []
  | e :: rest =>
    if seen.contains e.id then firstOccurrences seen rest
    else e :: firstOccurrences (e.id :: seen) rest

namespace Document

/-- The version after the present one, if there is one. -/
def nextVersion (d : Document) : Except EditError UInt64 :=
  if d.version.toNat + 1 < UInt64.size then .ok (d.version + 1) else .error (.versionOverflow d.id)

theorem nextVersion_eq_ok_iff (d : Document) (v : UInt64) :
    d.nextVersion = .ok v ↔ v.toNat = d.version.toNat + 1 := by
  unfold nextVersion
  split
  · next h =>
      have hv : (d.version + 1).toNat = d.version.toNat + 1 :=
        (UInt64.toNat_add _ _).trans (Nat.mod_eq_of_lt h)
      rw [Except.ok.injEq, ← UInt64.toNat_inj, hv]
      exact eq_comm
  · next h =>
      have := v.toNat_lt_size
      simp only [reduceCtorEq, false_iff]
      omega

/-- Puts an entry in place of the first one with its tag, or at the end if there is none. -/
def place (d : Document) (e : Entry) : List Entry :=
  match d.position? e.id.text with
  | some i => d.log.set i e
  | none => d.log ++ [e]

/-- The document with one entry written at its next version. -/
def writeEntry (d : Document) (now : Timestamp) (id : EntryId) (deleted : Bool) :
    Except EditError Document := do
  let version ← d.nextVersion
  return { d with version, updated := now, log := d.place ⟨id, deleted, version, now⟩ }

/-- The document with the tags of both lists dropped from its log, and the entries of the second
appended at its next version. -/
def replaceEntries (d : Document) (now : Timestamp) (remove : List EntryId)
    (append : List Entry) : Except EditError Document := do
  let version ← d.nextVersion
  let appended := (Entry.firstOccurrences [] append).map (·.stamp version now)
  let appendedIds := appended.map (·.id)
  let kept := d.log.filter fun e => !remove.contains e.id && !appendedIds.contains e.id
  return { d with version, updated := now, log := kept ++ appended }

/-- What an edit at time `now` makes of a document. -/
def edit (d : Document) (now : Timestamp) : Edit → Except EditError Document
  | .upsert id => d.writeEntry now id false
  | .markDeleted id => d.writeEntry now id true
  | .replace remove append => d.replaceEntries now remove append

end Document

end Chronicle
