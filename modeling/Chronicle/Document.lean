/-
**Documents.**  A document is a versioned log: a list of entries, each tagged with a name, marked
live or deleted, and carrying the version of the document that wrote it.  Nothing in the type
forbids a log that holds a tag twice or an entry from a version yet to come; the two checks below
tell such documents from the well-formed ones.

Main definitions:

* `Entry`, `Document` — the log and what it hangs on;
* `Document.position?`, `Document.entry?` — where a tag first stands, and what stands there;
* `Document.hasUniqueIds`, `Document.versionsBounded` — the two marks of a well-formed log.

Main results:

* `Document.hasUniqueIds_iff`, `Document.versionsBounded_iff` — what the checks decide.
-/

import Chronicle.Id
import Chronicle.Timestamp

set_option autoImplicit false

namespace Chronicle

/-- One tagged record of a log. -/
@[ext]
structure Entry where
  id : EntryId
  /-- Whether the entry is a tombstone. -/
  deleted : Bool
  /-- The version of the document as of which this entry was written. -/
  version : UInt64
  updated : Timestamp
deriving DecidableEq

/-- A live entry. -/
def Entry.live (id : EntryId) (version : UInt64) (updated : Timestamp) : Entry :=
  ⟨id, false, version, updated⟩

/-- A keyed, versioned, ordered log. -/
@[ext]
structure Document where
  id : DocumentId
  version : UInt64
  /-- The version of the last reset: a reader who knows no later one has missed it. -/
  watermark : UInt64 := 0
  updated : Timestamp
  log : List Entry := []
deriving DecidableEq

namespace Document

/-- The version of a document that its first write creates. -/
def firstVersion : UInt64 := 1

/-- An empty document that nothing has written to yet. -/
def fresh (id : DocumentId) (now : Timestamp) : Document :=
  { id, version := 0, updated := now }

/-! ### Looking up a tag -/

/-- The index of the first entry tagged with `tag`. -/
def position? (d : Document) (tag : String) : Option Nat :=
  d.log.findIdx? fun e => e.id.text == tag

/-- The first entry tagged with `tag`. -/
def entry? (d : Document) (tag : String) : Option Entry :=
  d.log.find? fun e => e.id.text == tag

/-- The tags of the log, in its order. -/
def entryIds (d : Document) : List EntryId :=
  d.log.map (·.id)

/-! ### Well-formed logs -/

/-- Whether no id of the list occurs before it, among those `seen` or in the list itself. -/
def allUnseen (seen : List EntryId) : List EntryId → Bool
  | [] => true
  | id :: rest => !seen.contains id && allUnseen (id :: seen) rest

/-- Whether no tag occurs twice in the log. -/
def hasUniqueIds (d : Document) : Bool :=
  allUnseen [] d.entryIds

/-- Whether no entry claims a version that the document has not reached. -/
def versionsBounded (d : Document) : Bool :=
  d.log.all fun e => decide (e.version ≤ d.version)

theorem allUnseen_iff (seen ids : List EntryId) :
    allUnseen seen ids = true ↔ ids.Nodup ∧ ∀ id ∈ ids, id ∉ seen := by
  induction ids generalizing seen with
  | nil => simp [allUnseen]
  | cons id rest ih =>
      simp only [allUnseen, Bool.and_eq_true, Bool.not_eq_true', List.contains_eq_mem,
        decide_eq_false_iff_not, ih, List.nodup_cons, List.mem_cons, not_or]
      constructor
      · rintro ⟨hid, hnd, hrest⟩
        refine ⟨⟨fun h => (hrest id h).1 rfl, hnd⟩, ?_⟩
        rintro x (rfl | hx)
        · exact hid
        · exact (hrest x hx).2
      · rintro ⟨⟨hid, hnd⟩, hall⟩
        refine ⟨hall id (.inl rfl), hnd, fun x hx => ⟨?_, hall x (.inr hx)⟩⟩
        rintro rfl
        exact hid hx

/-- The check accepts a log iff its tags are pairwise different. -/
theorem hasUniqueIds_iff (d : Document) : d.hasUniqueIds = true ↔ d.entryIds.Nodup := by
  simp [hasUniqueIds, allUnseen_iff]

/-- The check accepts a log iff every entry is from a version up to the document's own. -/
theorem versionsBounded_iff (d : Document) :
    d.versionsBounded = true ↔ ∀ e ∈ d.log, e.version ≤ d.version := by
  simp [versionsBounded]

end Document

end Chronicle
