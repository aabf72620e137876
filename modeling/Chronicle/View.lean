/-
**Views.**  A reader who knows a document as of some version asks for what was written since.  The
answer is complete or withheld as a whole: it is withheld when the document is behind the reader,
when a reset happened that the reader has not seen, and when more entries qualify than the reader
allows.

Main definitions:

* `Query`, `View`, `Suppression` — the question, the answer, and why an answer is withheld;
* `Document.view` — the answer to a question about a document;
* `View.partition` — the visible tags, the live apart from the deleted.
-/

import Chronicle.Document

set_option autoImplicit false

namespace Chronicle

/-- What a reader asks of a log. -/
structure Query where
  /-- The version the reader knows: only entries written after it are wanted. -/
  since : UInt64
  /-- The most entries the reader takes; `none` is no bound. -/
  limit : Option UInt64
deriving DecidableEq, Repr

/-- Why a view is withheld. -/
inductive Suppression where
  /-- The document is older than what the reader knows. -/
  | stale
  /-- The document was reset at or after the version the reader knows. -/
  | reset
  /-- More entries qualify than the reader takes. -/
  | tooLarge (found : Nat) (allowed : UInt64)
deriving DecidableEq, Repr

/-- What a reader sees of a document. -/
structure View where
  version : UInt64
  watermark : UInt64
  updated : Timestamp
  /-- How many entries qualify, whether they are shown or not. -/
  found : Nat
  log : List Entry
  suppressed : Option Suppression
deriving DecidableEq

namespace Document

/-- The entries written after version `since`. -/
def entriesSince (d : Document) (since : UInt64) : List Entry :=
  d.log.filter fun e => decide (since < e.version)

/-- Why a reader who knows version `since` cannot catch up on the document at all. -/
def outOfStep? (d : Document) (since : UInt64) : Option Suppression :=
  if d.version < since then some .stale
  else if since ≤ d.watermark then some .reset
  else none

/-- What a query shows of the document: everything written since, or nothing and the reason. -/
def view (d : Document) (q : Query) : View :=
  let blank : View := ⟨d.version, d.watermark, d.updated, 0, [], none⟩
  match d.outOfStep? q.since with
  | some reason => { blank with suppressed := some reason }
  | none =>
    let entries := d.entriesSince q.since
    let full := { blank with found := entries.length, log := entries }
    match q.limit with
    | none => full
    | some allowed =>
      if allowed.toNat < entries.length then
        { full with log := [], suppressed := some (.tooLarge entries.length allowed) }
      else full

end Document

/-- The visible tags: those of live entries, then those of tombstones. -/
structure ChangeSet where
  changed : List EntryId
  deleted : List EntryId
deriving DecidableEq

namespace View

/-- Whether the reader has to fetch everything from scratch. -/
def requiresFullSync (v : View) : Bool := v.suppressed.isSome

/-- Whether no entry is visible. -/
def isEmpty (v : View) : Bool := v.log.isEmpty

/-- Parts the visible tags by their marker; each part keeps the order of the log. -/
def partition (v : View) : ChangeSet :=
  let (deleted, changed) := v.log.partition (·.deleted)
  ⟨changed.map (·.id), deleted.map (·.id)⟩

end View

end Chronicle
