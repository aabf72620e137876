/-
**Clients.**  A client reads and writes the documents of a store that others write to as well.  A
write is a round of three questions: load the document, read the clock, swap in the edited document
under the condition that the loaded version still stands.  If it no longer stands, the round is
repeated, up to a number of times that the settings give.

Main definitions:

* `ClientError` — what can go wrong;
* `Client.load`, `Client.find`, `Client.findOrCreate`, `Client.changesSince` — reading;
* `Client.write`, `Client.touch` — writing: one edit, or a batch that may create its document;
* `Client.delete`, `Client.prune` — removing.
-/

import Chronicle.Edit
import Chronicle.Program
import Chronicle.Settings
import Chronicle.View

set_option autoImplicit false

namespace Chronicle

/-! ### Errors -/

/-- Why a list of entry names makes no batch. -/
inductive BatchFault where
  | empty
  | repeated (id : EntryId)
deriving DecidableEq

/-- The fault in words. -/
def BatchFault.message : BatchFault → String
  | .empty => "entry id batch is empty"
  | .repeated id => "entry id " ++ id.text ++ " appears twice in batch"

/-- What can go wrong with a client's call. -/
inductive ClientError where
  /-- There is no such document. -/
  | notFound (id : DocumentId)
  /-- The call itself makes no sense. -/
  | invalidArgument (id : DocumentId) (fault : BatchFault)
  /-- Every round met a conflict. -/
  | retriesExhausted (id : DocumentId) (attempts : Nat)
  /-- The edit was refused. -/
  | edit (cause : EditError)
  /-- The store failed. -/
  | store (cause : StoreError)
  /-- A text that was to be a name is empty. -/
  | emptyId (cause : EmptyId)
deriving DecidableEq

/-- The error in words. -/
def ClientError.message : ClientError → String
  | .notFound id => "document not found: " ++ id.text
  | .invalidArgument id fault => "invalid argument for " ++ id.text ++ ": " ++ fault.message
  | .retriesExhausted id attempts =>
    "gave up on " ++ id.text ++ " after " ++ toString attempts ++ " conflicting attempts"
  | .edit cause => "engine error: " ++ cause.message
  | .store cause => "store error: " ++ cause.message
  | .emptyId cause => "type error: " ++ cause.message

/-- A call of a client: a program that ends in a result or an error. -/
abbrev Call (α : Type) := Program (Except ClientError α)

namespace Client

/-! ### Reading -/

/-- Loads a document, which has to be there. -/
def load (id : DocumentId) : Call Document :=
  .ask (.load id) fun
    | .error e => .done (.error (.store e))
    | .ok none => .done (.error (.notFound id))
    | .ok (some d) => .done (.ok d)

/-- Whether the store has a document, found out by loading it. -/
def present (id : DocumentId) : Program (Except StoreError Bool) :=
  .ask (.load id) fun answer => .done (answer.map Option.isSome)

/-- What a query shows of a document. -/
def find (id : DocumentId) (q : Query) : Call View :=
  (load id).bind fun answer => .done (answer.map (·.view q))

/-- An empty document as a reader creates it. -/
def blank (id : DocumentId) (now : Timestamp) : Document :=
  { Document.fresh id now with version := Document.firstVersion }

/-- Creates an empty document; if another client was faster, loads that client's. -/
def create (id : DocumentId) : Call Document :=
  .ask .now fun now =>
    .ask (.insert (blank id now)) fun
      | .ok () => .done (.ok (blank id now))
      | .error (.alreadyExists _) => load id
      | .error e => .done (.error (.store e))

/-- What a query shows of a document, which is created if it is not there. -/
def findOrCreate (id : DocumentId) (q : Query) : Call View :=
  .ask (.load id) fun
    | .error e => .done (.error (.store e))
    | .ok (some d) => .done (.ok (d.view q))
    | .ok none => (create id).bind fun answer => .done (answer.map (·.view q))

/-- What was written after a version, within the bound of the settings. -/
def changesSince (settings : Settings) (id : DocumentId) (since : UInt64) : Call View :=
  findOrCreate id ⟨since, settings.maxLogLength⟩

/-! ### Writing -/

/-- As many rounds of loading, editing and swapping as are `left`; `attempts` is for the report that
none of them succeeded. -/
def rounds (id : DocumentId) (edit : Edit) (attempts : Nat) : (left : Nat) → Call Document
  | 0 => .done (.error (.retriesExhausted id attempts))
  | left + 1 =>
    .ask (.load id) fun
      | .error e => .done (.error (.store e))
      | .ok none => .done (.error (.notFound id))
      | .ok (some current) =>
        .ask .now fun now =>
          match current.edit now edit with
          | .error e => .done (.error (.edit e))
          | .ok next =>
            .ask (.swap id current.version next) fun
              | .ok () => .done (.ok next)
              | .error (.versionConflict ..) => rounds id edit attempts left
              | .error (.notFound _) => .done (.error (.notFound id))
              | .error e => .done (.error (.store e))

/-- Edits a document. -/
def write (settings : Settings) (id : DocumentId) (edit : Edit) : Call Document :=
  rounds id edit settings.attempts settings.attempts

/-- Writes a live entry. -/
def upsert (settings : Settings) (id : DocumentId) (entry : EntryId) : Call Document :=
  write settings id (.upsert entry)

/-- Writes a tombstone. -/
def markDeleted (settings : Settings) (id : DocumentId) (entry : EntryId) : Call Document :=
  write settings id (.markDeleted entry)

/-- Drops entries and appends others. -/
def replace (settings : Settings) (id : DocumentId) (remove : List EntryId)
    (append : List Entry) : Call Document :=
  write settings id (.replace remove append)

/-! ### Batches -/

/-- The first name of the list that occurs before it, among those `seen` or in the list itself. -/
def firstRepeated? (seen : List EntryId) : List EntryId → Option EntryId
  | [] => none
  | id :: rest => if seen.contains id then some id else firstRepeated? (id :: seen) rest

/-- What is wrong with a list of names as a batch: it is empty, or it names an entry twice. -/
def batchFault? (entries : List EntryId) : Option BatchFault :=
  if entries.isEmpty then some .empty
  else (firstRepeated? [] entries).map .repeated

/-- The edit that moves a batch of entries to the end of the log. -/
def batchEdit (entries : List EntryId) (deleted : Bool) : Edit :=
  .replace entries (entries.map fun e => ⟨e, deleted, 0, .zero⟩)

/-- The document that a batch creates. -/
def firstDocument (id : DocumentId) (entries : List EntryId) (deleted : Bool)
    (now : Timestamp) : Document where
  id := id
  version := Document.firstVersion
  updated := now
  log := entries.map fun e => ⟨e, deleted, Document.firstVersion, now⟩

/-- Creates a document with a batch; if another client was faster, edits that client's. -/
def createWith (settings : Settings) (id : DocumentId) (entries : List EntryId)
    (deleted : Bool) : Call Document :=
  .ask .now fun now =>
    .ask (.insert (firstDocument id entries deleted now)) fun
      | .ok () => .done (.ok (firstDocument id entries deleted now))
      | .error (.alreadyExists _) => write settings id (batchEdit entries deleted)
      | .error e => .done (.error (.store e))

/-- Records a change to every entry of a batch under one new version, and creates the document if it
is not there. -/
def touch (settings : Settings) (id : DocumentId) (entries : List EntryId) (deleted : Bool) :
    Call Document :=
  match batchFault? entries with
  | some fault => .done (.error (.invalidArgument id fault))
  | none =>
    (write settings id (batchEdit entries deleted)).bind fun
      | .error (.notFound _) => createWith settings id entries deleted
      | answer => .done answer

/-! ### Removing -/

/-- Removes a document, and tells whether there was one. -/
def delete (id : DocumentId) : Call Bool :=
  .ask (.delete id) fun answer => .done (answer.mapError .store)

/-- Removes every document that has not changed for a span of time, and tells how many there
were. -/
def prune (idle : Duration) : Call Nat :=
  .ask .now fun now =>
    .ask (.sweep (now.earlier idle)) fun answer => .done (answer.mapError .store)

end Client

end Chronicle
