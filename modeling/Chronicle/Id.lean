/-
**Identifiers.**  A document, and each entry of its log, goes by a name: any text but the empty
one.  The kind of thing named is part of the type, so a document's name never stands where an
entry's is wanted.

Main definitions:

* `Id`, `DocumentId`, `EntryId` — names of documents and entries;
* `EmptyId` — the one way in which a text fails to be a name;
* `Id.ofText`, `Id.sort` — making a name from a text, and putting names in order.

Main results:

* `Id.ofText_eq_ok_iff` — every text but the empty one is a name, and it is that name's text.
-/

set_option autoImplicit false

namespace Chronicle

/-! ### Kinds of names -/

/-- What an identifier names. -/
inductive IdKind where
  | document
  | entry
deriving DecidableEq, Repr

/-- How messages speak of an identifier of this kind. -/
def IdKind.label : IdKind → String
  | .document => "document id"
  | .entry => "entry id"

/-- The refusal to take the empty text for an identifier. -/
structure EmptyId where
  kind : IdKind
deriving DecidableEq, Repr

/-- The refusal in words. -/
def EmptyId.message (e : EmptyId) : String :=
  e.kind.label ++ " must not be empty"

/-! ### Names -/

/-- An identifier of a given kind: a text that is not empty. -/
@[ext]
structure Id (kind : IdKind) where
  text : String
  text_ne : text ≠ ""
deriving DecidableEq

/-- The name of a document, by which a collection finds it. -/
abbrev DocumentId := Id .document

/-- The tag of an entry, which occurs once at most in a well-formed log. -/
abbrev EntryId := Id .entry

namespace Id

variable {kind : IdKind}

/-- Takes a text for a name, unless it is empty. -/
def ofText (kind : IdKind) (s : String) : Except EmptyId (Id kind) :=
  if h : s = "" then .error ⟨kind⟩ else .ok ⟨s, h⟩

/-- Every text but the empty one is a name, and it is that name's text. -/
theorem ofText_eq_ok_iff {s : String} {i : Id kind} : ofText kind s = .ok i ↔ i.text = s := by
  unfold ofText
  split
  · next h => simpa [h] using i.text_ne
  · next h => simpa [Id.ext_iff] using eq_comm

@[simp]
theorem ofText_text (i : Id kind) : ofText kind i.text = .ok i :=
  ofText_eq_ok_iff.2 rfl

@[simp]
theorem ofText_empty : ofText kind "" = .error ⟨kind⟩ := rfl

/-- Names compare as their texts do, code point by code point; in UTF-8 that is the order of the
bytes. -/
protected def compare (a b : Id kind) : Ordering :=
  compare a.text b.text

/-- Names in ascending order. -/
def sort (ids : List (Id kind)) : List (Id kind) :=
  ids.mergeSort fun a b => decide (a.text ≤ b.text)

end Id

end Chronicle
