/-
**Shapes.**  A record is read from a text more leniently than a value is: of a member that the
record does not know only the grammar counts, whatever its nesting, strings and numbers.  In return
a member that the record knows may stand in the text only once.  A shape says which members those
are.

Main definitions:

* `Shape` — what is known of a value before it is read;
* `Draft.shaped?` — the part of a tree that its shape knows, as a value;
* `Json.parseShaped?` — the same for a text.
-/

import Chronicle.Json.Draft

set_option autoImplicit false

namespace Chronicle

/-- What is known of a value before it is read. -/
inductive Shape where
  /-- All of it matters. -/
  | whole
  /-- An array, or something that will be refused. -/
  | list (item : Shape)
  /-- A record with these fields, as an object or as an array. -/
  | record (fields : List (String × Shape))
  /-- An object that a member names a case of; its case has fields of its own. -/
  | tagged (tag : String) (cases : List (String × List String))

namespace Draft

/-- Whether no known name occurs twice among the names of an object. -/
def onceEach (known : String → Bool) : List String → Bool
  | [] => true
  | name :: rest => !(known name && rest.contains name) && onceEach known rest

/-- The names that may occur once only in an object with the given tag: the tag itself, and the
fields of the case it names. -/
def taggedNames (tag : String) (cases : List (String × List String))
    (members : List (String × Json)) : List String :=
  match Assoc.get? tag members with
  | some (.str name) => tag :: (Assoc.get? name cases).getD []
  | _ => [tag]

mutual

/-- The part of a tree that its shape knows, as a value, if that part has one and is nested at most
`depth` brackets deep. -/
def shaped? (depth : Nat) (draft : Draft) : Shape → Option Json
  | .whole => draft.toJson? depth
  | .list shape =>
    match depth, draft with
    | depth + 1, .arr items => (items.mapM fun item => shaped? depth item shape).map .arr
    | _, _ => draft.toJson? depth
  | .record fields =>
    match depth, draft with
    | depth + 1, .obj members => do
      let members ← members.mapM fun (name, v) => do return (← Fragment.text? name, v)
      guard (onceEach (fun name => (fields.map (·.1)).contains name) (members.map (·.1)))
      (shapedMembers? depth members fields).map .obj
    | depth + 1, .arr items => do
      guard (items.length ≤ fields.length)
      (shapedItems? depth items fields).map .arr
    | _, _ => draft.toJson? depth
  | .tagged tag cases => do
    let v ← draft.toJson? depth
    match draft, v with
    | .obj drafts, .obj members =>
      let names := drafts.filterMap fun (name, _) => Fragment.text? name
      let once := taggedNames tag cases members
      guard (onceEach once.contains names)
      return v
    | _, _ => return v

/-- The known members of an object. -/
def shapedMembers? (depth : Nat) (members : List (String × Draft)) :
    List (String × Shape) → Option (List (String × Json))
  | [] => some []
  | (name, shape) :: fields => do
    let rest ← shapedMembers? depth members fields
    match Assoc.get? name members with
    | none => return rest
    | some draft => return (name, ← shaped? depth draft shape) :: rest

/-- The items of an array, as the fields of a record. -/
def shapedItems? (depth : Nat) (items : List Draft) :
    List (String × Shape) → Option (List Json)
  | [] => some []
  | (_, shape) :: fields =>
    match items with
    | [] => some []
    | draft :: items => do return (← shaped? depth draft shape) :: (← shapedItems? depth items fields)

end

end Draft

/-- The part of a text that a shape knows, as a value. -/
def Json.parseShaped? (shape : Shape) (text : String) : Option Json :=
  (Draft.parse? text).bind fun draft => draft.shaped? Json.maxDepth shape

end Chronicle
