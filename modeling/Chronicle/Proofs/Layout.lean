/-
**The way out and the way back.**  A schema chooses two field names and is asked nothing.  Laying a
document out renames two of its fields, one after the other and in place, and restoring it renames
them back in the same order; a chosen name that is taken already costs the field that bears it.
What follows is said field by field: which of them come back as they were, and which are lost when
one of the names is theirs.

Main definitions:

* `Schema.outward`, `Schema.inward` — the two renamings on the way out, and on the way back;
* `Schema.fixedFields` — the fields that are not renamed;
* `Schema.returned` — the members of an entry that has gone out and come back.

Main results:

* `Document.ofMembers_eq_ok_iff`, `Entry.ofMembers_eq_ok_iff` — what a reading by names looks at;
* `Schema.restoreMembers_eq_ok_iff` — how a record is restored;
* `Schema.restoreEntries_layOut`, `Schema.ofJson_returned` — entries are restored, and read as they
  were if the time takes none of their other fields;
* `Schema.timeField_ne_id`, `Schema.idField_ne_time`, `Schema.idField_ne_timeField`,
  `Schema.log_eq_nil_of_clash` — what names that clash cost.
-/

import Chronicle.Proofs.Records

set_option autoImplicit false

namespace Chronicle

/-! ### Reading by names -/

/-- Two steps succeed iff the first does and the second does with its result. -/
theorem bind_eq_ok_iff {ε α β : Type} {x : Except ε α} {f : α → Except ε β} {b : β} :
    (x >>= f) = .ok b ↔ ∃ a, x = .ok a ∧ f a = .ok b := by
  cases x <;> simp [bind, Except.bind]

namespace Json

variable {α : Type} {name : String} {read : Json → Reading α} {members : List (String × Json)}

theorem require_eq_ok_iff {o : Option α} {a : α} : require name o = .ok a ↔ o = some a := by
  cases o <;> simp [require]

theorem member?_of_get? {v : Json} (h : Assoc.get? name members = some v) :
    member? name read members = (read v).map some := by
  rw [member?, h]

theorem get?_of_member?_some {a : α} (h : member? name read members = .ok (some a)) :
    ∃ v, Assoc.get? name members = some v ∧ read v = .ok a := by
  rw [member?] at h
  cases hv : Assoc.get? name members with
  | none =>
      rw [hv] at h
      cases h
  | some v =>
      rw [hv] at h
      refine ⟨v, rfl, ?_⟩
      cases hr : read v with
      | error e => simp [hr, Except.map] at h
      | ok b => simpa [hr, Except.map] using h

theorem get?_ne_none_of_member? {o : Option α} (h : member? name read members = .ok o)
    (ho : o ≠ none) : Assoc.get? name members ≠ none := by
  intro hnone
  rw [member?, hnone] at h
  exact ho (Except.ok.inj h).symm

end Json

/-- Reading an entry looks at its four fields, and wants all of them. -/
theorem Entry.ofMembers_eq_ok_iff {members : List (String × Json)} {e : Entry} :
    ofMembers members = .ok e ↔
      Json.member? "e_id" (Id.ofJson .entry) members = .ok (some e.id) ∧
      Json.member? "deleted" Json.boolean members = .ok (some e.deleted) ∧
      Json.member? "version" Json.word64 members = .ok (some e.version) ∧
      Json.member? "update_time" Timestamp.ofJson members = .ok (some e.updated) := by
  simp only [ofMembers, bind_eq_ok_iff, Json.require_eq_ok_iff]
  constructor
  · rintro ⟨_, hdeleted, _, hid, _, hupdated, _, hversion, _, rfl, _, rfl, _, rfl, _, rfl, h⟩
    cases h
    exact ⟨hid, hdeleted, hversion, hupdated⟩
  · rintro ⟨hid, hdeleted, hversion, hupdated⟩
    exact ⟨_, hdeleted, _, hid, _, hupdated, _, hversion, _, rfl, _, rfl, _, rfl, _, rfl, rfl⟩

/-- Reading a document looks at its five fields, of which the watermark and the log may be left
out. -/
theorem Document.ofMembers_eq_ok_iff {members : List (String × Json)} {d : Document} :
    ofMembers members = .ok d ↔
      Json.member? "d_id" (Id.ofJson .document) members = .ok (some d.id) ∧
      Json.member? "version" Json.word64 members = .ok (some d.version) ∧
      (∃ w, Json.member? "deleted" Json.word64 members = .ok w ∧ w.getD 0 = d.watermark) ∧
      Json.member? "update_time" Timestamp.ofJson members = .ok (some d.updated) ∧
      ∃ l, Json.member? "logs" (Json.list Entry.ofJson) members = .ok l ∧ l.getD [] = d.log := by
  simp only [ofMembers, bind_eq_ok_iff, Json.require_eq_ok_iff]
  constructor
  · rintro ⟨_, hid, w, hw, l, hl, _, hupdated, _, hversion, _, rfl, _, rfl, _, rfl, h⟩
    cases h
    exact ⟨hid, hversion, ⟨w, hw, rfl⟩, hupdated, l, hl, rfl⟩
  · rintro ⟨hid, hversion, ⟨w, hw, hwatermark⟩, hupdated, l, hl, hlog⟩
    refine ⟨_, hid, w, hw, l, hl, _, hupdated, _, hversion, _, rfl, _, rfl, _, rfl, ?_⟩
    rw [hwatermark, hlog]
    rfl

/-! ### The way out -/

namespace Schema

variable {s : Schema} {d d' : Document} {members restored : List (String × Json)} {k : String}

/-- The members of a document under the names of the record. -/
def outward (s : Schema) (members : List (String × Json)) : List (String × Json) :=
  Assoc.rename "update_time" s.timeField (Assoc.rename "d_id" s.idField members)

/-- The members of a record under the names of the document. -/
def inward (s : Schema) (members : List (String × Json)) : List (String × Json) :=
  Assoc.rename s.timeField "update_time" (Assoc.rename s.idField "d_id" members)

/-- The fields that a schema leaves where they are. -/
def fixedFields : List String := ["version", "deleted", "logs"]

theorem ne_of_mem_fixedFields (hk : k ∈ fixedFields) : k ≠ "d_id" ∧ k ≠ "update_time" := by
  constructor <;> (rintro rfl; exact absurd hk (by decide))

theorem get?_layOutMembers (hk : k ≠ "logs") :
    Assoc.get? k (s.layOutMembers members) = Assoc.get? k (s.outward members) := by
  simp only [layOutMembers]
  split
  · rw [Assoc.get?_put, if_neg hk.symm]
    rfl
  · rfl

theorem get?_logs_layOutMembers {items : List Json}
    (h : Assoc.get? "logs" (s.outward members) = some (.arr items)) :
    Assoc.get? "logs" (s.layOutMembers members) = some (.arr (items.map s.layOutEntry)) := by
  rw [outward] at h
  simp only [layOutMembers, h]
  rw [Assoc.get?_put, if_pos rfl]

/-- A field that neither name takes keeps its value on the way out. -/
theorem get?_outward_of_ne (hk : k ∈ fixedFields) (hI : s.idField ≠ k) (hT : s.timeField ≠ k) :
    Assoc.get? k (s.outward members) = Assoc.get? k members := by
  obtain ⟨hid, htime⟩ := ne_of_mem_fixedFields hk
  rw [outward, Assoc.get?_rename_of_ne htime hT.symm, Assoc.get?_rename_of_ne hid hI.symm]

/-! ### The way back -/

theorem demand_eq_ok_iff {u : Unit} :
    demand k members = .ok u ↔ ∃ v, Assoc.get? k members = some v := by
  rw [demand]
  cases Assoc.get? k members <;> simp

/-- **How a record is restored**: it has both names, and under the names of a document its log, if
that is an array, is restored entry by entry. -/
theorem restoreMembers_eq_ok_iff : s.restoreMembers members = .ok restored ↔
    (∃ v, Assoc.get? s.idField members = some v) ∧ (∃ v, Assoc.get? s.timeField members = some v) ∧
      ((∃ items items', Assoc.get? "logs" (s.inward members) = some (.arr items) ∧
          s.restoreEntries 0 items = .ok items' ∧
          restored = Assoc.put "logs" (.arr items') (s.inward members)) ∨
        (∀ items, Assoc.get? "logs" (s.inward members) ≠ some (.arr items)) ∧
          restored = s.inward members) := by
  simp only [restoreMembers, bind_eq_ok_iff, demand_eq_ok_iff, exists_const]
  refine and_congr_right fun _ => and_congr_right fun _ => ?_
  split
  · next items hlogs =>
      have hlogs : Assoc.get? "logs" (s.inward members) = some (.arr items) := hlogs
      rw [hlogs, bind_eq_ok_iff]
      constructor
      · rintro ⟨items', hitems, h⟩
        cases h
        exact .inl ⟨items, items', rfl, hitems, rfl⟩
      · rintro (⟨_, items', hsame, hitems, rfl⟩ | ⟨hnone, -⟩)
        · cases hsame
          exact ⟨items', hitems, rfl⟩
        · exact absurd rfl (hnone items)
  · next hnone =>
      constructor
      · intro h
        cases h
        exact .inr ⟨hnone, rfl⟩
      · rintro (⟨items, _, hlogs, -⟩ | ⟨-, rfl⟩)
        · exact absurd hlogs (hnone items)
        · rfl

theorem restore_eq_ok_iff : s.restore (.obj members) = .ok d ↔
    ∃ restored, s.restoreMembers members = .ok restored ∧ Document.ofMembers restored = .ok d := by
  rw [restore, bind_eq_ok_iff]
  refine exists_congr fun restored => and_congr_right fun _ => ?_
  cases Document.ofMembers restored with
  | error cause => exact iff_of_false nofun nofun
  | ok d' =>
      change Except.ok d' = .ok d ↔ _
      rw [Except.ok.injEq, Except.ok.injEq]

/-- Beyond the names, restoring changes nothing but the log. -/
theorem get?_of_restoreMembers (h : s.restoreMembers members = .ok restored) (hk : k ≠ "logs") :
    Assoc.get? k restored = Assoc.get? k (s.inward members) := by
  obtain ⟨-, -, ⟨items, items', -, -, rfl⟩ | ⟨-, rfl⟩⟩ := restoreMembers_eq_ok_iff.1 h
  · rw [Assoc.get?_put, if_neg hk.symm]
  · rfl

/-- Restoring makes up no field. -/
theorem get?_inward_ne_none (h : s.restoreMembers members = .ok restored)
    (hk : Assoc.get? k restored ≠ none) : Assoc.get? k (s.inward members) ≠ none := by
  obtain ⟨-, -, ⟨items, items', hlogs, -, rfl⟩ | ⟨-, rfl⟩⟩ := restoreMembers_eq_ok_iff.1 h
  · rw [Assoc.get?_put] at hk
    split at hk
    · next hk' => simp [← hk', hlogs]
    · exact hk
  · exact hk

/-- A field that neither name takes keeps its value on the way back. -/
theorem get?_inward_of_ne (hk : k ∈ fixedFields) (hI : s.idField ≠ k) (hT : s.timeField ≠ k) :
    Assoc.get? k (s.inward members) = Assoc.get? k members := by
  obtain ⟨hid, htime⟩ := ne_of_mem_fixedFields hk
  rw [inward, Assoc.get?_rename_of_ne hT.symm htime, Assoc.get?_rename_of_ne hI.symm hid]

/-- So, but for the log, whose entries have fields of their own, it comes back as it was. -/
theorem get?_inward_layOutMembers (hk : k ∈ fixedFields) (hlogs : k ≠ "logs")
    (hI : s.idField ≠ k) (hT : s.timeField ≠ k) :
    Assoc.get? k (s.inward (s.layOutMembers members)) = Assoc.get? k members := by
  rw [get?_inward_of_ne hk hI hT, get?_layOutMembers hlogs, get?_outward_of_ne hk hI hT]

/-- A field that comes back, other than the two that are renamed, has a name of its own. -/
theorem ne_of_get?_inward (hk : k ∈ fixedFields) (hv : Assoc.get? k (s.inward members) ≠ none) :
    s.idField ≠ k ∧ s.timeField ≠ k := by
  obtain ⟨hid, htime⟩ := ne_of_mem_fixedFields hk
  have hT : s.timeField ≠ k := by
    rintro rfl
    exact hv (Assoc.get?_rename_source htime _)
  refine ⟨?_, hT⟩
  rintro rfl
  rw [inward, Assoc.get?_rename_of_ne hT.symm htime] at hv
  exact hv (Assoc.get?_rename_source hid _)

/-! ### Entries that come back -/

/-- The members of an entry that has gone out and come back. -/
def returned (s : Schema) (e : Entry) : List (String × Json) :=
  Assoc.rename s.timeField "update_time" (Assoc.rename "update_time" s.timeField e.members)

/-- Every laid out entry has the field of the time, and so can be renamed back. -/
theorem restoreEntries_layOut (s : Schema) (index : Nat) (log : List Entry) :
    s.restoreEntries index ((log.map Entry.toJson).map s.layOutEntry) =
      .ok (log.map fun e => .obj (s.returned e)) := by
  induction log generalizing index with
  | nil => rfl
  | cons e log ih =>
      have htime : demand s.timeField (Assoc.rename "update_time" s.timeField e.members) = .ok () :=
        demand_eq_ok_iff.2 ⟨_, Assoc.get?_rename_target rfl⟩
      simp only [List.map_cons, Entry.toJson, layOutEntry, restoreEntries, htime, ih (index + 1)]
      rfl

/-- An entry comes back if the time takes none of its other fields. -/
theorem ofJson_returned (hid : s.timeField ≠ "e_id") (hdeleted : s.timeField ≠ "deleted")
    (hversion : s.timeField ≠ "version") (e : Entry) :
    Entry.ofJson (.obj (s.returned e)) = .ok e := by
  have hkeep : ∀ k, k ≠ s.timeField → k ≠ "update_time" →
      Assoc.get? k (s.returned e) = Assoc.get? k e.members := by
    intro k hT htime
    rw [returned, Assoc.get?_rename_of_ne hT htime, Assoc.get?_rename_of_ne htime hT]
  have htime : Assoc.get? "update_time" (s.returned e) = some e.updated.toJson :=
    Assoc.get?_rename_target (Assoc.get?_rename_target rfl)
  refine Entry.ofMembers_eq_ok_iff.2 ⟨?_, ?_, ?_, ?_⟩
  · rw [Json.member?_of_get? (hkeep "e_id" hid.symm (by decide)), Id.ofJson_toJson]
    rfl
  · rw [Json.member?_of_get? (hkeep "deleted" hdeleted.symm (by decide))]
    rfl
  · rw [Json.member?_of_get? (hkeep "version" hversion.symm (by decide)),
      Json.word64_ofWord64]
    rfl
  · rw [Json.member?_of_get? htime, Timestamp.ofJson_toJson]
    rfl

/-- A log whose field neither name takes is laid out entry by entry. -/
theorem get?_logs_inward_layOut (hI : s.idField ≠ "logs") (hT : s.timeField ≠ "logs")
    (d : Document) :
    Assoc.get? "logs" (s.inward (s.layOutMembers d.members)) =
      some (.arr ((d.log.map Entry.toJson).map s.layOutEntry)) := by
  rw [get?_inward_of_ne (by decide) hI hT]
  refine get?_logs_layOutMembers ?_
  rw [get?_outward_of_ne (by decide) hI hT]
  rfl

/-! ### Names that clash -/

/-- A time that is renamed to the field of the name takes the name with it. -/
theorem timeField_ne_id (hid : Assoc.get? "d_id" (s.inward members) ≠ none) :
    s.timeField ≠ "d_id" := by
  intro hT
  refine hid ?_
  rw [inward, hT]
  exact Assoc.get?_rename_source (by decide) _

/-- A name that is put where the time comes from is lost on the way out, or the time is lost on the
way back. -/
theorem idField_ne_time (hthere : Assoc.get? s.idField (s.layOutMembers members) ≠ none)
    (htime : Assoc.get? "update_time" (s.inward (s.layOutMembers members)) ≠ none) :
    s.idField ≠ "update_time" := by
  intro hI
  by_cases hT : s.timeField = "update_time"
  · refine htime ?_
    rw [inward, hT, hI, Assoc.rename, if_pos rfl]
    exact Assoc.get?_rename_source (by decide) _
  · refine hthere ?_
    rw [hI, get?_layOutMembers (by decide)]
    exact Assoc.get?_rename_source (Ne.symm hT) _

/-- Under one name for both, the time takes the place of the name and then goes by it. -/
theorem idField_ne_timeField (hid : s.timeField ≠ "d_id") (hI : s.idField ≠ "update_time")
    (htime : Assoc.get? "update_time" (s.inward (s.layOutMembers members)) ≠ none) :
    s.idField ≠ s.timeField := by
  intro hsame
  refine htime ?_
  have hgone : Assoc.get? s.timeField
      (Assoc.rename s.idField "d_id" (s.layOutMembers members)) = none := by
    rw [← hsame]
    exact Assoc.get?_rename_source (hsame ▸ hid) _
  rw [inward, Assoc.get?_rename, if_pos (.inr hgone), Assoc.get?_rename_of_ne hI.symm (by decide),
    get?_layOutMembers (by decide)]
  exact Assoc.get?_rename_source (fun h => hI (hsame.trans h.symm)) _

/-- A time that is renamed to the field of the tag, or of the mark, takes that field with it. -/
theorem ofJson_returned_ne_ok (hT : s.timeField ∈ ["e_id", "deleted"]) (e x : Entry) :
    Entry.ofJson (.obj (s.returned e)) ≠ .ok x := by
  intro h
  obtain ⟨hid, hdeleted, -⟩ := Entry.ofMembers_eq_ok_iff.1 h
  have hgone : Assoc.get? s.timeField (s.returned e) = none := by
    refine Assoc.get?_rename_source ?_ _
    intro htime
    rw [htime] at hT
    exact absurd hT (by decide)
  simp only [List.mem_cons, List.not_mem_nil, or_false] at hT
  rcases hT with hT | hT
  · exact Json.get?_ne_none_of_member? hid nofun (hT ▸ hgone)
  · exact Json.get?_ne_none_of_member? hdeleted nofun (hT ▸ hgone)

/-- A log whose field neither name takes comes back with as many entries, each of them as it went
out and came back. -/
theorem get?_logs_of_restoreMembers (hI : s.idField ≠ "logs") (hT : s.timeField ≠ "logs")
    (h : s.restoreMembers (s.layOutMembers d.members) = .ok restored) :
    Assoc.get? "logs" restored = some (.arr (d.log.map fun e => .obj (s.returned e))) := by
  have hout := get?_logs_inward_layOut hI hT d
  obtain ⟨-, -, ⟨items, items', hitems, hback, rfl⟩ | ⟨hnone, -⟩⟩ := restoreMembers_eq_ok_iff.1 h
  · cases hitems.symm.trans hout
    rw [restoreEntries_layOut] at hback
    cases hback
    rw [Assoc.get?_put, if_pos rfl]
  · exact absurd hout (hnone _)

/-- If a log is read at all, the time has not taken the place of a tag or of a mark, unless there is
no entry in it. -/
theorem log_eq_nil_of_clash {log : List Entry} {l : Option (List Entry)}
    (hlogs : Assoc.get? "logs" restored = some (.arr (log.map fun e => .obj (s.returned e))))
    (hl : Json.member? "logs" (Json.list Entry.ofJson) restored = .ok l)
    (hT : s.timeField ∈ ["e_id", "deleted"]) : log = [] := by
  cases log with
  | nil => rfl
  | cons e log =>
      rw [Json.member?_of_get? hlogs, Json.list, List.map_cons, List.mapM_cons] at hl
      cases hx : Entry.ofJson (.obj (s.returned e)) with
      | error cause => simp [hx, bind, Except.bind, Except.map] at hl
      | ok x => exact absurd hx (ofJson_returned_ne_ok hT e x)

end Schema

end Chronicle
