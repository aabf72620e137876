/-
**What a record is.**  Whoever writes to a collection may write records that no document was ever
laid out as: with fields left out, with fields of other kinds, with fields that nobody asked for.
This module says which of them are read, for a schema whose names are apart, without a word about
renaming: a record is read iff it has what a document must have, under the names of the schema, and
then as the document that has these values.  Everything else in it counts for nothing, even under
the names that the document itself gives to the two fields that are renamed.

Main definitions:

* `Json.IsName`, `Json.IsWord` — texts that are names, and integers that fit a word;
* `Schema.IsRecord`, `Schema.IsEntry` — **the grammar** of records and of the entries in them;
* `Schema.Spells`, `Schema.SpellsEntry` — the document that a record has the values of.

Main results:

* `Json.word64_eq_ok_iff` and its companions — what each reader takes for what;
* `Schema.restoreEntries_spells` — a log is restored and read iff each of its items is;
* `Schema.restore_eq_ok_iff_spells` — a record is read as the document that it spells;
* `Schema.isRecord_iff_spells` — a record of the grammar spells a document, and no other does;
* `Store.reads_records` — **exactly the records of the grammar are read**.
-/

import Chronicle.Proofs.Clash
import Mathlib.Data.List.Forall2

set_option autoImplicit false

namespace Chronicle

/-! ### What readers take for what -/

namespace Json

/-- A name: a text that is not empty. -/
def IsName (v : Json) : Prop :=
  ∃ text, v = .str text ∧ text ≠ ""

/-- An integer that fits a word of 64 bits. -/
def IsWord (v : Json) : Prop :=
  ∃ n : Nat, v = .num (.int n) ∧ n < UInt64.size

/-- A word of 64 bits is all that fits one. -/
theorem isWord_iff {v : Json} : v.IsWord ↔ ∃ n : UInt64, v = .num (.int n.toNat) := by
  constructor
  · rintro ⟨n, rfl, hn⟩
    exact ⟨UInt64.ofNat n, by rw [UInt64.toNat_ofNat_of_lt' hn]⟩
  · rintro ⟨n, rfl⟩
    exact ⟨n.toNat, rfl, n.toNat_lt_size⟩

theorem isName_iff {v : Json} (kind : IdKind) : v.IsName ↔ ∃ i : Id kind, v = .str i.text := by
  constructor
  · rintro ⟨text, rfl, hne⟩
    exact ⟨⟨text, hne⟩, rfl⟩
  · rintro ⟨i, rfl⟩
    exact ⟨i.text, rfl, i.text_ne⟩

theorem naturalBelow_eq_ok_iff {bound : Nat} {wanted : Wanted} {v : Json} {n : Nat} :
    naturalBelow bound wanted v = .ok n ↔ v = .num (.int n) ∧ n < bound := by
  constructor
  · intro h
    unfold naturalBelow at h
    split at h
    · split at h
      · next hlt =>
          cases h
          exact ⟨rfl, hlt⟩
      · cases h
    · cases h
    · cases h
  · rintro ⟨rfl, hlt⟩
    exact naturalBelow_natural hlt

theorem word64_eq_ok_iff {v : Json} {n : UInt64} :
    v.word64 = .ok n ↔ v = .num (.int n.toNat) := by
  constructor
  · intro h
    rw [word64] at h
    cases hv : naturalBelow UInt64.size .word64 v with
    | error cause =>
        rw [hv] at h
        cases h
    | ok k =>
        rw [hv] at h
        cases h
        obtain ⟨rfl, hlt⟩ := naturalBelow_eq_ok_iff.1 hv
        rw [UInt64.toNat_ofNat_of_lt' hlt]
  · rintro rfl
    exact word64_ofWord64 n

theorem boolean_eq_ok_iff {v : Json} {b : Bool} : v.boolean = .ok b ↔ v = .bool b := by
  cases v <;> simp [boolean]

theorem text_eq_ok_iff {v : Json} {s : String} : v.text = .ok s ↔ v = .str s := by
  cases v <;> simp [text]

variable {α : Type} {name : String} {read : Json → Reading α} {members : List (String × Json)}

theorem list_eq_ok_iff {v : Json} {l : List α} :
    list read v = .ok l ↔ ∃ items, v = .arr items ∧ items.mapM read = .ok l := by
  cases v <;> simp [list]

/-- A member is read iff it is there and its value is read. -/
theorem member?_eq_some_iff {a : α} : member? name read members = .ok (some a) ↔
    ∃ v, Assoc.get? name members = some v ∧ read v = .ok a := by
  refine ⟨get?_of_member?_some, ?_⟩
  rintro ⟨v, hv, hread⟩
  rw [member?_of_get? hv, hread]
  rfl

/-- A member that may be left out is read iff it is left out, or there and its value is read. -/
theorem member?_getD_iff {a default : α} :
    (∃ o, member? name read members = .ok o ∧ o.getD default = a) ↔
      (∃ v, Assoc.get? name members = some v ∧ read v = .ok a) ∨
        Assoc.get? name members = none ∧ a = default := by
  constructor
  · rintro ⟨o, ho, rfl⟩
    cases o with
    | some b => exact .inl (member?_eq_some_iff.1 ho)
    | none =>
        refine .inr ⟨?_, rfl⟩
        cases hv : Assoc.get? name members with
        | none => rfl
        | some v =>
            rw [member?_of_get? hv] at ho
            cases hread : read v with
            | error cause =>
                rw [hread] at ho
                cases ho
            | ok b =>
                rw [hread] at ho
                cases ho
  · rintro (hv | ⟨hv, rfl⟩)
    · exact ⟨some a, member?_eq_some_iff.2 hv, rfl⟩
    · exact ⟨none, by rw [member?, hv], rfl⟩

end Json

theorem Id.ofJson_eq_ok_iff {kind : IdKind} {v : Json} {i : Id kind} :
    Id.ofJson kind v = .ok i ↔ v = .str i.text := by
  rw [Id.ofJson, bind_eq_ok_iff]
  constructor
  · rintro ⟨s, hs, hi⟩
    rw [Json.text_eq_ok_iff.1 hs]
    cases hs' : Id.ofText kind s with
    | error cause =>
        rw [hs'] at hi
        cases hi
    | ok j =>
        rw [hs'] at hi
        cases hi
        rw [Id.ofText_eq_ok_iff.1 hs']
  · rintro rfl
    refine ⟨i.text, rfl, ?_⟩
    rw [Id.ofText_text]
    rfl

theorem Timestamp.ofJson_eq_ok_iff {v : Json} {t : Timestamp} :
    Timestamp.ofJson v = .ok t ↔ v = .num (.int t.millis.toNat) := by
  rw [Timestamp.ofJson, ← Json.word64_eq_ok_iff]
  cases v.word64 with
  | error cause =>
      refine iff_of_false ?_ ?_
      · intro h
        cases h
      · intro h
        cases h
  | ok n =>
      change Except.ok (Timestamp.mk n) = .ok t ↔ _
      rw [Except.ok.injEq, Except.ok.injEq, Timestamp.ext_iff]

/-! ### The grammar -/

namespace Schema

/-- The members of an entry, whatever else there is. -/
structure IsEntry (s : Schema) (members : List (String × Json)) : Prop where
  id : ∃ v, Assoc.get? "e_id" members = some v ∧ v.IsName
  deleted : ∃ b, Assoc.get? "deleted" members = some (.bool b)
  version : ∃ v, Assoc.get? "version" members = some v ∧ v.IsWord
  time : ∃ v, Assoc.get? s.timeField members = some v ∧ v.IsWord

/-- The members of a record, whatever else there is: a name, a version and a time, and perhaps a
watermark and a log of entries. -/
structure IsRecord (s : Schema) (members : List (String × Json)) : Prop where
  id : ∃ v, Assoc.get? s.idField members = some v ∧ v.IsName
  version : ∃ v, Assoc.get? "version" members = some v ∧ v.IsWord
  time : ∃ v, Assoc.get? s.timeField members = some v ∧ v.IsWord
  watermark : ∀ v, Assoc.get? "deleted" members = some v → v.IsWord
  log : ∀ v, Assoc.get? "logs" members = some v → ∃ items, v = .arr items ∧
    ∀ item ∈ items, ∃ members, item = .obj members ∧ s.IsEntry members

/-- The members have the values of an entry. -/
structure SpellsEntry (s : Schema) (e : Entry) (members : List (String × Json)) : Prop where
  id : Assoc.get? "e_id" members = some (.str e.id.text)
  deleted : Assoc.get? "deleted" members = some (.bool e.deleted)
  version : Assoc.get? "version" members = some (.num (.int e.version.toNat))
  time : Assoc.get? s.timeField members = some (.num (.int e.updated.millis.toNat))

/-- The members have a log: its entries stand as objects in an array, in their order, or it is empty
and left out. -/
def SpellsLog (s : Schema) (log : List Entry) (members : List (String × Json)) : Prop :=
  (∃ items, Assoc.get? "logs" members = some (.arr items) ∧
    List.Forall₂ (fun item e => ∃ members, item = .obj members ∧ s.SpellsEntry e members)
      items log) ∨
  Assoc.get? "logs" members = none ∧ log = []

/-- The members have the values of a document; a watermark that is left out is zero. -/
structure Spells (s : Schema) (d : Document) (members : List (String × Json)) : Prop where
  id : Assoc.get? s.idField members = some (.str d.id.text)
  version : Assoc.get? "version" members = some (.num (.int d.version.toNat))
  time : Assoc.get? s.timeField members = some (.num (.int d.updated.millis.toNat))
  watermark : Assoc.get? "deleted" members = some (.num (.int d.watermark.toNat)) ∨
    Assoc.get? "deleted" members = none ∧ d.watermark = 0
  log : s.SpellsLog d.log members

variable {s : Schema} {d : Document} {members restored : List (String × Json)}

/-! ### Entries -/

/-- An entry that has the field of the time is read, once that is renamed, as what it spells. -/
theorem ofJson_rename_eq_ok_iff (hid : s.timeField ≠ "e_id") (hdeleted : s.timeField ≠ "deleted")
    (hversion : s.timeField ≠ "version") {v : Json}
    (htime : Assoc.get? s.timeField members = some v)
    {e : Entry} :
    Entry.ofJson (.obj (Assoc.rename s.timeField "update_time" members)) = .ok e ↔
      s.SpellsEntry e members := by
  have hkeep : ∀ k, k ≠ s.timeField → k ≠ "update_time" →
      Assoc.get? k (Assoc.rename s.timeField "update_time" members) = Assoc.get? k members :=
    fun k hT htime => Assoc.get?_rename_of_ne hT htime members
  have hmoved :
      Assoc.get? "update_time" (Assoc.rename s.timeField "update_time" members) = some v :=
    Assoc.get?_rename_target htime
  change Entry.ofMembers _ = .ok e ↔ _
  simp only [Entry.ofMembers_eq_ok_iff, Json.member?_eq_some_iff, Id.ofJson_eq_ok_iff,
    Json.boolean_eq_ok_iff, Json.word64_eq_ok_iff, Timestamp.ofJson_eq_ok_iff,
    hkeep "e_id" hid.symm (by decide), hkeep "deleted" hdeleted.symm (by decide),
    hkeep "version" hversion.symm (by decide), hmoved, exists_eq_right, ← htime]
  constructor
  · rintro ⟨hid, hdeleted, hversion, htime⟩
    exact ⟨hid, hdeleted, hversion, htime⟩
  · rintro ⟨hid, hdeleted, hversion, htime⟩
    exact ⟨hid, hdeleted, hversion, htime⟩

/-- **A log is restored and read** iff each of its items is the object of an entry. -/
theorem restoreEntries_spells (h : s.Apart) (index : Nat) {items : List Json} {log : List Entry} :
    (∃ items', s.restoreEntries index items = .ok items' ∧
        items'.mapM Entry.ofJson = .ok log) ↔
      List.Forall₂ (fun item e => ∃ members, item = .obj members ∧ s.SpellsEntry e members)
        items log := by
  induction items generalizing index log with
  | nil =>
      simp only [restoreEntries, Except.ok.injEq, exists_eq_left', List.mapM_nil,
        List.forall₂_nil_left_iff]
      exact ⟨fun h => (Except.ok.inj h).symm, fun h => h ▸ rfl⟩
  | cons item items ih =>
      cases item with
      | obj members =>
          have hread : ∀ {v e}, Assoc.get? s.timeField members = some v →
              (Entry.ofJson (.obj (Assoc.rename s.timeField "update_time" members)) = .ok e ↔
                s.SpellsEntry e members) :=
            fun htime => ofJson_rename_eq_ok_iff h.time_ne_tag (h.time_ne (by decide))
              (h.time_ne (by decide)) htime
          rw [List.forall₂_cons_left_iff]
          simp only [restoreEntries, bind_eq_ok_iff, demand_eq_ok_iff]
          constructor
          · rintro ⟨_, ⟨_, ⟨v, hv⟩, rest, hrest, hitems⟩, hlog⟩
            cases hitems
            rw [List.mapM_cons, bind_eq_ok_iff] at hlog
            obtain ⟨e, he, hlog⟩ := hlog
            rw [bind_eq_ok_iff] at hlog
            obtain ⟨log, hlog, hcons⟩ := hlog
            cases hcons
            exact ⟨e, log, ⟨members, rfl, (hread hv).1 he⟩, (ih _).1 ⟨rest, hrest, hlog⟩, rfl⟩
          · rintro ⟨e, log, ⟨_, hmembers, he⟩, hlog, rfl⟩
            cases hmembers
            obtain ⟨rest, hrest, hlog⟩ := (ih (index + 1)).2 hlog
            refine ⟨_, ⟨(), ⟨_, he.time⟩, rest, hrest, rfl⟩, ?_⟩
            rw [List.mapM_cons, (hread he.time).2 he, hlog]
            rfl
      | _ =>
          refine iff_of_false ?_ ?_
          · rintro ⟨_, hrestored, -⟩
            cases hrestored
          · rw [List.forall₂_cons_left_iff]
            rintro ⟨_, _, ⟨_, hmembers, -⟩, -⟩
            cases hmembers

/-! ### Records -/

namespace Apart

theorem get?_inward (h : s.Apart) {k : String} (hk : k ∈ fixedFields) :
    Assoc.get? k (s.inward members) = Assoc.get? k members :=
  get?_inward_of_ne hk (h.id_ne hk) (h.time_ne hk)

/-- The log of a record that has both names is read as the log that it spells. -/
theorem spellsLog_iff (h : s.Apart) {log : List Entry} :
    (∃ restored, s.restoreMembers members = .ok restored ∧
        ∃ l, Json.member? "logs" (Json.list Entry.ofJson) restored = .ok l ∧ l.getD [] = log) ↔
      (∃ v, Assoc.get? s.idField members = some v) ∧
        (∃ v, Assoc.get? s.timeField members = some v) ∧ s.SpellsLog log members := by
  have hlogs : Assoc.get? "logs" (s.inward members) = Assoc.get? "logs" members :=
    h.get?_inward (by decide)
  simp only [restoreMembers_eq_ok_iff, Json.member?_getD_iff, Json.list_eq_ok_iff, hlogs,
    SpellsLog, ← restoreEntries_spells h 0]
  constructor
  · rintro ⟨_, ⟨hid, htime, ⟨items, items', hitems, hrestored, rfl⟩ | ⟨hnone, rfl⟩⟩, hlog⟩
    · refine ⟨hid, htime, .inl ⟨items, hitems, items', hrestored, ?_⟩⟩
      rw [Assoc.get?_put, if_pos rfl] at hlog
      rcases hlog with ⟨_, hv, _, rfl, hlog⟩ | ⟨hgone, -⟩
      · cases hv
        exact hlog
      · cases hgone
    · -- what is there and no array cannot be read
      refine ⟨hid, htime, .inr ?_⟩
      rw [hlogs] at hlog
      rcases hlog with ⟨_, hv, items, rfl, -⟩ | hgone
      · exact absurd hv (hnone items)
      · exact hgone
  · rintro ⟨hid, htime, ⟨items, hitems, items', hrestored, hlog⟩ | ⟨hgone, rfl⟩⟩
    · refine ⟨_, ⟨hid, htime, .inl ⟨items, items', hitems, hrestored, rfl⟩⟩, .inl ?_⟩
      exact ⟨_, (Assoc.get?_put ..).trans (if_pos rfl), items', rfl, hlog⟩
    · refine ⟨_, ⟨hid, htime, .inr ⟨?_, rfl⟩⟩, .inr ⟨hlogs.trans hgone, rfl⟩⟩
      intro items
      simp [hgone]

end Apart

/-- **A record is read as the document that it spells.** -/
theorem restore_eq_ok_iff_spells (h : s.Apart) :
    s.restore (.obj members) = .ok d ↔ s.Spells d members := by
  -- what is read under the names of a document, if the record has both names
  have hfields : ∀ {restored v w}, s.restoreMembers members = .ok restored →
      Assoc.get? s.idField members = some v → Assoc.get? s.timeField members = some w →
      (Assoc.get? "d_id" restored = some v ∧ Assoc.get? "update_time" restored = some w) ∧
        Assoc.get? "version" restored = Assoc.get? "version" members ∧
        Assoc.get? "deleted" restored = Assoc.get? "deleted" members := by
    intro restored v w hrestored hid htime
    simp only [get?_of_restoreMembers hrestored (k := "d_id") (by decide),
      get?_of_restoreMembers hrestored (k := "update_time") (by decide),
      get?_of_restoreMembers hrestored (k := "version") (by decide),
      get?_of_restoreMembers hrestored (k := "deleted") (by decide)]
    exact ⟨⟨h.sparing.get?_id_inward hid, h.sparing.get?_time_inward htime⟩,
      h.get?_inward (by decide), h.get?_inward (by decide)⟩
  simp only [restore_eq_ok_iff, Document.ofMembers_eq_ok_iff, Json.member?_eq_some_iff]
  constructor
  · rintro ⟨restored, hrestored, hid, hversion, hwatermark, htime, hlog⟩
    obtain ⟨⟨v, hv⟩, ⟨w, hw⟩, hspells⟩ := h.spellsLog_iff.1 ⟨restored, hrestored, hlog⟩
    obtain ⟨⟨hid', htime'⟩, hversion', hwatermark'⟩ := hfields hrestored hv hw
    simp only [hid', htime', hversion', Json.member?_getD_iff, hwatermark', Id.ofJson_eq_ok_iff,
      Timestamp.ofJson_eq_ok_iff, Json.word64_eq_ok_iff, exists_eq_right, ← hv, ← hw]
      at hid htime hversion hwatermark
    exact ⟨hid, hversion, htime, hwatermark, hspells⟩
  · rintro ⟨hid, hversion, htime, hwatermark, hlog⟩
    obtain ⟨restored, hrestored, hread⟩ := h.spellsLog_iff.2 ⟨⟨_, hid⟩, ⟨_, htime⟩, hlog⟩
    obtain ⟨⟨hid', htime'⟩, hversion', hwatermark'⟩ := hfields hrestored hid htime
    refine ⟨restored, hrestored, ⟨_, hid', Id.ofJson_toJson d.id⟩, ?_, ?_, ?_, hread⟩
    · exact ⟨_, hversion'.trans hversion, Json.word64_ofWord64 _⟩
    · rw [Json.member?_getD_iff, hwatermark']
      exact hwatermark.imp_left fun hw => ⟨_, hw, Json.word64_ofWord64 _⟩
    · exact ⟨_, htime', Timestamp.ofJson_toJson d.updated⟩

/-! ### Which records there are -/

/-- An entry of the grammar has the values of some entry, and so has no other. -/
theorem isEntry_iff_spells : s.IsEntry members ↔ ∃ e, s.SpellsEntry e members := by
  constructor
  · rintro ⟨⟨_, hid, hname⟩, ⟨b, hdeleted⟩, ⟨_, hversion, hword⟩, ⟨_, htime, hmillis⟩⟩
    obtain ⟨i, rfl⟩ := (Json.isName_iff .entry).1 hname
    obtain ⟨n, rfl⟩ := Json.isWord_iff.1 hword
    obtain ⟨t, rfl⟩ := Json.isWord_iff.1 hmillis
    exact ⟨⟨i, b, n, ⟨t⟩⟩, hid, hdeleted, hversion, htime⟩
  · rintro ⟨e, hid, hdeleted, hversion, htime⟩
    exact ⟨⟨_, hid, (Json.isName_iff .entry).2 ⟨_, rfl⟩⟩, ⟨_, hdeleted⟩,
      ⟨_, hversion, Json.isWord_iff.2 ⟨_, rfl⟩⟩, ⟨_, htime, Json.isWord_iff.2 ⟨_, rfl⟩⟩⟩

/-- A list of objects of entries spells some log. -/
theorem exists_forall₂_spells {items : List Json} :
    (∀ item ∈ items, ∃ members, item = .obj members ∧ s.IsEntry members) ↔ ∃ log,
      List.Forall₂ (fun item e => ∃ members, item = .obj members ∧ s.SpellsEntry e members)
        items log := by
  simp only [isEntry_iff_spells]
  induction items with
  | nil => exact iff_of_true nofun ⟨[], .nil⟩
  | cons item items ih =>
      rw [List.forall_mem_cons, ih]
      constructor
      · rintro ⟨⟨members, hmembers, e, he⟩, log, hlog⟩
        exact ⟨e :: log, .cons ⟨members, hmembers, he⟩ hlog⟩
      · rintro ⟨log, hlog⟩
        obtain ⟨e, rest, ⟨members, hmembers, he⟩, hrest, rfl⟩ := List.forall₂_cons_left_iff.1 hlog
        exact ⟨⟨members, hmembers, e, he⟩, rest, hrest⟩

/-- A record of the grammar has the values of some document, and so has no other. -/
theorem isRecord_iff_spells : s.IsRecord members ↔ ∃ d, s.Spells d members := by
  constructor
  · rintro ⟨⟨_, hid, hname⟩, ⟨_, hversion, hword⟩, ⟨_, htime, hmillis⟩, hdeleted, hlogs⟩
    obtain ⟨i, rfl⟩ := (Json.isName_iff .document).1 hname
    obtain ⟨n, rfl⟩ := Json.isWord_iff.1 hword
    obtain ⟨t, rfl⟩ := Json.isWord_iff.1 hmillis
    obtain ⟨watermark, hwatermark⟩ : ∃ watermark : UInt64,
        Assoc.get? "deleted" members = some (.num (.int watermark.toNat)) ∨
          Assoc.get? "deleted" members = none ∧ watermark = 0 := by
      cases hv : Assoc.get? "deleted" members with
      | none => exact ⟨0, .inr ⟨rfl, rfl⟩⟩
      | some v =>
          obtain ⟨w, rfl⟩ := Json.isWord_iff.1 (hdeleted v hv)
          exact ⟨w, .inl rfl⟩
    obtain ⟨log, hlog⟩ : ∃ log, s.SpellsLog log members := by
      cases hv : Assoc.get? "logs" members with
      | none => exact ⟨[], .inr ⟨hv, rfl⟩⟩
      | some v =>
          obtain ⟨items, rfl, hitems⟩ := hlogs v hv
          obtain ⟨log, hlog⟩ := exists_forall₂_spells.1 hitems
          exact ⟨log, .inl ⟨items, hv, hlog⟩⟩
    exact ⟨⟨i, n, watermark, ⟨t⟩, log⟩, hid, hversion, htime, hwatermark, hlog⟩
  · rintro ⟨d, hid, hversion, htime, hwatermark, hlog⟩
    refine ⟨⟨_, hid, (Json.isName_iff .document).2 ⟨_, rfl⟩⟩,
      ⟨_, hversion, Json.isWord_iff.2 ⟨_, rfl⟩⟩, ⟨_, htime, Json.isWord_iff.2 ⟨_, rfl⟩⟩, ?_, ?_⟩
    · intro v hv
      rcases hwatermark with hw | ⟨hnone, -⟩
      · cases hw.symm.trans hv
        exact Json.isWord_iff.2 ⟨_, rfl⟩
      · cases hnone.symm.trans hv
    · intro v hv
      rcases hlog with ⟨items, hitems, hlog⟩ | ⟨hnone, -⟩
      · cases hitems.symm.trans hv
        exact ⟨items, rfl, exists_forall₂_spells.2 ⟨_, hlog⟩⟩
      · cases hnone.symm.trans hv

end Schema

/-! ### What a store reads -/

namespace Store

/-- **Exactly the records of the grammar are read.**  If neither name of a schema is that of another
field, a value is read iff it is an object that has, under the names of the schema, what a document
must have; it is read as the document with these values and no other, whatever else the object and
its entries hold; and everything else is reported as corrupt, in the name of the collection. -/
theorem reads_records {s : Store}
    (id_free : s.schema.idField ∉ ["version", "deleted", "logs", "update_time"])
    (time_free : s.schema.timeField ∉ ["version", "deleted", "logs", "d_id", "e_id"])
    (distinct : s.schema.idField ≠ s.schema.timeField) (r : Json) :
    ((∃ d, s.decode r = .ok d) ↔ ∃ members, r = .obj members ∧ s.schema.IsRecord members) ∧
      (∀ d, s.decode r = .ok d ↔ ∃ members, r = .obj members ∧ s.schema.Spells d members) ∧
      ((¬ ∃ members, r = .obj members ∧ s.schema.IsRecord members) →
        ∃ reason, s.decode r = .error (.corrupt s.schema.name reason)) := by
  have h : s.schema.Apart := Schema.apart_iff.2 ⟨id_free, time_free, distinct⟩
  have hspells : ∀ d, s.decode r = .ok d ↔
      ∃ members, r = .obj members ∧ s.schema.Spells d members := by
    intro d
    rw [decode_eq_ok_iff]
    constructor
    · intro hd
      cases r with
      | obj members => exact ⟨members, rfl, (Schema.restore_eq_ok_iff_spells h).1 hd⟩
      | _ => cases hd
    · rintro ⟨members, rfl, hd⟩
      exact (Schema.restore_eq_ok_iff_spells h).2 hd
  have hread : (∃ d, s.decode r = .ok d) ↔
      ∃ members, r = .obj members ∧ s.schema.IsRecord members := by
    simp only [hspells, Schema.isRecord_iff_spells]
    constructor
    · rintro ⟨d, members, hr, hd⟩
      exact ⟨members, hr, d, hd⟩
    · rintro ⟨members, hr, d, hd⟩
      exact ⟨d, members, hr, hd⟩
  refine ⟨hread, hspells, fun hnone => ?_⟩
  cases hdecode : s.decode r with
  | ok d => exact absurd (hread.1 ⟨d, hdecode⟩) hnone
  | error e =>
      obtain ⟨reason, rfl⟩ := corrupt_of_decode hdecode
      exact ⟨reason, rfl⟩

/-- A record with two fields that nobody asked for, under the very names that the document gives to
the renamed ones, and an entry with one; its watermark is left out. -/
theorem reads_records_among_strays :
    let schema : Schema := { idField := "owner", timeField := "last_update" }
    let doc : DocumentId := ⟨"doc", by decide⟩
    let a : EntryId := ⟨"a", by decide⟩
    let d : Document := ⟨doc, 3, 0, ⟨7⟩, [⟨a, true, 2, ⟨5⟩⟩]⟩
    let entry : List (String × Json) :=
      [("update_time", .null), ("e_id", .str "a"), ("deleted", .bool true),
        ("version", .natural 2), ("last_update", .natural 5)]
    let members : List (String × Json) :=
      [("d_id", .arr []), ("update_time", .str "soon"), ("owner", .str "doc"),
        ("version", .natural 3), ("last_update", .natural 7), ("logs", .arr [.obj entry])]
    (schema.idField ∉ ["version", "deleted", "logs", "update_time"] ∧
        schema.timeField ∉ ["version", "deleted", "logs", "d_id", "e_id"] ∧
        schema.idField ≠ schema.timeField ∧ schema.Spells d members) ∧
      decode { schema } (.obj members) = .ok d ∧
      ∃ reason, decode { schema } (.arr []) = .error (.corrupt schema.name reason) := by
  intro schema doc a d entry members
  have id_free : schema.idField ∉ ["version", "deleted", "logs", "update_time"] := by decide
  have time_free : schema.timeField ∉ ["version", "deleted", "logs", "d_id", "e_id"] := by decide
  have distinct : schema.idField ≠ schema.timeField := by decide
  have hentry : schema.SpellsEntry ⟨a, true, 2, ⟨5⟩⟩ entry := ⟨rfl, rfl, rfl, rfl⟩
  have hspells : schema.Spells d members :=
    ⟨rfl, rfl, rfl, .inr ⟨rfl, rfl⟩, .inl ⟨_, rfl, .cons ⟨entry, rfl, hentry⟩ .nil⟩⟩
  have hreads := reads_records (s := { schema }) id_free time_free distinct
  refine ⟨⟨id_free, time_free, distinct, hspells⟩, ?_, ?_⟩
  · exact ((hreads _).2.1 d).2 ⟨members, rfl, hspells⟩
  · refine (hreads (.arr [])).2.2 ?_
    rintro ⟨_, hobject, -⟩
    cases hobject

end Store

end Chronicle
