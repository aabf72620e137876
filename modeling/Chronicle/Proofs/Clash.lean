/-
**What a clash of names costs.**  A schema may choose any two names, and one that is taken already
costs the field that bears it.  Whether anybody notices depends on that field.  A record without its
name, its version or its time is refused, and so is an entry without its tag or its mark; but a
record may do without its watermark and without its log, and then it reads as if they had never been
there.  So a clash of names is noticed, or it costs exactly a watermark or a log.

A schema gives every document back iff it never comes to either: the names are apart from the fields
that stay, from those of an entry, and from each other.  One document that leaves no field at its
default tells whether they are.

Main definitions:

* `Schema.Takes` — one of the two names is that of a given field;
* `Schema.Sparing`, `Schema.Legible` — names that spare what every record must have, and documents
  whose record can be read under them;
* `Schema.remnant` — what is left of a document;
* `Schema.Apart` — names that take no other field's place.

Main results:

* `Schema.restore_of_legible`, `Schema.legible_of_restore`, `Schema.restore_layOut_eq_ok_iff` — a
  record can be read iff it is legible, and then it **reads as what is left of its document**;
* `Schema.kept_of_restore_layOut` — name, version and time are never lost unnoticed;
* `Schema.roundTrips_of_apart`, `Schema.apart_of_roundTrips` — names apart give every document back,
  the usual ones among them, and no others do;
* `Schema.roundTrips_iff` — **the schemas that give every document back**;
* `Store.decode_layOut_cases` — **a clash of names is noticed, or costs a watermark or a log**, and
  `Store.log_lost_unnoticed`, a schema under which a log is lost.
-/

import Chronicle.Proofs.Layout

set_option autoImplicit false

namespace Chronicle

namespace Schema

variable {s : Schema} {d d' : Document} {members restored : List (String × Json)} {k : String}

/-! ### What is lost, and what is noticed -/

/-- Whether one of the two names is that of a given field. -/
def Takes (s : Schema) (k : String) : Prop :=
  s.idField = k ∨ s.timeField = k

instance (s : Schema) (k : String) : Decidable (s.Takes k) :=
  inferInstanceAs (Decidable (_ ∨ _))

/-- Names that spare what every record must have. -/
structure Sparing (s : Schema) : Prop where
  id_ne_version : s.idField ≠ "version"
  /-- The name is not put where the time comes from. -/
  id_ne_time : s.idField ≠ "update_time"
  time_ne_version : s.timeField ≠ "version"
  /-- The time is not put where the name came from. -/
  time_ne_id : s.timeField ≠ "d_id"
  distinct : s.idField ≠ s.timeField

/-- A document whose record can be read: on no entry has the time taken the place of the tag or of
the mark, unless the log as a whole is lost. -/
structure Legible (s : Schema) (d : Document) : Prop extends Sparing s where
  entries : s.timeField ∈ ["e_id", "deleted"] → s.idField = "logs" ∨ d.log = []

/-- What is left of a document: a watermark or a log whose field is taken reads as if it had never
been there. -/
def remnant (s : Schema) (d : Document) : Document :=
  { d with
    watermark := if s.Takes "deleted" then 0 else d.watermark
    log := if s.Takes "logs" then [] else d.log }

/-- A document is left whole iff it has nothing to lose. -/
theorem remnant_eq_self_iff : s.remnant d = d ↔
    (s.Takes "deleted" → d.watermark = 0) ∧ (s.Takes "logs" → d.log = []) := by
  simp only [remnant, Document.ext_iff, true_and, ite_eq_right_iff, @eq_comm _ (0 : UInt64),
    @eq_comm _ ([] : List Entry)]

/-! ### The fields of a record that come back -/

/-- A plain value goes out as it is, even in place of the log. -/
theorem get?_layOutMembers_of_plain {v : Json} (hv : Assoc.get? k (s.outward members) = some v)
    (plain : ∀ items, v ≠ .arr items) : Assoc.get? k (s.layOutMembers members) = some v := by
  by_cases hk : k = "logs"
  · subst hk
    rw [outward] at hv
    simp only [layOutMembers]
    split
    · next items hitems =>
        rw [hv] at hitems
        exact absurd (Option.some.inj hitems) (plain items)
    · exact hv
  · rw [get?_layOutMembers hk, hv]

/-- A field that one of the names takes does not come back. -/
theorem get?_inward_of_takes (hk : k ∈ fixedFields) (h : s.Takes k) :
    Assoc.get? k (s.inward members) = none := by
  cases hv : Assoc.get? k (s.inward members) with
  | none => rfl
  | some v =>
      obtain ⟨hI, hT⟩ := ne_of_get?_inward hk (Option.ne_none_iff_exists'.2 ⟨v, hv⟩)
      exact absurd h (not_or.2 ⟨hI, hT⟩)

namespace Sparing

theorem get?_idField (h : s.Sparing) (d : Document) :
    Assoc.get? s.idField (s.layOutMembers d.members) = some d.id.toJson := by
  refine get?_layOutMembers_of_plain ?_ nofun
  rw [outward, Assoc.get?_rename_of_ne h.id_ne_time h.distinct]
  exact Assoc.get?_rename_target rfl

theorem get?_timeField (h : s.Sparing) (d : Document) :
    Assoc.get? s.timeField (s.layOutMembers d.members) = some d.updated.toJson := by
  refine get?_layOutMembers_of_plain (Assoc.get?_rename_target ?_) nofun
  rw [Assoc.get?_rename_of_ne (by decide) h.id_ne_time.symm]
  rfl

/-- Under the names of the document stands what the record has under its own, even where the
record has something under the names of the document as well. -/
theorem get?_id_inward (h : s.Sparing) {v : Json} (hv : Assoc.get? s.idField members = some v) :
    Assoc.get? "d_id" (s.inward members) = some v := by
  rw [inward, Assoc.get?_rename_of_ne h.time_ne_id.symm (by decide)]
  exact Assoc.get?_rename_target hv

theorem get?_time_inward (h : s.Sparing) {v : Json}
    (hv : Assoc.get? s.timeField members = some v) :
    Assoc.get? "update_time" (s.inward members) = some v := by
  refine Assoc.get?_rename_target ?_
  rw [Assoc.get?_rename_of_ne h.distinct.symm h.time_ne_id, hv]

/-- What every record must have comes back. -/
theorem get?_inward (h : s.Sparing) (d : Document) (hk : k ∈ ["d_id", "version", "update_time"]) :
    Assoc.get? k (s.inward (s.layOutMembers d.members)) = Assoc.get? k d.members := by
  simp only [List.mem_cons, List.not_mem_nil, or_false] at hk
  rcases hk with rfl | rfl | rfl
  · exact h.get?_id_inward (h.get?_idField d)
  · exact get?_inward_layOutMembers (by decide) (by decide) h.id_ne_version h.time_ne_version
  · exact h.get?_time_inward (h.get?_timeField d)

end Sparing

/-- The watermark comes back, unless its field is taken. -/
theorem member?_watermark (s : Schema) (d : Document) :
    ∃ w, Json.member? "deleted" Json.word64 (s.inward (s.layOutMembers d.members)) = .ok w ∧
      w.getD 0 = (s.remnant d).watermark := by
  by_cases htaken : s.Takes "deleted"
  · refine ⟨none, ?_, by simp [remnant, htaken]⟩
    rw [Json.member?, get?_inward_of_takes (by decide) htaken]
  · obtain ⟨hI, hT⟩ := not_or.1 htaken
    refine ⟨some d.watermark, ?_, by simp [remnant, htaken]⟩
    rw [Json.member?_of_get? (get?_inward_layOutMembers (by decide) (by decide) hI hT),
      Json.word64_ofWord64]
    rfl

/-- A log whose field neither name takes is read back. -/
theorem Legible.list_returned (h : s.Legible d) (hI : s.idField ≠ "logs") :
    Json.list Entry.ofJson (.arr (d.log.map fun e => .obj (s.returned e))) = .ok d.log := by
  by_cases hT : s.timeField ∈ ["e_id", "deleted"]
  · rw [(h.entries hT).resolve_left hI]
    rfl
  · simp only [List.mem_cons, List.not_mem_nil, or_false, not_or] at hT
    exact Json.list_map (ofJson_returned hT.1 hT.2 h.time_ne_version) d.log

/-- The log comes back, unless its field is taken. -/
theorem Legible.restoreMembers (h : s.Legible d) :
    ∃ restored, s.restoreMembers (s.layOutMembers d.members) = .ok restored ∧
      ∃ l, Json.member? "logs" (Json.list Entry.ofJson) restored = .ok l ∧
        l.getD [] = (s.remnant d).log := by
  have hid : ∃ v, Assoc.get? s.idField (s.layOutMembers d.members) = some v :=
    ⟨_, h.get?_idField d⟩
  have htime : ∃ v, Assoc.get? s.timeField (s.layOutMembers d.members) = some v :=
    ⟨_, h.get?_timeField d⟩
  by_cases htaken : s.Takes "logs"
  · have hgone : Assoc.get? "logs" (s.inward (s.layOutMembers d.members)) = none :=
      get?_inward_of_takes (by decide) htaken
    refine ⟨_, restoreMembers_eq_ok_iff.2 ⟨hid, htime, .inr ⟨?_, rfl⟩⟩, none, ?_, ?_⟩
    · intro items
      simp [hgone]
    · rw [Json.member?, hgone]
    · simp [remnant, htaken]
  · obtain ⟨hI, hT⟩ := not_or.1 htaken
    have hlogs := get?_logs_inward_layOut hI hT d
    refine ⟨_, restoreMembers_eq_ok_iff.2 ⟨hid, htime,
      .inl ⟨_, _, hlogs, s.restoreEntries_layOut 0 d.log, rfl⟩⟩, some d.log, ?_, ?_⟩
    · rw [Json.member?_of_get? ((Assoc.get?_put ..).trans (if_pos rfl)), h.list_returned hI]
      rfl
    · simp [remnant, htaken]

/-! ### What a record reads as -/

/-- A legible record reads as what is left of its document. -/
theorem restore_of_legible (h : s.Legible d) : s.restore (s.layOut d) = .ok (s.remnant d) := by
  obtain ⟨restored, hrestored, l, hl, hlog⟩ := h.restoreMembers
  have hkeep : ∀ k ∈ ["d_id", "version", "update_time"],
      Assoc.get? k restored = Assoc.get? k d.members := by
    intro k hk
    have hk' : k ≠ "logs" := by
      rintro rfl
      exact absurd hk (by decide)
    rw [get?_of_restoreMembers hrestored hk', h.get?_inward d hk]
  obtain ⟨w, hw, hwatermark⟩ := s.member?_watermark d
  have hw' : Json.member? "deleted" Json.word64 restored = .ok w := by
    rw [Json.member?, get?_of_restoreMembers hrestored (by decide)]
    exact hw
  refine restore_eq_ok_iff.2 ⟨restored, hrestored, ?_⟩
  refine Document.ofMembers_eq_ok_iff.2 ⟨?_, ?_, ⟨w, hw', hwatermark⟩, ?_, l, hl, hlog⟩
  · rw [Json.member?_of_get? (hkeep "d_id" (by decide)), Id.ofJson_toJson]
    rfl
  · rw [Json.member?_of_get? (hkeep "version" (by decide)), Json.word64_ofWord64]
    rfl
  · rw [Json.member?_of_get? (hkeep "update_time" (by decide)), Timestamp.ofJson_toJson]
    rfl

/-- A record that reads at all is legible. -/
theorem legible_of_restore (h : s.restore (s.layOut d) = .ok d') : s.Legible d := by
  obtain ⟨restored, hrestored, hread⟩ := restore_eq_ok_iff.1 h
  obtain ⟨hid, hversion, -, htime, l, hl, -⟩ := Document.ofMembers_eq_ok_iff.1 hread
  obtain ⟨⟨v, hthere⟩, -, -⟩ := restoreMembers_eq_ok_iff.1 hrestored
  have hid := get?_inward_ne_none hrestored (Json.get?_ne_none_of_member? hid nofun)
  have htime := get?_inward_ne_none hrestored (Json.get?_ne_none_of_member? htime nofun)
  obtain ⟨hIv, hTv⟩ := ne_of_get?_inward (by decide)
    (get?_inward_ne_none hrestored (Json.get?_ne_none_of_member? hversion nofun))
  have hTid := timeField_ne_id hid
  have hItime := idField_ne_time (by simp [hthere]) htime
  refine ⟨⟨hIv, hItime, hTv, hTid, idField_ne_timeField hTid hItime htime⟩, ?_⟩
  intro hT
  by_cases hI : s.idField = "logs"
  · exact .inl hI
  · have hTl : s.timeField ≠ "logs" := by
      intro hTl
      rw [hTl] at hT
      exact absurd hT (by decide)
    exact .inr (log_eq_nil_of_clash (get?_logs_of_restoreMembers hI hTl hrestored) hl hT)

/-- **A record reads as what is left of its document**, if it reads at all. -/
theorem restore_layOut_eq_ok_iff :
    s.restore (s.layOut d) = .ok d' ↔ s.Legible d ∧ s.remnant d = d' := by
  constructor
  · intro h
    have hlegible := legible_of_restore h
    exact ⟨hlegible, Except.ok.inj ((restore_of_legible hlegible).symm.trans h)⟩
  · rintro ⟨hlegible, rfl⟩
    exact restore_of_legible hlegible

/-- So whatever else is lost, a record that reads at all has kept its name, its version and its
time. -/
theorem kept_of_restore_layOut (h : s.restore (s.layOut d) = .ok d') :
    d'.id = d.id ∧ d'.version = d.version ∧ d'.updated = d.updated := by
  obtain ⟨-, rfl⟩ := restore_layOut_eq_ok_iff.1 h
  exact ⟨rfl, rfl, rfl⟩

/-! ### Names apart -/

/-- Names that take no other field's place. -/
structure Apart (s : Schema) : Prop where
  id_not_fixed : s.idField ∉ fixedFields
  /-- The name is not put where the time comes from. -/
  id_ne_time : s.idField ≠ "update_time"
  time_not_fixed : s.timeField ∉ fixedFields
  /-- The time is not put where the name came from, nor on an entry where its tag is. -/
  time_ne_id : s.timeField ≠ "d_id"
  time_ne_tag : s.timeField ≠ "e_id"
  distinct : s.idField ≠ s.timeField

/-- The fields that neither name may be, in two lists. -/
theorem apart_iff : s.Apart ↔ s.idField ∉ ["version", "deleted", "logs", "update_time"] ∧
    s.timeField ∉ ["version", "deleted", "logs", "d_id", "e_id"] ∧ s.idField ≠ s.timeField := by
  constructor
  · rintro ⟨hI, htime, hT, hid, htag, hdistinct⟩
    simp_all [fixedFields]
  · rintro ⟨hI, hT, hdistinct⟩
    constructor <;> simp_all [fixedFields]

instance (s : Schema) : Decidable s.Apart :=
  decidable_of_iff _ apart_iff.symm

theorem Apart.id_ne (h : s.Apart) (hk : k ∈ fixedFields) : s.idField ≠ k := by
  rintro rfl
  exact h.id_not_fixed hk

theorem Apart.time_ne (h : s.Apart) (hk : k ∈ fixedFields) : s.timeField ≠ k := by
  rintro rfl
  exact h.time_not_fixed hk

/-- Names that take no other field's place spare what every record must have. -/
theorem Apart.sparing (h : s.Apart) : s.Sparing where
  id_ne_version := h.id_ne (by decide)
  id_ne_time := h.id_ne_time
  time_ne_version := h.time_ne (by decide)
  time_ne_id := h.time_ne_id
  distinct := h.distinct

/-- Under them every document is legible, for the time takes the place of no tag and of no mark. -/
theorem Apart.legible (h : s.Apart) (d : Document) : s.Legible d := by
  refine ⟨h.sparing, fun hT => ?_⟩
  simp only [List.mem_cons, List.not_mem_nil, or_false] at hT
  rcases hT with hT | hT
  · exact absurd hT h.time_ne_tag
  · exact absurd hT (h.time_ne (by decide))

/-- And every document is left whole. -/
theorem Apart.remnant_eq (h : s.Apart) (d : Document) : s.remnant d = d := by
  have hfree : ∀ k ∈ fixedFields, ¬ s.Takes k :=
    fun k hk => not_or.2 ⟨h.id_ne hk, h.time_ne hk⟩
  refine remnant_eq_self_iff.2 ⟨?_, ?_⟩
  · exact fun htaken => absurd htaken (hfree "deleted" (by decide))
  · exact fun htaken => absurd htaken (hfree "logs" (by decide))

/-- Names apart give every document back. -/
theorem roundTrips_of_apart (h : s.Apart) : s.RoundTrips :=
  fun d => restore_layOut_eq_ok_iff.2 ⟨h.legible d, h.remnant_eq d⟩

/-- The usual field names give every document back. -/
theorem roundTrips_default : ({} : Schema).RoundTrips :=
  roundTrips_of_apart (by decide)

/-- Schemas are told apart by a document that leaves no field at its default. -/
def probe : Document where
  id := ⟨"document", by decide⟩
  version := 1
  watermark := 1
  updated := .zero
  log := [⟨⟨"entry", by decide⟩, false, 1, .zero⟩]

/-- Names that clash make this document illegible, or leave less of it. -/
theorem apart_of_roundTrips (h : s.RoundTrips) : s.Apart := by
  obtain ⟨hlegible, hremnant⟩ := restore_layOut_eq_ok_iff.1 (h probe)
  obtain ⟨hwatermark, hlog⟩ := remnant_eq_self_iff.1 hremnant
  have hnonempty : probe.log ≠ [] := List.cons_ne_nil _ _
  have hdeleted : ¬ s.Takes "deleted" := fun htaken => absurd (hwatermark htaken) (by decide)
  have hlogs : ¬ s.Takes "logs" := fun htaken => hnonempty (hlog htaken)
  obtain ⟨hIw, hTw⟩ := not_or.1 hdeleted
  obtain ⟨hIl, hTl⟩ := not_or.1 hlogs
  have hTtag : s.timeField ≠ "e_id" := fun hT =>
    (hlegible.entries (by simp [hT])).elim hIl hnonempty
  exact {
    id_not_fixed := by simp [fixedFields, hlegible.id_ne_version, hIw, hIl]
    id_ne_time := hlegible.id_ne_time
    time_not_fixed := by simp [fixedFields, hlegible.time_ne_version, hTw, hTl]
    time_ne_id := hlegible.time_ne_id
    time_ne_tag := hTtag
    distinct := hlegible.distinct }

/-- **The schemas that give every document back** are those whose names are apart. -/
theorem roundTrips_iff (s : Schema) :
    (∀ d : Document, s.restore (s.layOut d) = .ok d) ↔
      s.idField ∉ ["version", "deleted", "logs", "update_time"] ∧
        s.timeField ∉ ["version", "deleted", "logs", "d_id", "e_id"] ∧
        s.idField ≠ s.timeField := by
  rw [← apart_iff]
  exact ⟨apart_of_roundTrips, roundTrips_of_apart⟩

end Schema

/-! ### What a store makes of it -/

namespace Store

theorem decode_layOut_eq_ok_iff {s : Store} {d d' : Document} :
    s.decode (s.schema.layOut d) = .ok d' ↔ s.schema.Legible d ∧ s.schema.remnant d = d' :=
  decode_eq_ok_iff.trans Schema.restore_layOut_eq_ok_iff

/-- **A clash of names is noticed, or costs a watermark or a log.**  Whatever the names of a schema,
the record of a document is reported as corrupt, or it reads as the document, less a watermark or a
log whose field is taken; and it reads as another document exactly when it can be read and had such
a watermark or log to lose. -/
theorem decode_layOut_cases (s : Store) (d : Document) :
    (s.decode (s.schema.layOut d) = .ok (s.schema.remnant d) ∧ s.schema.Legible d ∨
      (∃ reason, s.decode (s.schema.layOut d) = .error (.corrupt s.schema.name reason)) ∧
        ¬ s.schema.Legible d) ∧
      ((∃ d', s.decode (s.schema.layOut d) = .ok d' ∧ d' ≠ d) ↔ s.schema.Legible d ∧
        (s.schema.Takes "deleted" ∧ d.watermark ≠ 0 ∨ s.schema.Takes "logs" ∧ d.log ≠ [])) := by
  constructor
  · cases hdecode : s.decode (s.schema.layOut d) with
    | ok d' =>
        obtain ⟨hlegible, rfl⟩ := decode_layOut_eq_ok_iff.1 hdecode
        exact .inl ⟨rfl, hlegible⟩
    | error e =>
        obtain ⟨reason, rfl⟩ := corrupt_of_decode hdecode
        refine .inr ⟨⟨reason, rfl⟩, fun hlegible => ?_⟩
        cases hdecode.symm.trans (decode_layOut_eq_ok_iff.2 ⟨hlegible, rfl⟩)
  · have hlost : s.schema.remnant d ≠ d ↔
        s.schema.Takes "deleted" ∧ d.watermark ≠ 0 ∨ s.schema.Takes "logs" ∧ d.log ≠ [] := by
      rw [Ne, Schema.remnant_eq_self_iff, Decidable.not_and_iff_or_not,
        Decidable.not_imp_iff_and_not, Decidable.not_imp_iff_and_not]
    simp only [decode_layOut_eq_ok_iff]
    rw [← hlost]
    constructor
    · rintro ⟨d', ⟨hlegible, rfl⟩, hne⟩
      exact ⟨hlegible, hne⟩
    · rintro ⟨hlegible, hne⟩
      exact ⟨_, ⟨hlegible, rfl⟩, hne⟩

/-- A collection that keeps the names of its documents under `logs` loses their entries, and nobody
is told. -/
theorem log_lost_unnoticed :
    let schema : Schema := { idField := "logs" }
    let doc : DocumentId := ⟨"doc", by decide⟩
    let a : EntryId := ⟨"a", by decide⟩
    let d : Document := ⟨doc, 2, 0, ⟨7⟩, [⟨a, false, 2, ⟨7⟩⟩]⟩
    let d' : Document := ⟨doc, 2, 0, ⟨7⟩, []⟩
    decode { schema } (schema.layOut d) = .ok d' ∧ d' ≠ d :=
  ⟨rfl, by decide⟩

end Store

end Chronicle
