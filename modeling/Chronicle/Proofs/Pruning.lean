/-
**Idle documents.**  A sweep removes what was last changed before a deadline, and pruning is a sweep
whose deadline lies a span of time before now.  What is removed should be what has not changed for
longer than the span.  It is, as long as the milliseconds of the span fit into a word.  Of a longer
span only the remainder counts, so the deadline comes too late: no document can have been idle for
that long, and those that have been idle for the remainder are removed all the same.

Main definitions:

* `Store.Readable` — every record is read as a document;
* `Store.changedBefore` — the document of a name was last changed before a deadline;
* `Store.IdleFor` — **a document that has not changed for longer than a span**, in exact arithmetic.

Main results:

* `Store.expired_of_readable`, `Store.sweep_of_readable` — what a sweep removes;
* `Store.changedBefore_earlier_iff` — the deadline in exact arithmetic;
* `Client.prunes_idle_for_remainder` — **what pruning removes**, and for which spans this is what it
  should remove;
* `Client.prunes_recent` — a span for which it is not.
-/

import Chronicle.Proofs.Failures

set_option autoImplicit false

namespace Chronicle

/-! ### Sweeps -/

namespace Store

variable {s : Store} {deadline : Timestamp} {id : DocumentId}

/-- Every record is read as a document. -/
def Readable (s : Store) : Prop :=
  ∀ id record, s.raw? id = some record → ∃ d, s.decode record = .ok d

theorem Labelled.readable (h : s.Labelled) (hs : s.schema.RoundTrips) : s.Readable := by
  intro id record hrecord
  obtain ⟨d, -, rfl⟩ := h id record hrecord
  exact ⟨d, decode_layOut hs d⟩

/-- Whether the document of a name was last changed before a deadline. -/
def changedBefore (s : Store) (deadline : Timestamp) (id : DocumentId) : Bool :=
  match s.load id with
  | .ok (some d) => d.updated.millis < deadline.millis
  | _ => false

theorem changedBefore_iff : s.changedBefore deadline id = true ↔
    ∃ d, s.load id = .ok (some d) ∧ d.updated.millis < deadline.millis := by
  rw [changedBefore]
  split
  · next d hload => simp [hload]
  · next hload =>
      refine iff_of_false Bool.false_ne_true ?_
      rintro ⟨d, hd, -⟩
      exact hload d hd

/-- The rows that a sweep is to remove are those of the documents that were last changed before its
deadline. -/
theorem expired_of_readable (h : s.Readable) (deadline : Timestamp) :
    s.expired deadline s.records.rows =
      .ok ((s.records.rows.map (·.1)).filter (s.changedBefore deadline)) := by
  refine expired_of_decodes fun row hrow => ?_
  -- every row is read as the document of its name
  have hraw : s.raw? row.1 = some row.2 := Assoc.get?_of_mem s.records.nodup hrow
  obtain ⟨d, hd⟩ := h row.1 row.2 hraw
  have hload : s.load row.1 = .ok (some d) :=
    load_eq_some_iff.2 ⟨row.2, hraw, decode_eq_ok_iff.1 hd⟩
  exact ⟨d, hd, by rw [changedBefore, hload]⟩

/-- **A sweep** of a store that can be read removes the documents that were last changed before its
deadline, tells how many there were, and leaves every other record as it was. -/
theorem sweep_of_readable (h : s.Readable) (deadline : Timestamp) :
    ∃ removed : List DocumentId, removed.Nodup ∧ (s.sweep deadline).1 = .ok removed.length ∧
      ∀ id, (id ∈ removed ↔ s.changedBefore deadline id = true) ∧
        (s.sweep deadline).2.raw? id = if id ∈ removed then none else s.raw? id := by
  refine ⟨_, s.records.nodup.filter (s.changedBefore deadline), ?_, fun id => ⟨?_, ?_⟩⟩
  · rw [sweep, expired_of_readable h]
  · rw [List.mem_filter, and_iff_right_iff_imp]
    intro hchanged
    obtain ⟨d, hload, -⟩ := changedBefore_iff.1 hchanged
    obtain ⟨record, hraw, -⟩ := load_eq_some_iff.1 hload
    rw [raw?, Table.get?] at hraw
    exact Assoc.get?_ne_none_iff.1 (by simp [hraw])
  · rw [sweep, expired_of_readable h]
    exact get?_foldl_erase ..

/-! ### Deadlines -/

/-- The document of a name has not changed for longer than so many milliseconds. -/
def IdleFor (s : Store) (now : Timestamp) (millis : Nat) (id : DocumentId) : Prop :=
  ∃ d, s.load id = .ok (some d) ∧ d.updated.millis.toNat + millis < now.millis.toNat

/-- A deadline that lies a span before now, in exact arithmetic: of the span its remainder
counts. -/
theorem changedBefore_earlier_iff {now : Timestamp} {idle : Duration} :
    s.changedBefore (now.earlier idle) id = true ↔
      s.IdleFor now (idle.wholeMillis % UInt64.size) id := by
  have hdeadline : ∀ d : Document, d.updated.millis < (now.earlier idle).millis ↔
      d.updated.millis.toNat + idle.wholeMillis % UInt64.size < now.millis.toNat := by
    intro d
    rw [UInt64.lt_iff_toNat_lt, Timestamp.toNat_earlier, Duration.toNat_millis]
    omega
  simp only [changedBefore_iff, IdleFor, hdeadline]

/-- What has been idle for a span has been idle for every shorter one. -/
theorem IdleFor.of_le {now : Timestamp} {shorter longer : Nat} (h : s.IdleFor now longer id)
    (hle : shorter ≤ longer) : s.IdleFor now shorter id := by
  obtain ⟨d, hload, hidle⟩ := h
  exact ⟨d, hload, by omega⟩

/-- No document has been idle for longer than a clock can show. -/
theorem IdleFor.lt_size {now : Timestamp} {millis : Nat} (h : s.IdleFor now millis id) :
    millis < UInt64.size := by
  obtain ⟨d, -, hidle⟩ := h
  have := now.millis.toNat_lt_size
  omega

end Store

/-! ### Pruning -/

namespace Client

variable {ι : Type} [DecidableEq ι] {schema : Schema}

/-- Pruning with nobody in between is one sweep. -/
theorem run_prune (idle : Duration) (now : Timestamp) (s : Store) :
    (prune idle).run (Store.answer now) s =
      ((s.sweep (now.earlier idle)).1.mapError .store, (s.sweep (now.earlier idle)).2) := rfl

/-- **What pruning removes.**  Whatever clients and others have asked of a store that was empty at
first, under a schema that gives every document back, and whatever the clock shows: pruning removes
the documents that have been idle for longer than the remainder of the span, tells how many there
were, and leaves every other record as it was.  These are the documents that have been idle for
longer than the span itself exactly if its milliseconds fit into a word or nothing is removed; and
up to the spans that fit, a longer one removes nothing that a shorter one keeps. -/
theorem prunes_idle_for_remainder (hs : schema.RoundTrips) (deeds : List (Deed ι))
    (now : Timestamp) (idle : Duration) :
    let s := ((Exchange.idle { schema } : Exchange ι).enactAll deeds).store
    let pruned := fun span => (prune span).run (Store.answer now) s
    (∃ removed : List DocumentId, removed.Nodup ∧ (pruned idle).1 = .ok removed.length ∧
        (∀ id, id ∈ removed ↔ s.IdleFor now (idle.wholeMillis % UInt64.size) id) ∧
        (∀ id, (pruned idle).2.raw? id = if id ∈ removed then none else s.raw? id) ∧
        ((∀ id, id ∈ removed ↔ s.IdleFor now idle.wholeMillis id) ↔
          idle.wholeMillis < UInt64.size ∨ removed = [])) ∧
      (idle.wholeMillis < UInt64.size → ∀ shorter : Duration,
        shorter.wholeMillis ≤ idle.wholeMillis →
        ∀ id, (pruned shorter).2.raw? id = s.raw? id → (pruned idle).2.raw? id = s.raw? id) := by
  intro s pruned
  have hguarded := Exchange.guarded_enactAll (Exchange.guarded_idle schema) deeds
  have hreadable : s.Readable := by
    refine hguarded.labelled.readable ?_
    rw [hguarded.layout]
    exact hs
  -- what is removed, in exact arithmetic
  have hremoves : ∀ span : Duration, ∃ removed : List DocumentId, removed.Nodup ∧
      (pruned span).1 = .ok removed.length ∧
      (∀ id, id ∈ removed ↔ s.IdleFor now (span.wholeMillis % UInt64.size) id) ∧
      ∀ id, (pruned span).2.raw? id = if id ∈ removed then none else s.raw? id := by
    intro span
    obtain ⟨removed, hnodup, hcount, hremoved⟩ :=
      Store.sweep_of_readable hreadable (now.earlier span)
    refine ⟨removed, hnodup, ?_, fun id => ?_, fun id => (hremoved id).2⟩
    · have hfirst := congrArg Prod.fst (run_prune span now s)
      rw [hcount] at hfirst
      exact hfirst
    · rw [(hremoved id).1, Store.changedBefore_earlier_iff]
  constructor
  · obtain ⟨removed, hnodup, hcount, hidle, hraw⟩ := hremoves idle
    refine ⟨removed, hnodup, hcount, hidle, hraw, ?_⟩
    constructor
    · intro hexact
      refine Decidable.or_iff_not_imp_left.2 fun hlong => ?_
      refine List.eq_nil_iff_forall_not_mem.2 fun id hid => ?_
      exact hlong ((hexact id).1 hid).lt_size
    · rintro (hfits | rfl) id
      · rw [hidle, Nat.mod_eq_of_lt hfits]
      · refine ⟨nofun, fun hlong => ?_⟩
        exact (hidle id).2 (hlong.of_le (Nat.mod_le ..))
  · intro hfits shorter hle id hkept
    obtain ⟨removed, -, -, hidle, hraw⟩ := hremoves idle
    obtain ⟨removed', -, -, hidle', hraw'⟩ := hremoves shorter
    rw [hraw]
    split
    · next hid =>
        -- what the longer span removes, the shorter one removes too
        have hid' : id ∈ removed' := by
          rw [hidle']
          rw [hidle, Nat.mod_eq_of_lt hfits] at hid
          exact hid.of_le (Nat.le_trans (Nat.mod_le ..) hle)
        rwa [hraw', if_pos hid'] at hkept
    · rfl

/-- Two documents, one of which has not changed for ten seconds when those are removed that have
not changed for five. -/
theorem prunes_idle_for_five_seconds :
    let doc : DocumentId := ⟨"doc", by decide⟩
    let other : DocumentId := ⟨"other", by decide⟩
    let a : EntryId := ⟨"a", by decide⟩
    let deeds : List (Deed Bool) :=
      [.direct ⟨0⟩ (.insert ⟨doc, 1, 0, ⟨1000⟩, []⟩),
        .client (.call true {} (.touch other [a] false)), .client (.ask true ⟨0⟩),
        .client (.ask true ⟨8000⟩), .client (.ask true ⟨0⟩)]
    let s := ((Exchange.idle {} : Exchange Bool).enactAll deeds).store
    let idle : Duration := ⟨5, 0, by decide⟩
    let pruned := fun span => (prune span).run (Store.answer ⟨11000⟩) s
    Schema.RoundTrips {} ∧
      (∃ removed : List DocumentId, removed.Nodup ∧ (pruned idle).1 = .ok removed.length ∧
        (∀ id, id ∈ removed ↔ s.IdleFor ⟨11000⟩ idle.wholeMillis id) ∧
        ∀ id, (pruned idle).2.raw? id = if id ∈ removed then none else s.raw? id) ∧
      s.IdleFor ⟨11000⟩ idle.wholeMillis doc ∧ ¬ s.IdleFor ⟨11000⟩ idle.wholeMillis other := by
  intro doc other a deeds s idle pruned
  obtain ⟨⟨removed, hnodup, hcount, -, hraw, hexact⟩, -⟩ :=
    prunes_idle_for_remainder Schema.roundTrips_default deeds ⟨11000⟩ idle
  refine ⟨Schema.roundTrips_default, ⟨removed, hnodup, hcount, ?_, hraw⟩, ?_, ?_⟩
  · exact hexact.2 (.inl (by decide))
  · have hload : s.load doc = .ok (some ⟨doc, 1, 0, ⟨1000⟩, []⟩) := by decide +kernel
    exact ⟨_, hload, by decide⟩
  · have hload : s.load other = .ok (some (firstDocument other [a] false ⟨8000⟩)) := by
      decide +kernel
    rintro ⟨d, hd, hidle⟩
    cases hload.symm.trans hd
    revert hidle
    decide

/-- **A span that is too long removes what was changed a second ago.**  Eighteen quadrillion seconds
are 384 milliseconds more than a word can count, so the document goes; an hour keeps it. -/
theorem prunes_recent :
    let doc : DocumentId := ⟨"doc", by decide⟩
    let a : EntryId := ⟨"a", by decide⟩
    let deeds : List (Deed Unit) := [.client (.call () {} (.touch doc [a] false)),
      .client (.ask () ⟨1000⟩), .client (.ask () ⟨1000⟩), .client (.ask () ⟨1000⟩)]
    let s := ((Exchange.idle {} : Exchange Unit).enactAll deeds).store
    let d := firstDocument doc [a] false ⟨1000⟩
    let age : Duration := ⟨18446744073709552, 0, by decide⟩
    let hour : Duration := ⟨3600, 0, by decide⟩
    let pruned := fun span => (prune span).run (Store.answer ⟨2000⟩) s
    Schema.RoundTrips {} ∧ s.load doc = .ok (some d) ∧
      ¬ d.updated.millis.toNat + age.wholeMillis < 2000 ∧ (pruned age).1 = .ok 1 ∧
      (pruned age).2.raw? doc = none ∧ hour.wholeMillis < age.wholeMillis ∧
      (pruned hour).1 = .ok 0 ∧ (pruned hour).2.load doc = .ok (some d) := by
  intro doc a deeds s d age hour pruned
  refine ⟨Schema.roundTrips_default, ?_, ?_, ?_, ?_, ?_, ?_, ?_⟩
  · decide +kernel
  · decide
  · decide +kernel
  · decide +kernel
  · decide
  · decide +kernel
  · decide +kernel

end Client

end Chronicle
