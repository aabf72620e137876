/-
**Sweeps and refusals.**  What a store holds need not have come from it: a record may be anything,
and then it may not be read as a document.  Whatever a store holds, a refused operation leaves it as
it was.  That is least obvious of a sweep, which reads one record after another and may come upon one
that cannot be read when it has already found others that are to go.  It removes nothing before it
has read them all, so it is all or nothing, and the order in which it reads them does not show.

Main results:

* `Store.perform_of_error` — **a refused operation changes nothing**;
* `Store.sweep_of_unreadable` — a sweep over a record that cannot be read;
* `Store.sweep_perm` — **the order of the rows does not show**;
* `Store.sweeps_all_or_nothing` — the law of sweeps over any records.
-/

import Chronicle.Proofs.Catalogue
import Chronicle.Proofs.Pruning

set_option autoImplicit false

namespace Chronicle

namespace Store

variable {s t : Store}

/-! ### Refusals -/

/-- An answer put in other words is an error only if it was one. -/
theorem error_of_map {α β : Type} {f : α → β} {answer : Except StoreError α} {e : StoreError}
    (h : answer.map f = .error e) : answer = .error e := by
  cases answer with
  | ok a => cases h
  | error e' =>
      cases h
      rfl

/-- **A refused operation changes nothing**, whatever the store holds. -/
theorem perform_of_error {op : Operation} {e : StoreError} (h : (perform op s).1 = .error e) :
    (perform op s).2 = s := by
  cases op with
  | insert d =>
      have hrefused : ¬ (Request.insert d).Took (s.insert d).1 := by
        rw [error_of_map h]
        nofun
      exact @answer_of_not_took s .zero (.insert d) hrefused
  | swap id expected d =>
      have hrefused : ¬ (Request.swap id expected d).Took (s.swap id expected d).1 := by
        rw [error_of_map h]
        nofun
      exact @answer_of_not_took s .zero (.swap id expected d) hrefused
  | delete id => cases h
  | sweep deadline =>
      have hrefused : ¬ (Request.sweep deadline).Took (s.sweep deadline).1 := by
        rw [error_of_map h]
        nofun
      exact @answer_of_not_took s .zero (.sweep deadline) hrefused
  | load id => rfl
  | contains id => rfl
  | size => rfl
  | ids => rfl

/-! ### Records that cannot be read -/

/-- A record that cannot be read is one that the schema finds at fault. -/
theorem not_readable_iff : ¬ s.Readable ↔
    ∃ id record fault, s.raw? id = some record ∧ s.schema.restore record = .error fault := by
  constructor
  · intro h
    rw [Readable] at h
    push Not at h
    obtain ⟨id, record, hraw, hdecode⟩ := h
    cases hrestore : s.schema.restore record with
    | error fault => exact ⟨id, record, fault, hraw, hrestore⟩
    | ok d => exact absurd (decode_eq_ok_iff.2 hrestore) (hdecode d)
  · rintro ⟨id, record, fault, hraw, hfault⟩ h
    obtain ⟨d, hd⟩ := h id record hraw
    cases hfault.symm.trans (decode_eq_ok_iff.1 hd)

/-- A sweep over a record that cannot be read is refused, and removes nothing. -/
theorem sweep_of_unreadable (h : ¬ s.Readable) (deadline : Timestamp) :
    ∃ reason, s.sweep deadline = (.error (.corrupt s.schema.name reason), s) := by
  rw [sweep]
  cases hexpired : s.expired deadline s.records.rows with
  | error e =>
      obtain ⟨row, -, hdecode⟩ := fault_of_expired hexpired
      obtain ⟨reason, rfl⟩ := corrupt_of_decode hdecode
      exact ⟨reason, rfl⟩
  | ok ids =>
      refine absurd (fun id record hraw => ?_) h
      exact decodes_of_expired hexpired (id, record) (Assoc.mem_of_get? hraw)

/-! ### Rows in another order -/

theorem raw?_perm (hperm : t.records.rows.Perm s.records.rows) (id : DocumentId) :
    t.raw? id = s.raw? id :=
  Assoc.get?_perm t.records.nodup hperm id

/-- What is read of a record is the schema's matter. -/
theorem readable_iff_of_perm (hschema : t.schema = s.schema)
    (hperm : t.records.rows.Perm s.records.rows) : t.Readable ↔ s.Readable := by
  simp only [Readable, raw?_perm hperm, decode_eq_ok_iff, hschema]

theorem load_perm (hschema : t.schema = s.schema) (hperm : t.records.rows.Perm s.records.rows)
    (id : DocumentId) : t.load id = s.load id := by
  have hget : t.records.get? id = s.records.get? id := raw?_perm hperm id
  have hdecode : t.decode = s.decode := by
    funext record
    rw [decode, decode, hschema]
  rw [load, load, hget, hdecode]

/-- **The order of the rows does not show**: two stores with the same rows in different orders both
refuse a sweep or both remove the same records, and count as many. -/
theorem sweep_perm (hschema : t.schema = s.schema) (hperm : t.records.rows.Perm s.records.rows)
    (deadline : Timestamp) :
    (t.sweep deadline).1.toOption = (s.sweep deadline).1.toOption ∧
      ∀ id, (t.sweep deadline).2.raw? id = (s.sweep deadline).2.raw? id := by
  by_cases hs : s.Readable
  · have ht : t.Readable := (readable_iff_of_perm hschema hperm).2 hs
    obtain ⟨gone, hgone, hcount, hraw⟩ := sweep_of_readable hs deadline
    obtain ⟨gone', hgone', hcount', hraw'⟩ := sweep_of_readable ht deadline
    -- what is removed is told by look-ups
    have hsame : ∀ id, id ∈ gone' ↔ id ∈ gone := by
      intro id
      rw [(hraw' id).1, (hraw id).1, changedBefore, changedBefore, load_perm hschema hperm]
    have hlength : gone'.length = gone.length :=
      ((List.perm_ext_iff_of_nodup hgone' hgone).2 hsame).length_eq
    refine ⟨?_, fun id => ?_⟩
    · rw [hcount', hcount, hlength]
    · rw [(hraw' id).2, (hraw id).2, raw?_perm hperm]
      simp only [hsame]
  · have ht : ¬ t.Readable := mt (readable_iff_of_perm hschema hperm).1 hs
    obtain ⟨reason, hrefused⟩ := sweep_of_unreadable hs deadline
    obtain ⟨reason', hrefused'⟩ := sweep_of_unreadable ht deadline
    rw [hrefused', hrefused]
    exact ⟨rfl, raw?_perm hperm⟩

/-! ### The law of sweeps -/

/-- **Refusals change nothing, and a sweep is all or nothing**, whatever the schema and whatever the
records.  An operation that is answered by an error leaves the store as it was.  A sweep is refused,
for a corrupt record, iff some record cannot be read; otherwise it removes exactly the records whose
documents were last changed before its deadline, and tells how many there were.  The same rows in
another order make no difference to whether it is refused, to what it removes and to the number. -/
theorem sweeps_all_or_nothing (s : Store) :
    (∀ op e, (perform op s).1 = .error e → (perform op s).2 = s) ∧
      ∀ deadline : Timestamp,
        ((∃ reason, (s.sweep deadline).1 = .error (.corrupt s.schema.name reason)) ↔
          ∃ id record fault, s.raw? id = some record ∧ s.schema.restore record = .error fault) ∧
        ((¬ ∃ id record fault, s.raw? id = some record ∧ s.schema.restore record = .error fault) →
          ∃ removed : List DocumentId, removed.Nodup ∧
            (s.sweep deadline).1 = .ok removed.length ∧
            ∀ id, (id ∈ removed ↔ ∃ record d, s.raw? id = some record ∧
                s.schema.restore record = .ok d ∧ d.updated.millis < deadline.millis) ∧
              (s.sweep deadline).2.raw? id = if id ∈ removed then none else s.raw? id) ∧
        ∀ t : Store, t.schema = s.schema → t.records.rows.Perm s.records.rows →
          (t.sweep deadline).1.toOption = (s.sweep deadline).1.toOption ∧
            ∀ id, (t.sweep deadline).2.raw? id = (s.sweep deadline).2.raw? id := by
  refine ⟨fun op e => perform_of_error, fun deadline => ⟨?_, fun hsound => ?_, ?_⟩⟩
  · rw [← not_readable_iff]
    constructor
    · rintro ⟨reason, hrefused⟩ hs
      obtain ⟨removed, -, hcount, -⟩ := sweep_of_readable hs deadline
      cases hrefused.symm.trans hcount
    · intro hs
      obtain ⟨reason, hrefused⟩ := sweep_of_unreadable hs deadline
      exact ⟨reason, by rw [hrefused]⟩
  · rw [← not_readable_iff, not_not] at hsound
    obtain ⟨removed, hnodup, hcount, hremoved⟩ := sweep_of_readable hsound deadline
    refine ⟨removed, hnodup, hcount, fun id => ⟨?_, (hremoved id).2⟩⟩
    rw [(hremoved id).1, changedBefore_iff]
    simp only [load_eq_some_iff]
    constructor
    · rintro ⟨d, ⟨record, hraw, hd⟩, hchanged⟩
      exact ⟨record, d, hraw, hd, hchanged⟩
    · rintro ⟨record, d, hraw, hd, hchanged⟩
      exact ⟨d, ⟨record, hraw, hd⟩, hchanged⟩
  · intro t hschema hperm
    exact sweep_perm hschema hperm deadline

/-- Of three records the first is due and the second cannot be read: the sweep is refused and leaves
all three, and so it is if it comes upon the second one first.  Without the second, it removes the
first and leaves the third. -/
theorem sweeps_all_or_nothing_past_corrupt :
    let old : DocumentId := ⟨"old", by decide⟩
    let bad : DocumentId := ⟨"bad", by decide⟩
    let new : DocumentId := ⟨"new", by decide⟩
    let due : DocumentId × Json := (old, Schema.layOut {} ⟨old, 1, 0, ⟨5⟩, []⟩)
    let fresh : DocumentId × Json := (new, Schema.layOut {} ⟨new, 1, 0, ⟨10⟩, []⟩)
    let s : Store := { records := ⟨[due, (bad, .null), fresh], by decide⟩ }
    let t : Store := { records := ⟨[(bad, .null), due, fresh], by decide⟩ }
    let sound : Store := { records := ⟨[due, fresh], by decide⟩ }
    (∃ reason, (s.sweep ⟨10⟩).1 = .error (.corrupt "version_log" reason)) ∧
      (perform (.sweep ⟨10⟩) s).2 = s ∧ (t.sweep ⟨10⟩).1.toOption = none ∧
      (sound.sweep ⟨10⟩).1 = .ok 1 ∧ (sound.sweep ⟨10⟩).2.raw? old = none ∧
      (sound.sweep ⟨10⟩).2.raw? new = some fresh.2 := by
  intro old bad new due fresh s t sound
  obtain ⟨hatomic, hsweep⟩ := sweeps_all_or_nothing s
  obtain ⟨hrefused, -, horder⟩ := hsweep ⟨10⟩
  obtain ⟨reason, hreason⟩ := hrefused.2 ⟨bad, .null, .notObject, rfl, rfl⟩
  refine ⟨⟨reason, hreason⟩, ?_, ?_, by decide +kernel, rfl, rfl⟩
  · refine hatomic (.sweep ⟨10⟩) (.corrupt "version_log" reason) ?_
    change (s.sweep ⟨10⟩).1.map Reply.count = _
    rw [hreason]
    rfl
  · rw [(horder t rfl (.swap ..)).1, hreason]
    rfl

end Store

end Chronicle
