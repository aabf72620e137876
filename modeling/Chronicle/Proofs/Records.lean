/-
**Stores seen through loading.**  Under a schema that gives every document back, a store is known by
what it loads: a swap and an insertion that succeed are one document more or another one, a deletion
is one less, a sweep takes some away, and whatever is refused leaves everything as it was.

Main definitions:

* `Schema.RoundTrips` — every document laid out under the schema is restored as itself;
* `Request.Took` — a question together with an answer that tells of a change to the store.

Main results:

* `Store.load_eq_some_iff`, `Store.swap_eq_ok_iff` — when a document is loaded, and when a swap
  succeeds;
* `Store.swap_of_ok`, `Store.insert_of_ok` — what a swap and an insertion that succeed write;
* `Store.load_swap`, `Store.insert_ok`, `Store.load_delete`, `Store.load_sweep` — what is loaded
  after a change, under its own name and under every other;
* `Store.expired_of_decodes`, `Store.decodes_of_expired`, `Store.fault_of_expired` — what a sweep
  collects, and why it is refused;
* `Store.answer_of_not_took` — **a refusal changes nothing**.
-/

import Chronicle.Program

set_option autoImplicit false

namespace Chronicle

/-- Every document laid out under the schema is restored as itself. -/
def Schema.RoundTrips (s : Schema) : Prop :=
  ∀ d : Document, s.restore (s.layOut d) = .ok d

namespace Store

variable {s : Store}

/-- The store reads a record as its schema does. -/
theorem decode_eq_ok_iff {record : Json} {d : Document} :
    s.decode record = .ok d ↔ s.schema.restore record = .ok d := by
  rw [decode]
  cases s.schema.restore record with
  | error fault => exact iff_of_false nofun nofun
  | ok d' =>
      change Except.ok d' = .ok d ↔ _
      rw [Except.ok.injEq, Except.ok.injEq]

/-- A record that cannot be read is corrupt, and nothing else. -/
theorem corrupt_of_decode {record : Json} {e : StoreError} (h : s.decode record = .error e) :
    ∃ reason, e = .corrupt s.schema.name reason := by
  rw [decode] at h
  cases hrestore : s.schema.restore record with
  | error fault =>
      rw [hrestore] at h
      cases h
      exact ⟨_, rfl⟩
  | ok d =>
      rw [hrestore] at h
      cases h

theorem decode_layOut (hs : s.schema.RoundTrips) (d : Document) :
    s.decode (s.schema.layOut d) = .ok d :=
  decode_eq_ok_iff.2 (hs d)

/-- A document is loaded iff there is a record that is read as this document. -/
theorem load_eq_some_iff {id : DocumentId} {d : Document} : s.load id = .ok (some d) ↔
    ∃ record, s.raw? id = some record ∧ s.schema.restore record = .ok d := by
  simp only [load, raw?, ← decode_eq_ok_iff]
  cases s.records.get? id with
  | none => simp
  | some record =>
      dsimp only
      cases hdec : s.decode record with
      | error e => simp [hdec, Except.map]
      | ok d' => simp [hdec, Except.map]

/-- What is loaded depends on the record alone. -/
theorem load_eq (s : Store) (records : Table Json) (id : DocumentId) :
    load { s with records } id = match records.get? id with
      | none => .ok none
      | some record => (s.decode record).map some := rfl

/-- A name without a record is one that loads nothing. -/
theorem contains_eq_false_iff {id : DocumentId} : s.contains id = false ↔ s.load id = .ok none := by
  rw [contains, Table.contains, load]
  cases s.records.get? id with
  | none => simp
  | some record =>
      dsimp only
      cases s.decode record with
      | error e => simp [Except.map]
      | ok d => simp [Except.map]

/-- A document that is written is the one loaded afterwards; the others stay. -/
theorem load_put (hs : s.schema.RoundTrips) (d : Document) (id id' : DocumentId) :
    load { s with records := s.records.put id (s.schema.layOut d) } id' =
      if id' = id then .ok (some d) else s.load id' := by
  rw [load_eq, Table.get?_put]
  by_cases h : id = id'
  · rw [if_pos h, if_pos h.symm]
    dsimp only
    rw [decode_layOut hs]
    rfl
  · rw [if_neg h, if_neg (Ne.symm h)]
    rfl

/-! ### Writing -/

/-- A swap succeeds iff it brings a document of that name and finds one at the expected version. -/
theorem swap_eq_ok_iff {id : DocumentId} {expected : UInt64} {d : Document} :
    (s.swap id expected d).1 = .ok () ↔
      d.id = id ∧ ∃ current, s.load id = .ok (some current) ∧ current.version = expected := by
  unfold swap load
  by_cases hid : d.id ≠ id
  · simp [hid]
  rw [if_neg hid]
  cases hget : s.records.get? id with
  | none => simp
  | some record =>
      dsimp only
      cases hdec : s.decode record with
      | error e => simp [Except.map]
      | ok current =>
          by_cases hv : current.version = expected
          · simp [hv, Except.map, Decidable.not_not.1 hid]
          · simp [hv, Except.map]

/-- A swap that succeeds writes the record of its document. -/
theorem swap_of_ok {id : DocumentId} {expected : UInt64} {d : Document}
    (h : (s.swap id expected d).1 = .ok ()) :
    (s.swap id expected d).2 = { s with records := s.records.put id (s.schema.layOut d) } := by
  unfold swap at h ⊢
  grind

/-- A swap that succeeds replaces its document and no other. -/
theorem load_swap (hs : s.schema.RoundTrips) {id : DocumentId} {expected : UInt64} {d : Document}
    (h : (s.swap id expected d).1 = .ok ()) (id' : DocumentId) :
    (s.swap id expected d).2.load id' = if id' = id then .ok (some d) else s.load id' := by
  rw [swap_of_ok h, load_put hs]

/-- An insertion that succeeds found no record, and writes that of its document. -/
theorem insert_of_ok {d : Document} (h : (s.insert d).1 = .ok ()) : s.raw? d.id = none ∧
    (s.insert d).2 = { s with records := s.records.put d.id (s.schema.layOut d) } := by
  unfold insert at h ⊢
  by_cases hc : s.records.contains d.id = true
  · rw [if_pos hc] at h
    cases h
  · rw [if_neg hc]
    exact ⟨by simpa [raw?, Table.contains] using hc, rfl⟩

/-- An insertion that succeeds found no document, and wrote its own. -/
theorem insert_ok (hs : s.schema.RoundTrips) {d : Document} (h : (s.insert d).1 = .ok ()) :
    s.load d.id = .ok none ∧
      ∀ id', (s.insert d).2.load id' = if id' = d.id then .ok (some d) else s.load id' := by
  obtain ⟨hnone, hwritten⟩ := insert_of_ok h
  refine ⟨?_, fun id' => ?_⟩
  · rw [raw?] at hnone
    rw [load, hnone]
  · rw [hwritten, load_put hs]

/-! ### Removing -/

/-- A deletion takes away the document of its name. -/
theorem load_delete (s : Store) (id id' : DocumentId) :
    (s.delete id).2.load id' = if id' = id then .ok none else s.load id' := by
  rw [delete, load_eq, Table.get?_erase]
  by_cases h : id = id'
  · rw [if_pos h, if_pos h.symm]
  · rw [if_neg h, if_neg (Ne.symm h)]
    rfl

theorem get?_foldl_erase (ids : List DocumentId) (t : Table Json) (id : DocumentId) :
    (ids.foldl Table.erase t).get? id = if id ∈ ids then none else t.get? id := by
  induction ids generalizing t with
  | nil => rfl
  | cons x ids ih =>
      rw [List.foldl_cons, ih, Table.get?_erase]
      grind

/-- If every row is read as a document, a sweep collects the names of those that were last changed
before its deadline. -/
theorem expired_of_decodes {deadline : Timestamp} {changed : DocumentId → Bool}
    {rows : List (DocumentId × Json)} (h : ∀ row ∈ rows, ∃ d, s.decode row.2 = .ok d ∧
      changed row.1 = decide (d.updated.millis < deadline.millis)) :
    s.expired deadline rows = .ok ((rows.map (·.1)).filter changed) := by
  induction rows with
  | nil => rfl
  | cons row rows ih =>
      obtain ⟨d, hdecode, hchanged⟩ := h row (List.mem_cons_self ..)
      have hrest := ih fun row' hrow' => h row' (List.mem_cons_of_mem _ hrow')
      rw [expired, hdecode, hrest, List.map_cons, List.filter_cons]
      simp only [hchanged, decide_eq_true_eq]
      rfl

/-- A sweep that is not refused has read every row as a document. -/
theorem decodes_of_expired {deadline : Timestamp} {ids : List DocumentId}
    {rows : List (DocumentId × Json)} (h : s.expired deadline rows = .ok ids) :
    ∀ row ∈ rows, ∃ d, s.decode row.2 = .ok d := by
  induction rows generalizing ids with
  | nil => exact fun _ => nofun
  | cons row rows ih =>
      rw [expired] at h
      cases hdecode : s.decode row.2 with
      | error cause =>
          rw [hdecode] at h
          cases h
      | ok d =>
          rw [hdecode] at h
          cases hrest : s.expired deadline rows with
          | error cause =>
              rw [hrest] at h
              cases h
          | ok others => exact List.forall_mem_cons.2 ⟨⟨d, hdecode⟩, ih hrest⟩

/-- A sweep is refused for the sake of one of its rows. -/
theorem fault_of_expired {deadline : Timestamp} {e : StoreError}
    {rows : List (DocumentId × Json)} (h : s.expired deadline rows = .error e) :
    ∃ row ∈ rows, s.decode row.2 = .error e := by
  induction rows with
  | nil => cases h
  | cons row rows ih =>
      rw [expired] at h
      cases hdecode : s.decode row.2 with
      | error cause =>
          rw [hdecode] at h
          cases h
          exact ⟨row, List.mem_cons_self .., hdecode⟩
      | ok d =>
          rw [hdecode] at h
          cases hrest : s.expired deadline rows with
          | error cause =>
              rw [hrest] at h
              cases h
              obtain ⟨row', hrow', he⟩ := ih hrest
              exact ⟨row', List.mem_cons_of_mem _ hrow', he⟩
          | ok others =>
              rw [hrest] at h
              cases h

/-- A sweep leaves a document as it was, or takes it away. -/
theorem load_sweep (s : Store) (deadline : Timestamp) (id : DocumentId) :
    (s.sweep deadline).2.load id = s.load id ∨ (s.sweep deadline).2.load id = .ok none := by
  unfold sweep
  cases s.expired deadline s.records.rows with
  | error e => exact .inl rfl
  | ok ids =>
      dsimp only
      rw [load_eq, get?_foldl_erase]
      by_cases h : id ∈ ids
      · exact .inr (by rw [if_pos h])
      · exact .inl (by rw [if_neg h]; rfl)

end Store

/-! ### Answers that tell of a change -/

/-- Whether an answer tells that the store was changed. -/
def Request.Took : (request : Request) → request.Answer → Prop
  | .now, _ => False
  | .load _, _ => False
  | .swap .., answer => answer = .ok ()
  | .insert _, answer => answer = .ok ()
  | .delete _, answer => ∃ found, answer = .ok found
  | .sweep _, answer => ∃ count, answer = .ok count

/-- **A refusal changes nothing**, and neither does a question that is not about a change. -/
theorem Store.answer_of_not_took {s : Store} {now : Timestamp} {request : Request}
    (h : ¬ request.Took (Store.answer now request s).1) : (Store.answer now request s).2 = s := by
  cases request with
  | now => rfl
  | load id => rfl
  | swap id expected d =>
      change ¬ (s.swap id expected d).1 = .ok () at h
      change (s.swap id expected d).2 = s
      unfold swap at h ⊢
      grind
  | insert d =>
      change ¬ (s.insert d).1 = .ok () at h
      change (s.insert d).2 = s
      unfold insert at h ⊢
      grind
  | delete id => exact absurd ⟨_, rfl⟩ h
  | sweep deadline =>
      change ¬ ∃ count, (s.sweep deadline).1 = .ok count at h
      change (s.sweep deadline).2 = s
      unfold sweep at h ⊢
      cases he : s.expired deadline s.records.rows with
      | error e => rfl
      | ok ids =>
          rw [he] at h
          exact absurd ⟨_, rfl⟩ h

/-- No answer changes the schema. -/
@[simp]
theorem Store.schema_answer (s : Store) (now : Timestamp) (request : Request) :
    (Store.answer now request s).2.schema = s.schema := by
  cases request with
  | now => rfl
  | load id => rfl
  | swap id expected d => exact s.schema_swap id expected d
  | insert d => exact s.schema_insert d
  | delete id => exact s.schema_delete id
  | sweep deadline => exact s.schema_sweep deadline

end Chronicle
