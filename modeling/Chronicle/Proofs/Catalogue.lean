/-
**A store is a map of documents.**  Between any two operations a store holds records: every write
lays a document out, and every operation that looks at one restores it first.  Under a schema that
gives every document back none of this shows: whatever is asked of a store that was empty at first,
it answers as a finite map from names to documents does.

Main definitions:

* `Operation`, `Reply`, `Store.perform` — what can be asked of a store, and what is answered;
* `Operation.run` — one operation after another;
* `Catalogue`, `Catalogue.perform` — **a finite map** from names to documents, and its answers;
* `Store.Holds` — the store has the records of the documents of a catalogue, each under its name.

Main results:

* `Store.Holds.load`, `Store.Holds.ids`, `Store.Holds.expired` — what a store shows of the catalogue
  that it holds;
* `Store.Holds.perform` — one operation: the same answer, and what is left holds what is left;
* `Store.answers_as_catalogue` — **every run of operations**.
-/

import Chronicle.Proofs.Clash
import Chronicle.Proofs.Names
import Mathlib.Data.Finset.Sort
import Mathlib.Logic.Function.Basic

set_option autoImplicit false

namespace Chronicle

/-! ### Operations -/

/-- What can be asked of a store. -/
inductive Operation where
  | insert (document : Document)
  | load (id : DocumentId)
  | swap (id : DocumentId) (expected : UInt64) (document : Document)
  | delete (id : DocumentId)
  | sweep (deadline : Timestamp)
  | contains (id : DocumentId)
  | size
  | ids
deriving DecidableEq

/-- What is answered, if nothing is wrong. -/
inductive Reply where
  | done
  | found (document : Option Document)
  | whether (holds : Bool)
  | count (number : Nat)
  | names (ids : List DocumentId)
deriving DecidableEq

/-- What a store answers to an operation, and the store that it leaves. -/
def Store.perform : Operation → StateM Store (Except StoreError Reply)
  | .insert d => fun s => ((s.insert d).1.map fun _ => .done, (s.insert d).2)
  | .load id => fun s => ((s.load id).map .found, s)
  | .swap id expected d => fun s =>
    ((s.swap id expected d).1.map fun _ => .done, (s.swap id expected d).2)
  | .delete id => fun s => ((s.delete id).1.map .whether, (s.delete id).2)
  | .sweep deadline => fun s => ((s.sweep deadline).1.map .count, (s.sweep deadline).2)
  | .contains id => fun s => (.ok (.whether (s.contains id)), s)
  | .size => fun s => (.ok (.count s.records.size), s)
  | .ids => fun s => (.ok (.names s.records.ids), s)

namespace Operation

/-- What is answered to a run of operations, and what they leave. -/
def run {σ : Type} (perform : Operation → StateM σ (Except StoreError Reply)) (start : σ)
    (ops : List Operation) : List (Except StoreError Reply) × σ :=
  ops.mapM perform start

variable {σ : Type} {answerer : Operation → StateM σ (Except StoreError Reply)}

/-- The first answer of a run is to its first operation, and the others follow on what that
leaves. -/
theorem run_cons (start : σ) (op : Operation) (ops : List Operation) :
    run answerer start (op :: ops) =
      ((answerer op start).1 :: (run answerer (answerer op start).2 ops).1,
        (run answerer (answerer op start).2 ops).2) := by
  rw [run, List.mapM_cons]
  rfl

/-- Every answer of a run is one to an operation, whatever had been asked before. -/
theorem exists_of_mem_run {answer : Except StoreError Reply} {start : σ} {ops : List Operation}
    (h : answer ∈ (run answerer start ops).1) : ∃ op state, answer = (answerer op state).1 := by
  induction ops generalizing start with
  | nil => exact absurd h List.not_mem_nil
  | cons op ops ih =>
      rw [run_cons] at h
      rcases List.mem_cons.1 h with rfl | hrest
      · exact ⟨op, start, rfl⟩
      · exact ih hrest

end Operation

/-! ### Finite maps -/

/-- A finite map from names to documents. -/
structure Catalogue where
  get? : DocumentId → Option Document
  /-- The names that have a document. -/
  ids : Finset DocumentId
  mem_ids : ∀ id, id ∈ ids ↔ get? id ≠ none

namespace Catalogue

/-- The map without documents. -/
def empty : Catalogue := ⟨fun _ => none, ∅, by simp⟩

/-- Gives a name a document, in place of the one it has. -/
def put (m : Catalogue) (id : DocumentId) (d : Document) : Catalogue where
  get? := Function.update m.get? id (some d)
  ids := Insert.insert id m.ids
  mem_ids id' := by
    by_cases h : id' = id
    · simp [h]
    · simp [h, m.mem_ids]

/-- Leaves out the names that a condition does not hold of. -/
def restrict (m : Catalogue) (p : DocumentId → Bool) : Catalogue where
  get? id := if p id then m.get? id else none
  ids := m.ids.filter (p ·)
  mem_ids id := by
    rw [Finset.mem_filter, m.mem_ids]
    by_cases h : p id = true <;> simp [h]

theorem get?_put (m : Catalogue) (id id' : DocumentId) (d : Document) :
    (m.put id d).get? id' = if id' = id then some d else m.get? id' :=
  Function.update_apply ..

theorem get?_restrict (m : Catalogue) (p : DocumentId → Bool) (id : DocumentId) :
    (m.restrict p).get? id = if p id then m.get? id else none := rfl

/-- Whether the document of a name was last changed before a deadline. -/
def isExpired (m : Catalogue) (deadline : Timestamp) (id : DocumentId) : Bool :=
  (m.get? id).any fun d => decide (d.updated.millis < deadline.millis)

/-- What a map answers to an operation, and the map that it leaves. -/
def perform : Operation → StateM Catalogue (Except StoreError Reply)
  | .insert d => fun m =>
    if d.id ∈ m.ids then (.error (.alreadyExists d.id), m) else (.ok .done, m.put d.id d)
  | .load id => fun m => (.ok (.found (m.get? id)), m)
  | .swap id expected d => fun m =>
    if d.id ≠ id then (.error (.idMismatch id d.id), m)
    else match m.get? id with
      | none => (.error (.notFound id), m)
      | some current =>
        if current.version ≠ expected then
          (.error (.versionConflict id expected current.version), m)
        else (.ok .done, m.put id d)
  | .delete id => fun m => (.ok (.whether (decide (id ∈ m.ids))), m.restrict (· ≠ id))
  | .sweep deadline => fun m =>
    (.ok (.count (m.ids.filter (m.isExpired deadline ·)).card),
      m.restrict fun id => !m.isExpired deadline id)
  | .contains id => fun m => (.ok (.whether (decide (id ∈ m.ids))), m)
  | .size => fun m => (.ok (.count m.ids.card), m)
  | .ids => fun m => (.ok (.names (m.ids.sort Id.Precedes)), m)

/-- A map has nothing that could be corrupt. -/
theorem perform_ne_corrupt (m : Catalogue) (op : Operation) (collection reason : String) :
    (perform op m).1 ≠ .error (.corrupt collection reason) := by
  cases op with
  | insert d =>
      dsimp only [perform]
      split <;> nofun
  | swap id expected d =>
      dsimp only [perform]
      split
      · nofun
      · split
        · nofun
        · split <;> nofun
  | _ => nofun

end Catalogue

/-! ### What a store shows of its catalogue -/

namespace Store

variable {s : Store} {m : Catalogue} {id : DocumentId} {d : Document}

/-- The store has the records of the documents of a catalogue, each under its name, and no
others. -/
structure Holds (s : Store) (m : Catalogue) : Prop where
  schema : s.schema.RoundTrips
  records : ∀ id, s.records.get? id = (m.get? id).map s.schema.layOut
  named : ∀ id d, m.get? id = some d → d.id = id

namespace Holds

theorem load (h : s.Holds m) (id : DocumentId) : s.load id = .ok (m.get? id) := by
  rw [Store.load, h.records]
  cases m.get? id with
  | none => rfl
  | some d =>
      dsimp only [Option.map_some]
      rw [decode_layOut h.schema]
      rfl

theorem contains (h : s.Holds m) (id : DocumentId) :
    s.records.contains id = decide (id ∈ m.ids) := by
  have hmem := m.mem_ids id
  rw [Table.contains, h.records]
  cases hget : m.get? id with
  | none => simp [hmem, hget]
  | some d => simp [hmem, hget]

/-- The rows of the store are those of the names that have a document. -/
theorem toFinset_keys (h : s.Holds m) : (s.records.rows.map (·.1)).toFinset = m.ids := by
  ext id
  rw [List.mem_toFinset, ← Assoc.get?_ne_none_iff, m.mem_ids]
  change s.records.get? id ≠ none ↔ _
  rw [h.records, Ne, Option.map_eq_none_iff]

theorem size (h : s.Holds m) : s.records.size = m.ids.card := by
  rw [Table.size, ← h.toFinset_keys, List.toFinset_card_of_nodup s.records.nodup, List.length_map]

theorem ids (h : s.Holds m) : s.records.ids = m.ids.sort Id.Precedes := by
  have hperm := Id.sort_perm (s.records.rows.map (·.1))
  have hnodup : s.records.ids.Nodup := hperm.nodup_iff.2 s.records.nodup
  have hids : s.records.ids.toFinset = m.ids := by
    rw [← h.toFinset_keys]
    exact List.toFinset_eq_of_perm _ _ hperm
  rw [← hids]
  exact ((List.toFinset_sort Id.Precedes hnodup).2 (Id.pairwise_sort _)).symm

/-- The rows that a sweep is to remove are those of the expired documents. -/
theorem expired (h : s.Holds m) (deadline : Timestamp) : s.expired deadline s.records.rows =
    .ok ((s.records.rows.map (·.1)).filter (m.isExpired deadline ·)) := by
  refine expired_of_decodes fun row hrow => ?_
  -- every row is read as the document of its name
  have hget : s.records.get? row.1 = some row.2 := Assoc.get?_of_mem s.records.nodup hrow
  rw [h.records, Option.map_eq_some_iff] at hget
  obtain ⟨d, hd, hrecord⟩ := hget
  refine ⟨d, hrecord ▸ decode_layOut h.schema d, ?_⟩
  rw [Catalogue.isExpired, hd, Option.any_some]

/-! ### One operation -/

theorem put (h : s.Holds m) (hid : d.id = id) :
    Holds { s with records := s.records.put id (s.schema.layOut d) } (m.put id d) := by
  refine ⟨h.schema, fun id' => ?_, fun id' d' hd' => ?_⟩
  · rw [Table.get?_put, Catalogue.get?_put, h.records]
    by_cases hid' : id = id'
    · rw [if_pos hid', if_pos hid'.symm]
      rfl
    · rw [if_neg hid', if_neg (Ne.symm hid')]
  · rw [Catalogue.get?_put] at hd'
    split at hd'
    · next hid' =>
        cases hd'
        exact hid.trans hid'.symm
    · exact h.named id' d' hd'

theorem restrict (h : s.Holds m) {records : Table Json} {p : DocumentId → Bool}
    (hrecords : ∀ id, records.get? id = if p id then s.records.get? id else none) :
    Holds { s with records } (m.restrict p) := by
  refine ⟨h.schema, fun id' => ?_, fun id' d' hd' => ?_⟩
  · rw [hrecords, Catalogue.get?_restrict, h.records]
    split <;> rfl
  · rw [Catalogue.get?_restrict] at hd'
    split at hd'
    · exact h.named id' d' hd'
    · cases hd'

theorem insert (h : s.Holds m) (d : Document) :
    (Store.perform (.insert d) s).1 = (Catalogue.perform (.insert d) m).1 ∧
      Holds (Store.perform (.insert d) s).2 (Catalogue.perform (.insert d) m).2 := by
  simp only [Store.perform, Catalogue.perform, Store.insert, h.contains, decide_eq_true_eq]
  by_cases hmem : d.id ∈ m.ids
  · rw [if_pos hmem, if_pos hmem]
    exact ⟨rfl, h⟩
  · rw [if_neg hmem, if_neg hmem]
    exact ⟨rfl, h.put rfl⟩

theorem swap (h : s.Holds m) (id : DocumentId) (expected : UInt64) (d : Document) :
    (Store.perform (.swap id expected d) s).1 = (Catalogue.perform (.swap id expected d) m).1 ∧
      Holds (Store.perform (.swap id expected d) s).2
        (Catalogue.perform (.swap id expected d) m).2 := by
  simp only [Store.perform, Catalogue.perform, Store.swap, h.records]
  by_cases hid : d.id ≠ id
  · rw [if_pos hid, if_pos hid]
    exact ⟨rfl, h⟩
  · rw [if_neg hid, if_neg hid]
    cases m.get? id with
    | none => exact ⟨rfl, h⟩
    | some current =>
        dsimp only [Option.map_some]
        rw [decode_layOut h.schema]
        by_cases hv : current.version ≠ expected
        · rw [if_pos hv]
          dsimp only
          rw [if_pos hv]
          exact ⟨rfl, h⟩
        · rw [if_neg hv]
          dsimp only
          rw [if_neg hv]
          exact ⟨rfl, h.put (not_not.1 hid)⟩

theorem delete (h : s.Holds m) (id : DocumentId) :
    (Store.perform (.delete id) s).1 = (Catalogue.perform (.delete id) m).1 ∧
      Holds (Store.perform (.delete id) s).2 (Catalogue.perform (.delete id) m).2 := by
  refine ⟨?_, h.restrict fun id' => ?_⟩
  · simp only [Store.perform, Catalogue.perform, Store.delete, h.contains]
    rfl
  · rw [Table.get?_erase]
    by_cases hid : id = id'
    · simp [hid]
    · simp [hid, Ne.symm hid]

theorem sweep (h : s.Holds m) (deadline : Timestamp) :
    (Store.perform (.sweep deadline) s).1 = (Catalogue.perform (.sweep deadline) m).1 ∧
      Holds (Store.perform (.sweep deadline) s).2 (Catalogue.perform (.sweep deadline) m).2 := by
  have hnodup := s.records.nodup.filter (m.isExpired deadline ·)
  have hcount : ((s.records.rows.map (·.1)).filter (m.isExpired deadline ·)).length =
      (m.ids.filter (m.isExpired deadline ·)).card := by
    rw [← List.toFinset_card_of_nodup hnodup, List.toFinset_filter, h.toFinset_keys]
  simp only [Store.perform, Catalogue.perform, Store.sweep, h.expired deadline]
  refine ⟨by rw [← hcount]; rfl, h.restrict fun id' => ?_⟩
  rw [get?_foldl_erase]
  by_cases hexpired : m.isExpired deadline id' = true
  · rw [hexpired, Bool.not_true, if_neg Bool.false_ne_true]
    split
    · rfl
    · next hout =>
        -- an expired name that is not among the rows has no record to begin with
        have hkey : id' ∉ s.records.rows.map (·.1) :=
          fun hkey => hout (List.mem_filter.2 ⟨hkey, hexpired⟩)
        exact not_not.1 (mt Assoc.get?_ne_none_iff.1 hkey)
  · rw [if_neg fun hin => hexpired (List.mem_filter.1 hin).2]
    simp [hexpired]

/-- **One operation**: the store answers as the catalogue does, and holds it again. -/
theorem perform (h : s.Holds m) (op : Operation) :
    (Store.perform op s).1 = (Catalogue.perform op m).1 ∧
      Holds (Store.perform op s).2 (Catalogue.perform op m).2 := by
  cases op with
  | insert d => exact h.insert d
  | load id =>
      refine ⟨?_, h⟩
      simp only [Store.perform, h.load]
      rfl
  | swap id expected d => exact h.swap id expected d
  | delete id => exact h.delete id
  | sweep deadline => exact h.sweep deadline
  | contains id =>
      refine ⟨?_, h⟩
      simp only [Store.perform, Store.contains, h.contains]
      rfl
  | size =>
      refine ⟨?_, h⟩
      simp only [Store.perform, h.size]
      rfl
  | ids =>
      refine ⟨?_, h⟩
      simp only [Store.perform, h.ids]
      rfl

end Holds

/-- No operation changes the schema. -/
@[simp]
theorem schema_perform (op : Operation) (s : Store) : (perform op s).2.schema = s.schema := by
  cases op with
  | insert d => exact s.schema_insert d
  | swap id expected d => exact s.schema_swap id expected d
  | delete id => exact s.schema_delete id
  | sweep deadline => exact s.schema_sweep deadline
  | _ => rfl

/-! ### Runs of operations on a store -/

/-- A store answers to every run as the catalogue that it holds, and holds it to the end. -/
theorem run_of_holds (h : s.Holds m) (ops : List Operation) :
    (Operation.run perform s ops).1 = (Operation.run Catalogue.perform m ops).1 ∧
      (Operation.run perform s ops).2.schema = s.schema ∧
      Holds (Operation.run perform s ops).2 (Operation.run Catalogue.perform m ops).2 := by
  induction ops generalizing s m with
  | nil => exact ⟨rfl, rfl, h⟩
  | cons op ops ih =>
      obtain ⟨hanswer, hleft⟩ := h.perform op
      obtain ⟨hanswers, hschema, hend⟩ := ih hleft
      rw [Operation.run_cons, Operation.run_cons, hanswer, hanswers]
      exact ⟨rfl, hschema.trans (schema_perform op s), hend⟩

theorem holds_empty {schema : Schema} (hs : schema.RoundTrips) :
    Holds { schema } Catalogue.empty :=
  ⟨hs, fun _ => rfl, nofun⟩

/-- **A store is a map of documents.**  Under a schema that gives every document back, a store that
was empty at first answers to every run of operations as a finite map does, and never that a record
is corrupt; and at the end of the run it has a record for exactly the names of the map, which reads
as the document of that name and of no other, and it lists these names in the strictly ascending
order of their bytes. -/
theorem answers_as_catalogue {schema : Schema} (hs : schema.RoundTrips) (ops : List Operation) :
    let s := Operation.run perform { schema } ops
    let m := Operation.run Catalogue.perform .empty ops
    s.1 = m.1 ∧
      (∀ collection reason, .error (.corrupt collection reason) ∉ s.1) ∧
      (∀ id, s.2.raw? id = none ∧ m.2.get? id = none ∨ ∃ record d, s.2.raw? id = some record ∧
        m.2.get? id = some d ∧ schema.restore record = .ok d ∧ d.id = id) ∧
      s.2.records.ids.Pairwise (fun a b => Text.utf8 a.text < Text.utf8 b.text) ∧
      ∀ id, id ∈ s.2.records.ids ↔ m.2.get? id ≠ none := by
  intro s m
  obtain ⟨hanswers, hschema, hholds⟩ := run_of_holds (holds_empty hs) ops
  refine ⟨hanswers, ?_, ?_, Id.pairwise_lt_sort s.2.records.nodup, ?_⟩
  · intro collection reason hmem
    rw [hanswers] at hmem
    obtain ⟨op, state, hop⟩ := Operation.exists_of_mem_run hmem
    exact state.perform_ne_corrupt op collection reason hop.symm
  · intro id
    have hraw : s.2.raw? id = (m.2.get? id).map schema.layOut := by
      rw [raw?, hholds.records id, hschema]
    cases hget : m.2.get? id with
    | none => exact .inl ⟨by rw [hraw, hget]; rfl, rfl⟩
    | some d =>
        refine .inr ⟨schema.layOut d, d, by rw [hraw, hget]; rfl, rfl, hs d, ?_⟩
        exact hholds.named id d hget
  · intro id
    rw [hholds.ids, Finset.mem_sort, m.2.mem_ids]

/-- A name that is taken, a swap of the wrong document, of a document that is not there, of an old
version and of the present one, and a sweep that takes one document of three. -/
theorem answers_as_catalogue_after_sweep :
    let a : DocumentId := ⟨"a", by decide⟩
    let b : DocumentId := ⟨"b", by decide⟩
    let c : DocumentId := ⟨"c", by decide⟩
    let ops : List Operation :=
      [.insert ⟨b, 1, 0, ⟨30⟩, []⟩, .insert ⟨a, 1, 0, ⟨10⟩, []⟩, .insert ⟨c, 1, 0, ⟨20⟩, []⟩,
        .insert ⟨b, 9, 0, ⟨0⟩, []⟩, .swap a 9 ⟨b, 2, 0, ⟨30⟩, []⟩, .delete c,
        .swap c 9 ⟨c, 2, 0, ⟨30⟩, []⟩, .insert ⟨c, 1, 0, ⟨20⟩, []⟩,
        .swap a 2 ⟨a, 3, 0, ⟨30⟩, []⟩, .swap a 1 ⟨a, 2, 7, ⟨30⟩, []⟩, .sweep ⟨30⟩,
        .contains c, .load a, .size]
    let answers : List (Except StoreError Reply) :=
      [.ok .done, .ok .done, .ok .done, .error (.alreadyExists b), .error (.idMismatch a b),
        .ok (.whether true), .error (.notFound c), .ok .done, .error (.versionConflict a 2 1),
        .ok .done, .ok (.count 1), .ok (.whether false),
        .ok (.found (some ⟨a, 2, 7, ⟨30⟩, []⟩)), .ok (.count 2)]
    let ids := (Operation.run perform {} ops).2.records.ids
    (Schema.RoundTrips {} ∧ (Operation.run perform {} ops).1 = answers) ∧
      (Operation.run Catalogue.perform .empty ops).1 = answers ∧
      ids.Pairwise (fun x y => Text.utf8 x.text < Text.utf8 y.text) ∧
      a ∈ ids ∧ b ∈ ids ∧ c ∉ ids := by
  intro a b c ops answers ids
  have hs : Schema.RoundTrips {} := Schema.roundTrips_default
  have hanswers : (Operation.run perform {} ops).1 = answers := by decide +kernel
  obtain ⟨hsame, -, -, hsorted, hids⟩ := answers_as_catalogue hs ops
  refine ⟨⟨hs, hanswers⟩, hsame.symm.trans hanswers, hsorted, (hids a).2 ?_, (hids b).2 ?_, ?_⟩
  · decide +kernel
  · decide +kernel
  · exact mt (hids c).1 (by decide +kernel)

end Store

end Chronicle
