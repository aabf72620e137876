/-
**Runs of edits.**  What one edit does to a log, said once for the three kinds of edit: the entries
it writes are there afterwards, at the new version, and of the old entries those stay whose tag it
neither writes nor drops.  What a run of edits does follows by induction on the run.

Main definitions:

* `Edit.written`, `Edit.targets`, `Edit.dropped` — what an edit writes, under which tags, and which
  tags it drops;
* `Document.rewritten` — the log that an edit leaves;
* `Document.edits` — a run of edits, each at its own reading of the clock.

Main results:

* `Document.edit_eq_ok_iff` — an edit is one step of the version and one rewriting of the log;
* `Document.mem_rewritten_iff` — **which entries an edit leaves**, in a log without repeated tags;
* `Document.edits_rec` — induction on a run, its last edit taken off;
* `Document.edits_version`, `Document.edits_watermark`, `Document.edits_unique` — what every run
  keeps.
-/

import Chronicle.Edit
import Mathlib.Data.List.Induction
import Mathlib.Data.List.Nodup

set_option autoImplicit false

namespace Chronicle

/-! ### What an edit writes and drops -/

namespace Edit

/-- The entries that an edit writes, in the order in which a batch appends them. -/
def written (version : UInt64) (now : Timestamp) : Edit → List Entry
  | .upsert id => [⟨id, false, version, now⟩]
  | .markDeleted id => [⟨id, true, version, now⟩]
  | .replace _ append => (Entry.firstOccurrences [] append).map (·.stamp version now)

/-- The tags that an edit writes. -/
def targets : Edit → List EntryId
  | .upsert id => [id]
  | .markDeleted id => [id]
  | .replace _ append => append.map (·.id)

/-- The tags that an edit removes, whether it writes them again or not. -/
def dropped : Edit → List EntryId
  | .upsert _ => []
  | .markDeleted _ => []
  | .replace remove _ => remove

end Edit

namespace Entry

@[simp]
theorem stamp_id (e : Entry) (version : UInt64) (now : Timestamp) :
    (e.stamp version now).id = e.id := rfl

theorem mem_ids_firstOccurrences {seen : List EntryId} {l : List Entry} {id : EntryId} :
    id ∈ (firstOccurrences seen l).map (·.id) ↔ id ∈ l.map (·.id) ∧ id ∉ seen := by
  induction l generalizing seen with
  | nil => simp [firstOccurrences]
  | cons e l ih =>
      rw [firstOccurrences]
      by_cases he : e.id ∈ seen
      · rw [if_pos (by simpa using he), ih]
        grind
      · rw [if_neg (by simpa using he), List.map_cons, List.mem_cons, ih]
        grind

theorem nodup_ids_firstOccurrences (seen : List EntryId) (l : List Entry) :
    ((firstOccurrences seen l).map (·.id)).Nodup := by
  induction l generalizing seen with
  | nil => simp [firstOccurrences]
  | cons e l ih =>
      rw [firstOccurrences]
      split
      · exact ih seen
      · rw [List.map_cons, List.nodup_cons, mem_ids_firstOccurrences]
        exact ⟨fun h => h.2 (List.mem_cons_self ..), ih _⟩

end Entry

namespace Edit

variable {edit : Edit} {version : UInt64} {now : Timestamp}

/-- What is written is written at the new version. -/
theorem version_of_mem_written {x : Entry} (h : x ∈ edit.written version now) :
    x.version = version := by
  cases edit with
  | upsert id => rw [List.mem_singleton.1 h]
  | markDeleted id => rw [List.mem_singleton.1 h]
  | replace remove append =>
      obtain ⟨e, -, rfl⟩ := List.mem_map.1 h
      rfl

/-- What is written is written at the time of the edit. -/
theorem updated_of_mem_written {x : Entry} (h : x ∈ edit.written version now) :
    x.updated = now := by
  cases edit with
  | upsert id => rw [List.mem_singleton.1 h]
  | markDeleted id => rw [List.mem_singleton.1 h]
  | replace remove append =>
      obtain ⟨e, -, rfl⟩ := List.mem_map.1 h
      rfl

/-- The tags of what is written are the tags that the edit names for writing. -/
theorem mem_ids_written {id : EntryId} :
    id ∈ (edit.written version now).map (·.id) ↔ id ∈ edit.targets := by
  cases edit with
  | upsert id => rfl
  | markDeleted id => rfl
  | replace remove append =>
      have h : ((Entry.firstOccurrences [] append).map (·.stamp version now)).map (·.id) =
          (Entry.firstOccurrences [] append).map (·.id) := by
        rw [List.map_map]
        rfl
      rw [written, h, Entry.mem_ids_firstOccurrences]
      simp [targets]

theorem nodup_ids_written : ((edit.written version now).map (·.id)).Nodup := by
  cases edit with
  | upsert id => exact List.nodup_singleton _
  | markDeleted id => exact List.nodup_singleton _
  | replace remove append =>
      rw [written, List.map_map]
      exact Entry.nodup_ids_firstOccurrences [] append

/-- What a batch keeps of a log is what it neither writes nor drops. -/
theorem kept_iff {remove : List EntryId} {append : List Entry} {id : EntryId} :
    (!remove.contains id && !(((replace remove append).written version now).map (·.id)).contains id)
        = true ↔ id ∉ (replace remove append).targets ∧ id ∉ (replace remove append).dropped := by
  rw [Bool.and_eq_true, Bool.not_eq_true', Bool.not_eq_true', List.contains_eq_mem,
    List.contains_eq_mem, decide_eq_false_iff_not, decide_eq_false_iff_not, mem_ids_written]
  exact and_comm

end Edit

/-! ### The log after an edit -/

namespace Entry

/-- Puts an entry in place of the first one with its tag, or at the end if there is none; a walk
along the log in place of a search for an index. -/
def putIn (e : Entry) : List Entry → List Entry
  | [] => [e]
  | x :: rest => if x.id = e.id then e :: rest else x :: putIn e rest

/-- Every entry after a write is the one written or was there before. -/
theorem eq_or_mem_of_mem_putIn {e x : Entry} {l : List Entry} (h : x ∈ e.putIn l) :
    x = e ∨ x ∈ l := by
  induction l with
  | nil => exact .inl (by simpa [putIn] using h)
  | cons y l ih =>
      rw [putIn] at h
      split at h
      · rcases List.mem_cons.1 h with rfl | h
        · exact .inl rfl
        · exact .inr (List.mem_cons_of_mem _ h)
      · rcases List.mem_cons.1 h with rfl | h
        · exact .inr (List.mem_cons_self ..)
        · exact (ih h).imp_right (List.mem_cons_of_mem _)

/-- In a log without repeated tags, the entry written is the only one with its tag, and every other
entry stays. -/
theorem mem_putIn_iff {e x : Entry} {l : List Entry} (h : (l.map (·.id)).Nodup) :
    x ∈ e.putIn l ↔ x = e ∨ x ∈ l ∧ x.id ≠ e.id := by
  induction l with
  | nil => simp [putIn]
  | cons y l ih =>
      rw [List.map_cons, List.nodup_cons] at h
      rw [putIn]
      by_cases hy : y.id = e.id
      · -- the rest of the log holds no second entry of this tag
        have hrest : ∀ z ∈ l, z.id ≠ e.id := by
          intro z hz hze
          exact h.1 (List.mem_map.2 ⟨z, hz, hze.trans hy.symm⟩)
        rw [if_pos hy, List.mem_cons, List.mem_cons]
        grind
      · rw [if_neg hy, List.mem_cons, List.mem_cons, ih h.2]
        grind

theorem mem_ids_putIn {e : Entry} {l : List Entry} {id : EntryId} :
    id ∈ (e.putIn l).map (·.id) ↔ id = e.id ∨ id ∈ l.map (·.id) := by
  induction l with
  | nil => simp [putIn]
  | cons y l ih =>
      rw [putIn]
      by_cases hy : y.id = e.id
      · rw [if_pos hy, List.map_cons, List.map_cons, List.mem_cons, List.mem_cons, hy]
        grind
      · rw [if_neg hy, List.map_cons, List.map_cons, List.mem_cons, List.mem_cons, ih]
        grind

theorem nodup_ids_putIn {e : Entry} {l : List Entry} (h : (l.map (·.id)).Nodup) :
    ((e.putIn l).map (·.id)).Nodup := by
  induction l with
  | nil => exact List.nodup_singleton _
  | cons y l ih =>
      rw [List.map_cons, List.nodup_cons] at h
      rw [putIn]
      by_cases hy : y.id = e.id
      · rw [if_pos hy, List.map_cons, List.nodup_cons, ← hy]
        exact h
      · rw [if_neg hy, List.map_cons, List.nodup_cons, mem_ids_putIn]
        exact ⟨not_or.2 ⟨hy, h.1⟩, ih h.2⟩

end Entry

namespace Document

/-- Searching for the index of a tag and writing there is walking along the log. -/
theorem place_eq_putIn (d : Document) (e : Entry) : d.place e = e.putIn d.log := by
  obtain ⟨id, version, watermark, updated, log⟩ := d
  simp only [place, position?]
  induction log with
  | nil => rfl
  | cons x log ih =>
      have hx : (x.id.text == e.id.text) = true ↔ x.id = e.id := by
        rw [beq_iff_eq, Id.ext_iff]
      rw [List.findIdx?_cons, Entry.putIn]
      by_cases h : x.id = e.id
      · rw [if_pos (hx.2 h), if_pos h]
        rfl
      · rw [if_neg (mt hx.1 h), if_neg h, ← ih]
        cases log.findIdx? fun y => y.id.text == e.id.text <;> rfl

/-- The log that an edit leaves when it writes at `version`. -/
def rewritten (d : Document) (version : UInt64) (now : Timestamp) : Edit → List Entry
  | .upsert id => d.place ⟨id, false, version, now⟩
  | .markDeleted id => d.place ⟨id, true, version, now⟩
  | .replace remove append =>
    let appended := (Edit.replace remove append).written version now
    (d.log.filter fun e => !remove.contains e.id && !(appended.map (·.id)).contains e.id) ++
      appended

/-- An edit waits for the next version and for nothing else. -/
theorem edit_eq_map (d : Document) (now : Timestamp) (edit : Edit) :
    d.edit now edit = d.nextVersion.map fun version =>
      { d with version, updated := now, log := d.rewritten version now edit } := by
  cases edit <;> simp only [Document.edit, writeEntry, replaceEntries, rewritten, Edit.written] <;>
    cases d.nextVersion <;> rfl

/-- **An edit** takes the version one further and rewrites the log; all else stays. -/
theorem edit_eq_ok_iff {d d' : Document} {now : Timestamp} {edit : Edit} :
    d.edit now edit = .ok d' ↔ ∃ version : UInt64, version.toNat = d.version.toNat + 1 ∧
      d' = { d with version, updated := now, log := d.rewritten version now edit } := by
  rw [edit_eq_map]
  constructor
  · intro h
    cases hv : d.nextVersion with
    | error e =>
        rw [hv] at h
        cases h
    | ok version =>
        rw [hv] at h
        cases h
        exact ⟨version, (d.nextVersion_eq_ok_iff version).1 hv, rfl⟩
  · rintro ⟨version, hv, rfl⟩
    rw [(d.nextVersion_eq_ok_iff version).2 hv]
    rfl

variable {d d' : Document} {now : Timestamp} {edit : Edit} {version : UInt64}

/-- Every entry after an edit was written by it or was there before. -/
theorem mem_of_mem_rewritten {x : Entry} (h : x ∈ d.rewritten version now edit) :
    x ∈ edit.written version now ∨ x ∈ d.log := by
  cases edit with
  | upsert id =>
      rw [rewritten, place_eq_putIn] at h
      exact (Entry.eq_or_mem_of_mem_putIn h).imp_left List.mem_singleton.2
  | markDeleted id =>
      rw [rewritten, place_eq_putIn] at h
      exact (Entry.eq_or_mem_of_mem_putIn h).imp_left List.mem_singleton.2
  | replace remove append =>
      rcases List.mem_append.1 h with h | h
      · exact .inr (List.mem_of_mem_filter h)
      · exact .inl h

/-- **Which entries an edit leaves** in a log without repeated tags: those it writes, and the old
ones whose tags it neither writes nor drops. -/
theorem mem_rewritten_iff (hd : d.entryIds.Nodup) {x : Entry} :
    x ∈ d.rewritten version now edit ↔ x ∈ edit.written version now ∨
      x ∈ d.log ∧ x.id ∉ edit.targets ∧ x.id ∉ edit.dropped := by
  cases edit with
  | upsert id =>
      rw [rewritten, place_eq_putIn, Entry.mem_putIn_iff hd]
      simp [Edit.written, Edit.targets, Edit.dropped]
  | markDeleted id =>
      rw [rewritten, place_eq_putIn, Entry.mem_putIn_iff hd]
      simp [Edit.written, Edit.targets, Edit.dropped]
  | replace remove append =>
      rw [rewritten, List.mem_append, List.mem_filter, Edit.kept_iff]
      exact or_comm

theorem nodup_ids_rewritten (hd : d.entryIds.Nodup) :
    ((d.rewritten version now edit).map (·.id)).Nodup := by
  cases edit with
  | upsert id =>
      rw [rewritten, place_eq_putIn]
      exact Entry.nodup_ids_putIn hd
  | markDeleted id =>
      rw [rewritten, place_eq_putIn]
      exact Entry.nodup_ids_putIn hd
  | replace remove append =>
      rw [rewritten, List.map_append, List.nodup_append]
      refine ⟨hd.sublist (List.filter_sublist.map _), Edit.nodup_ids_written, ?_⟩
      -- a tag that is appended was filtered out before
      rintro _ h₁ _ h₂ rfl
      obtain ⟨x, hx, rfl⟩ := List.mem_map.1 h₁
      have hkept := Edit.kept_iff.1 (List.mem_filter.1 hx).2
      exact hkept.1 (Edit.mem_ids_written.1 h₂)

/-! ### One edit -/

theorem edit_version (h : d.edit now edit = .ok d') :
    d'.version.toNat = d.version.toNat + 1 := by
  obtain ⟨version, hv, rfl⟩ := edit_eq_ok_iff.1 h
  exact hv

theorem edit_id (h : d.edit now edit = .ok d') : d'.id = d.id := by
  obtain ⟨version, -, rfl⟩ := edit_eq_ok_iff.1 h
  rfl

theorem edit_watermark (h : d.edit now edit = .ok d') : d'.watermark = d.watermark := by
  obtain ⟨version, -, rfl⟩ := edit_eq_ok_iff.1 h
  rfl

theorem edit_log (h : d.edit now edit = .ok d') : d'.log = d.rewritten d'.version now edit := by
  obtain ⟨version, -, rfl⟩ := edit_eq_ok_iff.1 h
  rfl

theorem edit_unique (h : d.edit now edit = .ok d') (hd : d.entryIds.Nodup) :
    d'.entryIds.Nodup := by
  rw [entryIds, edit_log h]
  exact nodup_ids_rewritten hd

/-! ### Runs -/

/-- A run of edits, each at its own reading of the clock; the first that is refused stops it. -/
def edits (d : Document) : List (Timestamp × Edit) → Except EditError Document
  | [] => .ok d
  | (now, edit) :: rest => do
    let d ← d.edit now edit
    d.edits rest

/-- The later edits of a run work on what the earlier ones leave. -/
theorem edits_append (d : Document) (earlier later : List (Timestamp × Edit)) :
    d.edits (earlier ++ later) = (d.edits earlier).bind fun d' => d'.edits later := by
  induction earlier generalizing d with
  | nil => rfl
  | cons w earlier ih =>
      change (d.edit w.1 w.2).bind (fun d' => d'.edits (earlier ++ later)) =
        ((d.edit w.1 w.2).bind fun d' => d'.edits earlier).bind fun d' => d'.edits later
      cases d.edit w.1 w.2 with
      | error e => rfl
      | ok d₁ => exact ih d₁

theorem edits_singleton (d : Document) (now : Timestamp) (edit : Edit) :
    d.edits [(now, edit)] = d.edit now edit := by
  change (d.edit now edit).bind (fun d' => d'.edits []) = d.edit now edit
  cases d.edit now edit <;> rfl

/-- The last edit of a run works on what the others leave. -/
theorem edits_concat (d : Document) (run : List (Timestamp × Edit)) (now : Timestamp)
    (edit : Edit) :
    d.edits (run ++ [(now, edit)]) = (d.edits run).bind fun d' => d'.edit now edit := by
  rw [edits_append]
  simp only [edits_singleton]

theorem edits_concat_of_ok {d₁ d₂ : Document} {run : List (Timestamp × Edit)}
    (h₁ : d.edits run = .ok d₁) (h₂ : d₁.edit now edit = .ok d₂) :
    d.edits (run ++ [(now, edit)]) = .ok d₂ := by
  rw [edits_concat, h₁]
  exact h₂

/-- **Induction on a run**: what holds at its start and is kept by each further edit, whatever the
run has come to by then, holds at its end. -/
theorem edits_rec {motive : List (Timestamp × Edit) → Document → Prop} (start : motive [] d)
    (step : ∀ run d₁ now edit d₂, d.edits run = .ok d₁ → motive run d₁ →
      d₁.edit now edit = .ok d₂ → motive (run ++ [(now, edit)]) d₂)
    {run : List (Timestamp × Edit)} (h : d.edits run = .ok d') : motive run d' := by
  induction run using List.reverseRecOn generalizing d' with
  | nil =>
      cases h
      exact start
  | append_singleton run w ih =>
      rw [edits_concat] at h
      cases h₁ : d.edits run with
      | error e =>
          rw [h₁] at h
          cases h
      | ok d₁ =>
          rw [h₁] at h
          exact step run d₁ w.1 w.2 d' h₁ (ih h₁) h

variable {run : List (Timestamp × Edit)}

/-- Every edit of a run counts once. -/
theorem edits_version (h : d.edits run = .ok d') :
    d'.version.toNat = d.version.toNat + run.length := by
  refine edits_rec (motive := fun run d' => d'.version.toNat = d.version.toNat + run.length)
    rfl ?_ h
  intro run d₁ now edit d₂ h₁ ih h₂
  rw [edit_version h₂, ih, List.length_append, List.length_singleton, Nat.add_assoc]

theorem edits_watermark (h : d.edits run = .ok d') : d'.watermark = d.watermark :=
  edits_rec (motive := fun _ d' => d'.watermark = d.watermark) rfl
    (fun _ _ _ _ _ _ ih h₂ => (edit_watermark h₂).trans ih) h

theorem edits_unique (h : d.edits run = .ok d') (hd : d.entryIds.Nodup) : d'.entryIds.Nodup :=
  edits_rec (motive := fun _ d' => d'.entryIds.Nodup) hd
    (fun _ _ _ _ _ _ ih h₂ => edit_unique h₂ ih) h

/-- What a run adds to a log it adds at versions of its own. -/
theorem mem_or_newer_of_edits (h : d.edits run = .ok d') :
    ∀ x ∈ d'.log, x ∈ d.log ∨ d.version < x.version := by
  refine edits_rec (motive := fun _ d' => ∀ x ∈ d'.log, x ∈ d.log ∨ d.version < x.version)
    (fun x hx => .inl hx) ?_ h
  intro run d₁ now edit d₂ h₁ ih h₂ x hx
  rw [edit_log h₂] at hx
  rcases mem_of_mem_rewritten hx with hx | hx
  · -- written by the last edit, at its version, which is past that of the start
    have hv₁ := edits_version h₁
    have hv₂ := edit_version h₂
    rw [Edit.version_of_mem_written hx, UInt64.lt_iff_toNat_lt]
    exact .inr (by omega)
  · exact ih x hx

end Document

end Chronicle
