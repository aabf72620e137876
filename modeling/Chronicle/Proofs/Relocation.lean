/-
**In place or at the end.**  An entry can be written in two ways: by an edit of its own, which puts
it in the place of its tag, and by a batch that takes the tag out and appends it.  In a log without
repeated tags the two leave the same entries, and all but the new one in the same order; the new one
stands where the tag stood or behind the others.  So the two documents are one exactly when these
places are one, and no reader who asks what is new can tell them apart but by the order of the
answer.

Main definitions:

* `Entry.others` — a log without the entries of one tag.

Main results:

* `Entry.Placed.perm_others`, `Entry.Placed.others_eq`, `Entry.Placed.eq_append_iff` — an entry in
  its place against the entry behind the others;
* `Document.rewritten_replace_one` — the log that a batch of one entry leaves;
* `Document.view_perm` — **documents with the same entries show the same entries**;
* `Document.single_agrees_with_batch` — the two ways to write an entry compared.
-/

import Chronicle.Proofs.Batches
import Chronicle.Proofs.Placement
import Chronicle.Proofs.Views

set_option autoImplicit false

namespace Chronicle

/-! ### The entries of other tags -/

namespace Entry

/-- The entries of a log that do not bear a tag. -/
def others (tag : EntryId) (l : List Entry) : List Entry :=
  l.filter fun e => decide (e.id ≠ tag)

variable {e : Entry} {tag : EntryId} {l l' : List Entry}

@[simp]
theorem others_nil (tag : EntryId) : others tag [] = [] := rfl

@[simp]
theorem others_others (tag : EntryId) (l : List Entry) :
    others tag (others tag l) = others tag l := by
  simp [others]

@[simp]
theorem others_append (tag : EntryId) (l₁ l₂ : List Entry) :
    others tag (l₁ ++ l₂) = others tag l₁ ++ others tag l₂ :=
  List.filter_append ..

theorem others_cons_same (h : e.id = tag) (l : List Entry) : others tag (e :: l) = others tag l :=
  List.filter_cons_of_neg (by simp [h])

/-- An entry behind the others adds nothing to them. -/
theorem others_append_same (h : e.id = tag) :
    others tag (others tag l ++ [e]) = others tag l := by
  rw [others_append, others_others, others_cons_same h, others_nil, List.append_nil]

theorem others_of_absent (h : tag ∉ l.map (·.id)) : others tag l = l := by
  refine List.filter_eq_self.2 ?_
  intro x hx
  rw [decide_eq_true_iff]
  rintro rfl
  exact h (List.mem_map_of_mem hx)

namespace Placed

/-- Wherever an entry goes, those of other tags stay as they are and in their order. -/
theorem others_eq (h : e.Placed l l') : others e.id l' = others e.id l := by
  cases h with
  | behind absent => rw [others_append, others_cons_same rfl, others_nil, List.append_nil]
  | instead front old back same first =>
      rw [others_append, others_append, others_cons_same rfl, others_cons_same same]

/-- In a log without repeated tags, what gives way to an entry has the others on both sides. -/
theorem others_of_instead {front back : List Entry} {old : Entry} (same : old.id = e.id)
    (first : e.id ∉ front.map (·.id)) (hnodup : ((front ++ old :: back).map (·.id)).Nodup) :
    e.id ∉ back.map (·.id) ∧ others e.id (front ++ old :: back) = front ++ back := by
  have hback : e.id ∉ back.map (·.id) := by
    rw [List.map_append, List.map_cons, List.nodup_append, List.nodup_cons, same] at hnodup
    exact hnodup.2.1.1
  refine ⟨hback, ?_⟩
  rw [others_append, others_cons_same same, others_of_absent first, others_of_absent hback]

/-- An entry in its place, or behind the others: the entries are the same. -/
theorem perm_others (h : e.Placed l l') (hnodup : (l.map (·.id)).Nodup) :
    l'.Perm (others e.id l ++ [e]) := by
  cases h with
  | behind absent => rw [others_of_absent absent]
  | instead front old back same first =>
      rw [(others_of_instead same first hnodup).2]
      calc (front ++ e :: back).Perm (e :: (front ++ back)) := List.perm_middle
        List.Perm _ (front ++ back ++ [e]) := (List.perm_append_singleton e _).symm

/-- The two places are one iff the tag did not occur or was the last. -/
theorem eq_append_iff (h : e.Placed l l') (hnodup : (l.map (·.id)).Nodup) :
    l' = others e.id l ++ [e] ↔
      e.id ∉ l.map (·.id) ∨ (l.map (·.id)).getLast? = some e.id := by
  cases h with
  | behind absent =>
      rw [others_of_absent absent]
      exact iff_of_true rfl (.inl absent)
  | instead front old back same first =>
      obtain ⟨hback, hothers⟩ := others_of_instead same first hnodup
      have hmem : e.id ∈ (front ++ old :: back).map (·.id) := by simp [← same]
      rw [hothers, List.append_assoc, List.append_cancel_left_eq]
      cases back with
      | nil => simp [same]
      | cons x back =>
          -- something stands behind the old entry, and it bears another tag
          have hx : x.id ≠ e.id := fun hx => hback (by simp [hx])
          refine iff_of_false ?_ ?_
          · intro heq
            exact hx (congrArg Entry.id (List.cons_eq_cons.1 heq).1).symm
          · rintro (habsent | hlast)
            · exact habsent hmem
            · refine hback (List.mem_of_getLast? ?_)
              rw [← hlast]
              simp [List.getLast?_cons]

end Placed

end Entry

namespace Document

/-! ### The log that a batch of one entry leaves -/

theorem rewritten_replace_one (d : Document) (version : UInt64) (now : Timestamp) (x : Entry) :
    d.rewritten version now (.replace [x.id] [x]) =
      Entry.others x.id d.log ++ [x.stamp version now] := by
  rw [rewritten_replace]
  simp [Entry.others, Entry.leading]

/-! ### What is shown of the same entries -/

/-- **Documents with the same entries show the same entries**: if they stand at the same version and
were reset at the same one, a query is withheld from both for the same reason or from neither. -/
theorem view_perm {d₁ d₂ : Document} (hversion : d₁.version = d₂.version)
    (hwatermark : d₁.watermark = d₂.watermark) (hlog : d₁.log.Perm d₂.log) (q : Query) :
    (d₁.view q).suppressed = (d₂.view q).suppressed ∧ (d₁.view q).found = (d₂.view q).found ∧
      (d₁.view q).log.Perm (d₂.view q).log := by
  have hsince : (d₁.entriesSince q.since).Perm (d₂.entriesSince q.since) := hlog.filter _
  have hlength := hsince.length_eq
  have hstep : d₁.outOfStep? q.since = d₂.outOfStep? q.since := by
    rw [outOfStep?, outOfStep?, hversion, hwatermark]
  simp only [view, hstep, hlength]
  cases d₂.outOfStep? q.since with
  | some reason => exact ⟨rfl, rfl, .refl _⟩
  | none =>
      cases q.limit with
      | none => exact ⟨rfl, rfl, hsince⟩
      | some allowed =>
          simp only
          split_ifs
          · exact ⟨rfl, rfl, .refl _⟩
          · exact ⟨rfl, rfl, hsince⟩

/-! ### The two ways compared -/

/-- **Two ways to write an entry.**  On a document without repeated tags and with a version to come,
a write of one entry and a batch that removes its tag and appends it, live or a tombstone alike, both
succeed.  The documents they leave agree in name, version, watermark and time; their logs hold the
same entries, and those of other tags in the same order, which is the old one.  The documents are one
iff the tag did not occur or was the last; and whatever a reader asks, the answers agree in all but
the order of their entries. -/
theorem single_agrees_with_batch (d : Document) (hunique : d.hasUniqueIds = true)
    (hfits : d.version.toNat + 1 < UInt64.size) (now : Timestamp) (x : Entry) :
    ∃ d₁ d₂ : Document, d.edit now (.single x.id x.deleted) = .ok d₁ ∧
      d.edit now (.replace [x.id] [x]) = .ok d₂ ∧
      (d₁.id = d₂.id ∧ d₁.version = d₂.version ∧ d₁.watermark = d₂.watermark ∧
        d₁.updated = d₂.updated) ∧
      d₁.log.Perm d₂.log ∧
      (Entry.others x.id d₁.log = Entry.others x.id d₂.log ∧
        Entry.others x.id d₁.log = Entry.others x.id d.log) ∧
      (d₁ = d₂ ↔ x.id ∉ d.entryIds ∨ d.entryIds.getLast? = some x.id) ∧
      ∀ q : Query, (d₁.view q).suppressed = (d₂.view q).suppressed ∧
        (d₁.view q).version = (d₂.view q).version ∧ (d₁.view q).found = (d₂.view q).found ∧
        (d₁.view q).log.Perm (d₂.view q).log := by
  have hnodup : (d.log.map (·.id)).Nodup := (hasUniqueIds_iff d).1 hunique
  obtain ⟨d₁, h₁⟩ := edit_of_fits hfits now (.single x.id x.deleted)
  obtain ⟨d₂, h₂⟩ := edit_of_fits hfits now (.replace [x.id] [x])
  have hid : d₁.id = d₂.id := (edit_id h₁).trans (edit_id h₂).symm
  have hversion : d₁.version = d₂.version := by
    rw [← UInt64.toNat_inj, edit_version h₁, edit_version h₂]
  have hwatermark : d₁.watermark = d₂.watermark :=
    (edit_watermark h₁).trans (edit_watermark h₂).symm
  have hupdated : d₁.updated = d₂.updated := (edit_updated h₁).trans (edit_updated h₂).symm
  -- the same entry, in its place in one log and behind the others in the other
  have hplaced : Entry.Placed (x.stamp d₂.version now) d.log d₁.log := by
    rw [← hversion]
    exact placed_edit h₁
  have hbatch : d₂.log = Entry.others x.id d.log ++ [x.stamp d₂.version now] := by
    rw [edit_log h₂, rewritten_replace_one]
  have hperm : d₁.log.Perm d₂.log := hbatch ▸ hplaced.perm_others hnodup
  have hsame : d₁ = d₂ ↔ d₁.log = d₂.log := by
    rw [Document.ext_iff]
    simp [hid, hversion, hwatermark, hupdated]
  have hothers₁ : Entry.others x.id d₁.log = Entry.others x.id d.log := hplaced.others_eq
  have hothers₂ : Entry.others x.id d₂.log = Entry.others x.id d.log := by
    rw [hbatch]
    exact Entry.others_append_same rfl
  refine ⟨d₁, d₂, h₁, h₂, ⟨hid, hversion, hwatermark, hupdated⟩, hperm,
    ⟨hothers₁.trans hothers₂.symm, hothers₁⟩, ?_, ?_⟩
  · rw [hsame, hbatch]
    exact hplaced.eq_append_iff hnodup
  · intro q
    obtain ⟨hsuppressed, hfound, hlog⟩ := view_perm hversion hwatermark hperm q
    have hstate : (d₁.view q).version = (d₂.view q).version := by
      rw [(d₁.view_answers q).state.1, (d₂.view_answers q).state.1, hversion]
    exact ⟨hsuppressed, hstate, hfound, hlog⟩

/-- A tombstone for the first of two tags stays first if it is written by itself, and comes last if a
batch brings it; a reader who takes one entry at most is told of the two in both cases, and one who
knows version 2 sees the tombstone in both.  Of the last tag the two ways make one document. -/
theorem single_agrees_with_batch_on_two :
    let a : EntryId := ⟨"a", by decide⟩
    let b : EntryId := ⟨"b", by decide⟩
    let d : Document := ⟨⟨"doc", by decide⟩, 2, 0, ⟨20⟩, [⟨a, false, 1, ⟨10⟩⟩, ⟨b, false, 2, ⟨20⟩⟩]⟩
    let gone : Entry := ⟨a, true, 9, ⟨0⟩⟩
    d.hasUniqueIds = true ∧ d.version.toNat + 1 < UInt64.size ∧
      (∃ d₁ d₂, d.edit ⟨30⟩ (.markDeleted a) = .ok d₁ ∧ d.edit ⟨30⟩ (.replace [a] [gone]) = .ok d₂ ∧
        d₁.entryIds = [a, b] ∧ d₂.entryIds = [b, a] ∧ d₁ ≠ d₂ ∧ d₁.log.Perm d₂.log ∧
        (d₁.view ⟨1, some 1⟩).suppressed = (d₂.view ⟨1, some 1⟩).suppressed ∧
        (d₁.view ⟨2, some 1⟩).log.Perm (d₂.view ⟨2, some 1⟩).log) ∧
      d.edit ⟨30⟩ (.upsert b) = d.edit ⟨30⟩ (.replace [b] [.live b 0 ⟨0⟩]) := by
  intro a b d gone
  have hunique : d.hasUniqueIds = true := rfl
  have hfits : d.version.toNat + 1 < UInt64.size := by decide
  obtain ⟨d₁, d₂, h₁, h₂, -, hperm, -, hsame, hviews⟩ :=
    single_agrees_with_batch d hunique hfits ⟨30⟩ gone
  obtain ⟨e₁, e₂, g₁, g₂, -, -, -, hlast, -⟩ :=
    single_agrees_with_batch d hunique hfits ⟨30⟩ (.live b 0 ⟨0⟩)
  have hne : d₁ ≠ d₂ := fun heq => absurd (hsame.1 heq) (by decide)
  have heq : e₁ = e₂ := hlast.2 (by decide)
  refine ⟨hunique, hfits, ⟨d₁, d₂, h₁, h₂, ?_, ?_, hne, hperm, (hviews ⟨1, some 1⟩).1,
    (hviews ⟨2, some 1⟩).2.2.2⟩, ?_⟩
  · cases h₁
    rfl
  · cases h₂
    rfl
  · exact g₁.trans (heq ▸ g₂.symm)

end Document

end Chronicle
