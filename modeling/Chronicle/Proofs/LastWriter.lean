/-
**The last writer wins.**  Seen through look-ups, a log is a map from tags to entries, and a run of
edits is easily said: what stands under a tag is what the last edit left there that touched it, by
writing or by removing it, and what stood there before if none did.  Nothing is asked of the log:
where a tag occurs more than once a look-up finds its first entry, an edit of one entry replaces the
first, and a batch takes all of them away.

Main definitions:

* `Edit.Touches` — an edit that writes or removes a tag;
* `Edit.leaves` — what an edit that touches a tag leaves under it.

Main results:

* `Document.entry?_edit` — a look-up after one edit;
* `Document.entry?_edits_of_untouched` — a run that does not touch a tag leaves it alone;
* `Document.last_writer_wins` — **the look-up after every run**.
-/

import Chronicle.Proofs.Edits

set_option autoImplicit false

namespace Chronicle

/-! ### Tags that an edit touches -/

namespace Edit

/-- Whether an edit writes or removes a tag. -/
def Touches (edit : Edit) (tag : EntryId) : Prop :=
  tag ∈ edit.targets ∨ tag ∈ edit.dropped

instance (edit : Edit) (tag : EntryId) : Decidable (edit.Touches tag) :=
  inferInstanceAs (Decidable (_ ∨ _))

/-- What an edit that touches a tag leaves under it: an entry at its own version and time, or
nothing, if it removes the tag and does not append it.  Of several entries that a batch brings for
one tag the first counts. -/
def leaves (tag : EntryId) (version : UInt64) (now : Timestamp) : Edit → Option Entry
  | .upsert _ => some ⟨tag, false, version, now⟩
  | .markDeleted _ => some ⟨tag, true, version, now⟩
  | .replace _ append =>
    (append.find? fun e => decide (e.id = tag)).map fun e => ⟨tag, e.deleted, version, now⟩

variable {tag id : EntryId}

@[simp]
theorem touches_upsert : (upsert id).Touches tag ↔ id = tag := by
  simp [Touches, targets, dropped, eq_comm]

@[simp]
theorem touches_markDeleted : (markDeleted id).Touches tag ↔ id = tag := by
  simp [Touches, targets, dropped, eq_comm]

end Edit

/-! ### Look-ups in a log -/

namespace Entry

theorem find?_putIn (tag : EntryId) (e : Entry) (l : List Entry) :
    (e.putIn l).find? (fun x => decide (x.id = tag)) =
      if e.id = tag then some e else l.find? fun x => decide (x.id = tag) := by
  induction l with
  | nil => by_cases h : e.id = tag <;> simp [putIn, h]
  | cons y l ih =>
      rw [putIn]
      by_cases hy : y.id = e.id
      · -- the entry is written here, over one that only its own tag would find
        rw [if_pos hy]
        by_cases h : e.id = tag <;> simp [h, hy]
      · rw [if_neg hy, List.find?_cons, List.find?_cons, ih]
        by_cases h : e.id = tag
        · have hne : y.id ≠ tag := fun hyt => hy (hyt.trans h.symm)
          simp [h, hne]
        · simp [h]

/-- The first entry of a tag is among the first occurrences, unless the tag was seen before. -/
theorem find?_firstOccurrences (tag : EntryId) (seen : List EntryId) (l : List Entry) :
    (firstOccurrences seen l).find? (fun x => decide (x.id = tag)) =
      if tag ∈ seen then none else l.find? fun x => decide (x.id = tag) := by
  induction l generalizing seen with
  | nil => simp [firstOccurrences]
  | cons e l ih =>
      rw [firstOccurrences]
      by_cases he : e.id ∈ seen
      · rw [if_pos (by simpa using he), ih]
        by_cases htag : tag ∈ seen
        · rw [if_pos htag, if_pos htag]
        · have hne : e.id ≠ tag := fun h => htag (h ▸ he)
          rw [if_neg htag, if_neg htag, List.find?_cons_of_neg (by simpa using hne)]
      · rw [if_neg (by simpa using he)]
        by_cases hid : e.id = tag
        · subst hid
          rw [if_neg he, List.find?_cons_of_pos (by simp), List.find?_cons_of_pos (by simp)]
        · rw [List.find?_cons_of_neg (by simpa using hid), List.find?_cons_of_neg (by simpa using hid),
            ih]
          simp [Ne.symm hid]

end Entry

namespace Edit

variable {tag : EntryId}

/-- What a batch leaves under a tag is found among the entries that it writes. -/
theorem find?_written_replace (remove : List EntryId) (append : List Entry) (version : UInt64)
    (now : Timestamp) :
    ((Edit.replace remove append).written version now).find? (fun x => decide (x.id = tag)) =
      (Edit.replace remove append).leaves tag version now := by
  have hfirst := Entry.find?_firstOccurrences tag [] append
  rw [if_neg List.not_mem_nil] at hfirst
  rw [written, leaves, List.find?_map]
  change Option.map _ ((Entry.firstOccurrences [] append).find? fun x => decide (x.id = tag)) = _
  rw [hfirst]
  cases hfind : append.find? fun x => decide (x.id = tag) with
  | none => rfl
  | some e =>
      have hid : e.id = tag := by simpa using List.find?_some hfind
      rw [← hid]
      rfl

end Edit

/-! ### One edit -/

namespace Document

variable {d d' : Document} {now : Timestamp} {edit : Edit} {version : UInt64}
  {run : List (Timestamp × Edit)} {tag : EntryId}

theorem entry?_eq_find? (d : Document) (tag : EntryId) :
    d.entry? tag.text = d.log.find? fun e => decide (e.id = tag) := by
  have htag : (fun e : Entry => e.id.text == tag.text) = fun e => decide (e.id = tag) := by
    funext e
    rw [Bool.eq_iff_iff, beq_iff_eq, decide_eq_true_iff, Id.ext_iff]
  unfold entry?
  rw [htag]

/-- What a batch keeps of a log holds the first entry of every tag that the batch does not touch,
and no entry of any other. -/
theorem find?_rewritten_replace (d : Document) (remove : List EntryId) (append : List Entry) :
    (d.rewritten version now (.replace remove append)).find? (fun e => decide (e.id = tag)) =
      if (Edit.replace remove append).Touches tag then
        ((Edit.replace remove append).written version now).find? fun e => decide (e.id = tag)
      else d.log.find? fun e => decide (e.id = tag) := by
  rw [rewritten, List.find?_append, List.find?_filter]
  simp only [Edit.kept_iff, ← not_or]
  by_cases htouch : (Edit.replace remove append).Touches tag
  · have hkept : (d.log.find? fun e => decide (¬ (Edit.replace remove append).Touches e.id ∧
        decide (e.id = tag) = true)) = none := by
      rw [List.find?_eq_none]
      rintro x - hx
      obtain ⟨huntouched, hid⟩ := decide_eq_true_iff.1 hx
      exact huntouched (of_decide_eq_true hid ▸ htouch)
    rw [if_pos htouch]
    exact (congrArg (Option.or · _) hkept).trans Option.none_or
  · have hwritten : ((Edit.replace remove append).written version now).find?
        (fun e => decide (e.id = tag)) = none := by
      rw [List.find?_eq_none]
      intro x hx hid
      have htarget := Edit.mem_ids_written.1 (List.mem_map_of_mem hx)
      exact htouch (.inl (of_decide_eq_true hid ▸ htarget))
    have hsame : ∀ e : Entry, decide (¬ (Edit.replace remove append).Touches e.id ∧
        decide (e.id = tag) = true) = decide (e.id = tag) := by
      intro e
      by_cases hid : e.id = tag
      · simp [hid, htouch]
      · simp [hid]
    rw [if_neg htouch, hwritten, Option.or_none]
    exact congrArg (List.find? · d.log) (funext hsame)

/-- **A look-up after one edit** finds what the edit leaves, if it touches the tag, and what was
there before, if it does not. -/
theorem entry?_edit (h : d.edit now edit = .ok d') (tag : EntryId) :
    d'.entry? tag.text =
      if edit.Touches tag then edit.leaves tag d'.version now else d.entry? tag.text := by
  rw [entry?_eq_find?, entry?_eq_find?, edit_log h]
  cases edit with
  | upsert id =>
      rw [rewritten, place_eq_putIn, Entry.find?_putIn]
      by_cases hid : id = tag
      · simp [hid, Edit.leaves]
      · simp [hid]
  | markDeleted id =>
      rw [rewritten, place_eq_putIn, Entry.find?_putIn]
      by_cases hid : id = tag
      · simp [hid, Edit.leaves]
      · simp [hid]
  | replace remove append =>
      rw [find?_rewritten_replace, Edit.find?_written_replace]

/-! ### Runs -/

/-- A run that does not touch a tag leaves it alone. -/
theorem entry?_edits_of_untouched (h : d.edits run = .ok d')
    (hrun : ∀ w ∈ run, ¬ w.2.Touches tag) : d'.entry? tag.text = d.entry? tag.text := by
  refine edits_rec (motive := fun run d' => (∀ w ∈ run, ¬ w.2.Touches tag) →
    d'.entry? tag.text = d.entry? tag.text) (fun _ => rfl) ?_ h hrun
  intro run d₁ now edit d₂ _ ih h₂ hrun
  rw [entry?_edit h₂, if_neg (hrun (now, edit) (by simp))]
  exact ih fun w hw => hrun w (by simp [hw])

/-- A run with an edit in its middle is a run up to it, the edit, and a run from there. -/
theorem edits_append_cons {earlier later : List (Timestamp × Edit)}
    (h : d.edits (earlier ++ (now, edit) :: later) = .ok d') :
    ∃ d₁ d₂, d.edits earlier = .ok d₁ ∧ d₁.edit now edit = .ok d₂ ∧ d₂.edits later = .ok d' := by
  rw [edits_append] at h
  cases h₁ : d.edits earlier with
  | error e =>
      rw [h₁] at h
      cases h
  | ok d₁ =>
      rw [h₁] at h
      change (d₁.edit now edit).bind (fun d₂ => d₂.edits later) = .ok d' at h
      cases h₂ : d₁.edit now edit with
      | error e =>
          rw [h₂] at h
          cases h
      | ok d₂ =>
          rw [h₂] at h
          exact ⟨d₁, d₂, rfl, h₂, h⟩

/-- **The last writer wins.**  After any run of edits on any document, a look-up finds what was there
before, if no edit touched the tag, and else what the last edit that did left there: an entry at the
version that this edit gave the document and at the time of this edit, or nothing. -/
theorem last_writer_wins (h : d.edits run = .ok d') (tag : EntryId) :
    ((∀ w ∈ run, ¬ w.2.Touches tag) → d'.entry? tag.text = d.entry? tag.text) ∧
      ∀ earlier now edit later, run = earlier ++ (now, edit) :: later →
        edit.Touches tag → (∀ w ∈ later, ¬ w.2.Touches tag) →
        ∃ version : UInt64, version.toNat = d.version.toNat + (earlier.length + 1) ∧
          d'.entry? tag.text = edit.leaves tag version now := by
  refine ⟨entry?_edits_of_untouched h, ?_⟩
  rintro earlier now edit later rfl htouch hlater
  obtain ⟨d₁, d₂, h₁, h₂, h₃⟩ := edits_append_cons h
  refine ⟨d₂.version, ?_, ?_⟩
  · rw [edit_version h₂, edits_version h₁, Nat.add_assoc]
  · rw [entry?_edits_of_untouched h₃ hlater, entry?_edit h₂, if_pos htouch]

/-- A log that holds a tag twice is edited in its first entry; a batch then takes both away, appends
the first of what it brings for that tag, and drops another for good. -/
theorem last_writer_wins_over_duplicates :
    let a : EntryId := ⟨"a", by decide⟩
    let b : EntryId := ⟨"b", by decide⟩
    let c : EntryId := ⟨"c", by decide⟩
    let d : Document := ⟨⟨"doc", by decide⟩, 4, 0, ⟨30⟩,
      [⟨a, false, 1, ⟨10⟩⟩, ⟨b, false, 2, ⟨20⟩⟩, ⟨a, true, 3, ⟨30⟩⟩, ⟨c, false, 4, ⟨30⟩⟩]⟩
    let run : List (Timestamp × Edit) :=
      [(⟨40⟩, .upsert a), (⟨50⟩, .replace [a, b] [⟨a, true, 9, ⟨0⟩⟩, ⟨a, false, 9, ⟨0⟩⟩]),
        (⟨60⟩, .markDeleted ⟨"z", by decide⟩)]
    ∃ d', d.edits run = .ok d' ∧ d'.entry? "a" = some ⟨a, true, 6, ⟨50⟩⟩ ∧
      d'.entry? "b" = none ∧ d'.entry? "c" = d.entry? "c" := by
  intro a b c d run
  obtain ⟨d', hrun⟩ : ∃ d', d.edits run = .ok d' := ⟨_, rfl⟩
  have hsplit : run = run.take 1 ++ run[1] :: run.drop 2 := rfl
  obtain ⟨va, hva, ha⟩ := (last_writer_wins hrun a).2 _ _ _ _ hsplit (by decide) (by decide)
  obtain ⟨vb, hvb, hb⟩ := (last_writer_wins hrun b).2 _ _ _ _ hsplit (by decide) (by decide)
  have hc := (last_writer_wins hrun c).1 (by decide)
  have hsix : va = 6 := UInt64.toNat_inj.1 hva
  exact ⟨d', hrun, hsix ▸ ha, hb, hc⟩

end Document

end Chronicle
