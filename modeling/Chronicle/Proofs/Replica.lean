/-
**Catching up.**  A reader holds a document as it was at some version.  Others write to it, and the
reader asks for what was written since.  The answer is neither too little nor too much: it shows
the entries written after the reader's version that are still there, and what it does not show is
either unchanged or was dropped by a batch that did not write it again.  Where no batch drops
without writing again, the reader has the whole log by laying the answer over its copy.

Main definitions:

* `Entry.overlay` — a log under a list of newer entries;
* `Edit.Covering` — an edit that writes every tag it drops;
* `Document.Since` — how a document stands to an earlier one after a run of edits.

Main results:

* `Document.since_of_edits` — every run leaves the document in that relation;
* `Document.incremental_read` — **a read since the version one holds is sound and complete**.
-/

import Chronicle.Client
import Chronicle.Proofs.Edits
import Chronicle.Proofs.Views

set_option autoImplicit false

namespace Chronicle

/-! ### Looking up a tag -/

namespace Document

/-- What is found under a tag is an entry of the log with that tag. -/
theorem mem_of_entry? {d : Document} {id : EntryId} {x : Entry} (h : d.entry? id.text = some x) :
    x ∈ d.log ∧ x.id = id := by
  have htag := List.find?_some (p := fun e : Entry => e.id.text == id.text) h
  exact ⟨List.mem_of_find?_eq_some h, Id.ext (beq_iff_eq.1 htag)⟩

/-- In a log without repeated tags, the entry found under a tag is the only one with it. -/
theorem entry?_eq_some_iff {d : Document} (hd : d.entryIds.Nodup) {id : EntryId} {x : Entry} :
    d.entry? id.text = some x ↔ x ∈ d.log ∧ x.id = id := by
  constructor
  · exact mem_of_entry?
  · rintro ⟨hx, rfl⟩
    cases hf : d.entry? x.id.text with
    | none => exact absurd (beq_self_eq_true _) (List.find?_eq_none.1 hf x hx)
    | some y =>
        obtain ⟨hy, hid⟩ := mem_of_entry? hf
        rw [List.inj_on_of_nodup_map hd hy hx hid]

end Document

/-! ### What a run leaves of the log it started from -/

/-- An edit that writes every tag it drops. -/
def Edit.Covering (edit : Edit) : Prop :=
  ∀ id ∈ edit.dropped, id ∈ edit.targets

/-- Only a batch drops anything. -/
theorem Edit.eq_replace_of_mem_dropped {edit : Edit} {id : EntryId} (h : id ∈ edit.dropped) :
    ∃ remove append, edit = .replace remove append := by
  cases edit with
  | upsert tag => simp [dropped] at h
  | markDeleted tag => simp [dropped] at h
  | replace remove append => exact ⟨remove, append, rfl⟩

/-- The batch of a client's call drops its own tags only. -/
theorem Client.batchEdit_covering (entries : List EntryId) (deleted : Bool) :
    (batchEdit entries deleted).Covering := by
  intro id hid
  simpa [batchEdit, Edit.targets, Edit.dropped] using hid

namespace Document

/-- How `d'` stands to `d` after the edits of `run`. -/
structure Since (d : Document) (run : List (Timestamp × Edit)) (d' : Document) : Prop where
  /-- Tags still occur once. -/
  unique : d'.entryIds.Nodup
  /-- Versions tell what was written on the way. -/
  newer_iff : ∀ x ∈ d'.log, d.version < x.version ↔ ∃ w ∈ run, x.id ∈ w.2.targets
  /-- What was not written on the way was there before. -/
  older : ∀ x ∈ d'.log, (∀ w ∈ run, x.id ∉ w.2.targets) → x ∈ d.log
  /-- What is there no longer was dropped on the way. -/
  lost : ∀ id ∈ d.entryIds, id ∉ d'.entryIds → ∃ w ∈ run, id ∈ w.2.dropped ∧ id ∉ w.2.targets

theorem since_nil {d : Document} (unique : d.entryIds.Nodup)
    (bounded : ∀ x ∈ d.log, x.version ≤ d.version) : d.Since [] d where
  unique := unique
  newer_iff x hx := by
    have hle := UInt64.le_iff_toNat_le.1 (bounded x hx)
    rw [UInt64.lt_iff_toNat_lt]
    simp only [List.not_mem_nil, false_and, exists_false, iff_false]
    omega
  older x hx _ := hx
  lost id hid hid' := absurd hid hid'

/-- One more edit: its own entries are the newest, and of the others it leaves only those that it
neither writes nor drops, of which nothing changes. -/
theorem Since.concat {d d₁ d₂ : Document} {run : List (Timestamp × Edit)} {now : Timestamp}
    {edit : Edit} (h : d.Since run d₁) (hle : d.version.toNat ≤ d₁.version.toNat)
    (h₂ : d₁.edit now edit = .ok d₂) : d.Since (run ++ [(now, edit)]) d₂ := by
  have hmem : ∀ x, x ∈ d₂.log ↔ x ∈ edit.written d₂.version now ∨
      x ∈ d₁.log ∧ x.id ∉ edit.targets ∧ x.id ∉ edit.dropped := by
    intro x
    rw [edit_log h₂, mem_rewritten_iff h.unique]
  have hrun : ∀ P : Edit → Prop, (∃ w ∈ run ++ [(now, edit)], P w.2) ↔
      (∃ w ∈ run, P w.2) ∨ P edit := by
    intro P
    simp [or_and_right, exists_or]
  refine ⟨edit_unique h₂ h.unique, ?_, ?_, ?_⟩
  · intro x hx
    rw [hrun (x.id ∈ ·.targets)]
    rcases (hmem x).1 hx with hw | ⟨hx₁, ht, -⟩
    · -- written just now: newer than the start, and one of the tags of the run
      have hv := edit_version h₂
      have hnew : d.version < x.version := by
        rw [Edit.version_of_mem_written hw, UInt64.lt_iff_toNat_lt]
        omega
      have htarget : x.id ∈ edit.targets := Edit.mem_ids_written.1 (List.mem_map_of_mem hw)
      exact iff_of_true hnew (.inr htarget)
    · rw [h.newer_iff x hx₁]
      exact ⟨.inl, fun hor => hor.resolve_right ht⟩
  · intro x hx hnot
    rcases (hmem x).1 hx with hw | ⟨hx₁, -, -⟩
    · exact absurd (Edit.mem_ids_written.1 (List.mem_map_of_mem hw))
        (hnot (now, edit) (by simp))
    · exact h.older x hx₁ fun w hw => hnot w (by simp [hw])
  · intro id hid hid₂
    rw [hrun fun edit => id ∈ edit.dropped ∧ id ∉ edit.targets]
    by_cases hid₁ : id ∈ d₁.entryIds
    · -- the last edit dropped it: had it written the tag, the tag would be there
      obtain ⟨x, hx, rfl⟩ := List.mem_map.1 hid₁
      have ht : x.id ∉ edit.targets := by
        intro ht
        obtain ⟨y, hy, hyx⟩ := List.mem_map.1 (Edit.mem_ids_written.2 ht)
        exact hid₂ (List.mem_map.2 ⟨y, (hmem y).2 (.inl hy), hyx⟩)
      refine .inr ⟨?_, ht⟩
      by_contra hdrop
      exact hid₂ (List.mem_map_of_mem ((hmem x).2 (.inr ⟨hx, ht, hdrop⟩)))
    · exact .inl (h.lost id hid hid₁)

/-- **Every run** leaves a document that stands to the one it started from as `Since` says. -/
theorem since_of_edits {d d' : Document} {run : List (Timestamp × Edit)}
    (unique : d.entryIds.Nodup) (bounded : ∀ x ∈ d.log, x.version ≤ d.version)
    (h : d.edits run = .ok d') : d.Since run d' := by
  refine edits_rec (motive := fun run d' => d.Since run d') (since_nil unique bounded) ?_ h
  intro run d₁ now edit d₂ h₁ hs h₂
  have hv := edits_version h₁
  exact hs.concat (by omega) h₂

/-! ### Views that are not withheld -/

/-- A reader who is neither ahead of the document nor behind a reset is shown everything newer. -/
theorem view_unbounded {d : Document} {since : UInt64} (hv : since ≤ d.version)
    (hw : d.watermark < since) :
    (d.view ⟨since, none⟩).suppressed = none ∧
      (d.view ⟨since, none⟩).log = d.entriesSince since := by
  have hnone := (d.view_answers ⟨since, none⟩).unsuppressed_iff.2 ⟨hv, hw, le_top⟩
  exact ⟨hnone, ((d.view_answers _).shows hnone).1⟩

/-- A view that is not withheld is of a document that has come as far as its reader, and shows
everything written since. -/
theorem view_unsuppressed {d : Document} {q : Query} (h : (d.view q).suppressed = none) :
    q.since ≤ d.version ∧ (d.view q).log = d.entriesSince q.since := by
  have hanswers := d.view_answers q
  exact ⟨(hanswers.unsuppressed_iff.1 h).1, (hanswers.shows h).1⟩

theorem mem_entriesSince {d : Document} {since : UInt64} {x : Entry} :
    x ∈ d.entriesSince since ↔ x ∈ d.log ∧ since < x.version := by
  rw [entriesSince, List.mem_filter, decide_eq_true_iff]

end Document

/-! ### Overlaying -/

/-- A log under newer entries: those of its entries whose tag has no newer one, then the newer
ones. -/
def Entry.overlay (log newer : List Entry) : List Entry :=
  (log.filter fun e => !(newer.map (·.id)).contains e.id) ++ newer

theorem Entry.mem_overlay {log newer : List Entry} {x : Entry} :
    x ∈ overlay log newer ↔ x ∈ log ∧ x.id ∉ newer.map (·.id) ∨ x ∈ newer := by
  rw [overlay, List.mem_append, List.mem_filter, Bool.not_eq_true', List.contains_eq_mem,
    decide_eq_false_iff_not]

theorem Entry.nodup_overlay {log newer : List Entry} (hl : log.Nodup) (hn : newer.Nodup) :
    (overlay log newer).Nodup := by
  rw [overlay, List.nodup_append]
  refine ⟨hl.filter _, hn, ?_⟩
  rintro x hx _ hx' rfl
  have hid := (List.mem_filter.1 hx).2
  rw [Bool.not_eq_true', List.contains_eq_mem, decide_eq_false_iff_not] at hid
  exact hid (List.mem_map_of_mem hx')

/-! ### Reading what is new -/

namespace Document

variable {d d' : Document} {run : List (Timestamp × Edit)}

/-- The tags shown are those that were written on the way and are still there. -/
theorem Since.mem_ids_entriesSince (h : d.Since run d') {id : EntryId} :
    id ∈ (d'.entriesSince d.version).map (·.id) ↔
      id ∈ d'.entryIds ∧ ∃ w ∈ run, id ∈ w.2.targets := by
  constructor
  · intro hid
    obtain ⟨x, hx, rfl⟩ := List.mem_map.1 hid
    obtain ⟨hx, hnew⟩ := mem_entriesSince.1 hx
    exact ⟨List.mem_map_of_mem hx, (h.newer_iff x hx).1 hnew⟩
  · rintro ⟨hid, hwritten⟩
    obtain ⟨x, hx, rfl⟩ := List.mem_map.1 hid
    exact List.mem_map_of_mem (mem_entriesSince.2 ⟨hx, (h.newer_iff x hx).2 hwritten⟩)

/-- An entry that is not shown is one that the reader has. -/
theorem Since.mem_of_not_shown (h : d.Since run d') {x : Entry} (hx : x ∈ d'.log)
    (hnot : x.id ∉ (d'.entriesSince d.version).map (·.id)) : x ∈ d.log := by
  refine h.older x hx fun w hw ht => hnot ?_
  exact h.mem_ids_entriesSince.2 ⟨List.mem_map_of_mem hx, w, hw, ht⟩

theorem Since.entry?_eq (h : d.Since run d') (hd : d.entryIds.Nodup) {id : EntryId}
    (hid : id ∈ d'.entryIds) (hnot : id ∉ (d'.entriesSince d.version).map (·.id)) :
    d'.entry? id.text = d.entry? id.text := by
  obtain ⟨x, hx, rfl⟩ := List.mem_map.1 hid
  rw [(entry?_eq_some_iff h.unique).2 ⟨hx, rfl⟩,
    (entry?_eq_some_iff hd).2 ⟨h.mem_of_not_shown hx hnot, rfl⟩]

/-- Where no edit drops a tag without writing it, the entries of the document are those of the
reader's copy under the ones shown. -/
theorem Since.perm_overlay (h : d.Since run d') (hd : d.entryIds.Nodup)
    (covering : ∀ w ∈ run, w.2.Covering) :
    (Entry.overlay d.log (d'.entriesSince d.version)).Perm d'.log := by
  have hnodup : (Entry.overlay d.log (d'.entriesSince d.version)).Nodup :=
    Entry.nodup_overlay hd.of_map (h.unique.of_map.filter _)
  -- neither side repeats an entry, so it is enough that they hold the same ones
  rw [List.perm_ext_iff_of_nodup hnodup h.unique.of_map]
  intro x
  rw [Entry.mem_overlay]
  constructor
  · rintro (⟨hx, hnot⟩ | hx)
    · -- the tag is still there, and what it holds is not shown, so it is what the reader has
      have hid : x.id ∈ d'.entryIds := by
        by_contra hid
        obtain ⟨w, hw, hdrop, ht⟩ := h.lost x.id (List.mem_map_of_mem hx) hid
        exact ht (covering w hw x.id hdrop)
      obtain ⟨y, hy, hyx⟩ := List.mem_map.1 hid
      have hyd : y ∈ d.log := h.mem_of_not_shown hy (hyx.symm ▸ hnot)
      rwa [← List.inj_on_of_nodup_map hd hyd hx hyx]
    · exact (mem_entriesSince.1 hx).1
  · intro hx
    by_cases hid : x.id ∈ (d'.entriesSince d.version).map (·.id)
    · obtain ⟨y, hy, hyx⟩ := List.mem_map.1 hid
      rw [← List.inj_on_of_nodup_map h.unique (mem_entriesSince.1 hy).1 hx hyx]
      exact .inr hy
    · exact .inl ⟨h.mem_of_not_shown hx hid, hid⟩

/-- **A read since the version one holds is sound and complete.**  It is not withheld; it shows the
entries written since that are still there, each once, as they stand, and in the order of the log;
what it does not show the reader has, unless a batch dropped it for good; and if no batch does so,
the reader's copy under what is shown is the document's log. -/
theorem incremental_read (unique : d.hasUniqueIds = true) (bounded : d.versionsBounded = true)
    (seen : d.watermark < d.version) (h : d.edits run = .ok d') :
    let view := d'.view ⟨d.version, none⟩
    view.suppressed = none ∧
      (view.log.Sublist d'.log ∧ (view.log.map (·.id)).Nodup) ∧
      (∀ id : EntryId, id ∈ view.log.map (·.id) ↔
        id ∈ d'.entryIds ∧ ∃ w ∈ run, id ∈ w.2.targets) ∧
      (∀ x ∈ view.log, d'.entry? x.id.text = some x) ∧
      (∀ id ∈ d'.entryIds, id ∉ view.log.map (·.id) → d'.entry? id.text = d.entry? id.text) ∧
      (∀ id ∈ d.entryIds, id ∉ d'.entryIds → ∃ now remove append,
        (now, Edit.replace remove append) ∈ run ∧ id ∈ remove ∧ id ∉ append.map (·.id)) ∧
      ((∀ w ∈ run, w.2.Covering) → (Entry.overlay d.log view.log).Perm d'.log) ∧
      ∀ entries deleted, (Client.batchEdit entries deleted).Covering := by
  intro view
  have hd : d.entryIds.Nodup := d.hasUniqueIds_iff.1 unique
  have hs : d.Since run d' := since_of_edits hd (d.versionsBounded_iff.1 bounded) h
  have hle : d.version ≤ d'.version := by
    have := edits_version h
    rw [UInt64.le_iff_toNat_le]
    omega
  have hwm : d'.watermark < d.version := (edits_watermark h).symm ▸ seen
  obtain ⟨hnone, hlog⟩ := view_unbounded hle hwm
  have hsub : view.log.Sublist d'.log := hlog.symm ▸ List.filter_sublist
  refine ⟨hnone, ⟨hsub, hs.unique.sublist (hsub.map _)⟩, ?_, ?_, ?_, ?_, ?_,
    Client.batchEdit_covering⟩
  · intro id
    rw [hlog]
    exact hs.mem_ids_entriesSince
  · intro x hx
    exact (entry?_eq_some_iff hs.unique).2 ⟨hsub.subset hx, rfl⟩
  · intro id hid hnot
    rw [hlog] at hnot
    exact hs.entry?_eq hd hid hnot
  · intro id hid hid'
    obtain ⟨⟨now, edit⟩, hw, hdrop, ht⟩ := hs.lost id hid hid'
    obtain ⟨remove, append, rfl⟩ := Edit.eq_replace_of_mem_dropped hdrop
    exact ⟨now, remove, append, hw, hdrop, ht⟩
  · intro covering
    rw [hlog]
    exact hs.perm_overlay hd covering

/-- A reader at version 3 catches up on a tag moved to the end, a tombstone and a new tag. -/
theorem incremental_read_from_three :
    let a : EntryId := ⟨"a", by decide⟩
    let b : EntryId := ⟨"b", by decide⟩
    let c : EntryId := ⟨"c", by decide⟩
    let d : Document := ⟨⟨"doc", by decide⟩, 3, 0, ⟨30⟩,
      [⟨a, false, 1, ⟨10⟩⟩, ⟨b, false, 2, ⟨20⟩⟩, ⟨c, true, 3, ⟨30⟩⟩]⟩
    let run : List (Timestamp × Edit) :=
      [(⟨25⟩, .replace [a] [⟨a, false, 9, ⟨0⟩⟩, ⟨a, true, 9, ⟨0⟩⟩]), (⟨40⟩, .markDeleted b)]
    let d' : Document := ⟨⟨"doc", by decide⟩, 5, 0, ⟨40⟩,
      [⟨b, true, 5, ⟨40⟩⟩, ⟨c, true, 3, ⟨30⟩⟩, ⟨a, false, 4, ⟨25⟩⟩]⟩
    (d.hasUniqueIds = true ∧ d.versionsBounded = true ∧ d.watermark < d.version ∧
      d.edits run = .ok d' ∧ ∀ w ∈ run, w.2.Covering) ∧
      (d'.view ⟨3, none⟩).suppressed = none ∧ (d'.view ⟨3, none⟩).log.length = 2 ∧
      (Entry.overlay d.log (d'.view ⟨3, none⟩).log).Perm d'.log := by
  intro a b c d run d'
  have hrun : d.edits run = .ok d' := rfl
  have hcov : ∀ w ∈ run, w.2.Covering := by
    simp [run, Edit.Covering, Edit.dropped, Edit.targets]
  obtain ⟨hnone, -, -, -, -, -, hperm, -⟩ :=
    incremental_read (d := d) rfl rfl (by decide) hrun
  exact ⟨⟨rfl, rfl, by decide, hrun, hcov⟩, hnone, rfl, hperm hcov⟩

end Document

end Chronicle
