/-
**Logs in the order of their versions.**  An edit that finds its tag in the log writes in the middle
of it, and the versions along the log go up and down from then on.  Every other edit only appends: it
takes entries out, perhaps, and puts what it writes behind the rest.  So a log whose versions do not
descend stays such a log for as long as nothing is written in place, and what is new in it to a
reader is its end.

Main definitions:

* `Edit.Appends` — an edit that writes nothing in place;
* `Document.Appending` — a run of such edits, each judged by the document that it finds;
* `Document.InOrder` — **versions that do not descend**, up to that of the document.

Main results:

* `Document.rewritten_of_appends` — what an edit leaves that only appends;
* `Document.InOrder.of_edit`, `Document.InOrder.of_edits` — one such edit, and a run of them, keep the
  order;
* `Document.InOrder.entriesSince_suffix` — what is new is the end of the log;
* `Document.appending_keeps_order` — the order of a log after every such run, and of what is shown of
  it.
-/

import Chronicle.Client
import Chronicle.Proofs.Placement
import Chronicle.Proofs.Views

set_option autoImplicit false

namespace Chronicle

/-! ### Edits that only append -/

/-- Whether an edit writes nothing in place: a batch never does, and an edit of one entry does not if
its tag is new to the log. -/
def Edit.Appends (d : Document) : Edit → Prop
  | .upsert tag => tag ∉ d.entryIds
  | .markDeleted tag => tag ∉ d.entryIds
  | .replace _ _ => True

instance (d : Document) : DecidablePred (Edit.Appends d)
  | .upsert tag => inferInstanceAs (Decidable (tag ∉ d.entryIds))
  | .markDeleted tag => inferInstanceAs (Decidable (tag ∉ d.entryIds))
  | .replace _ _ => inferInstanceAs (Decidable True)

namespace Document

variable {d d' : Document} {now : Timestamp} {edit : Edit} {run : List (Timestamp × Edit)}

/-- A run of edits none of which writes in place in the document that it finds. -/
def Appending (d : Document) : List (Timestamp × Edit) → Prop
  | [] => True
  | (now, edit) :: rest => edit.Appends d ∧ ∀ d₁, d.edit now edit = .ok d₁ → d₁.Appending rest

/-- An edit that only appends leaves a part of the log, in its order, and behind it what it
writes. -/
theorem rewritten_of_appends (version : UInt64) (now : Timestamp) (h : edit.Appends d) :
    ∃ kept : List Entry, kept.Sublist d.log ∧
      d.rewritten version now edit = kept ++ edit.written version now := by
  cases edit with
  | upsert tag =>
      refine ⟨d.log, .refl _, ?_⟩
      rw [rewritten, place_eq_putIn]
      exact (Entry.placed_putIn _ _).of_absent h
  | markDeleted tag =>
      refine ⟨d.log, .refl _, ?_⟩
      rw [rewritten, place_eq_putIn]
      exact (Entry.placed_putIn _ _).of_absent h
  | replace remove append => exact ⟨_, List.filter_sublist, rfl⟩

end Document

/-! ### The order of versions -/

/-- Where versions do not descend, the entries newer than a version are the last ones. -/
theorem Entry.newer_suffix {l : List Entry} (h : l.Pairwise fun x y => x.version ≤ y.version)
    (since : UInt64) : (l.filter fun e => decide (since < e.version)) <:+ l := by
  induction l with
  | nil => exact List.suffix_refl _
  | cons x l ih =>
      obtain ⟨hx, hl⟩ := List.pairwise_cons.1 h
      by_cases hnew : since < x.version
      · -- the first new entry: all that follow are new as well
        have hall : ∀ y ∈ x :: l, decide (since < y.version) = true := by
          intro y hy
          rw [decide_eq_true_iff]
          rcases List.mem_cons.1 hy with rfl | hy
          · exact hnew
          · exact UInt64.lt_of_lt_of_le hnew (hx y hy)
        rewrite [List.filter_eq_self.2 hall]
        exact List.suffix_refl _
      · rw [List.filter_cons_of_neg (by simpa using hnew)]
        exact (ih hl).trans (List.suffix_cons x l)

namespace Document

variable {d d' : Document} {now : Timestamp} {edit : Edit} {run : List (Timestamp × Edit)}

/-- Along the log versions do not descend, and none is beyond that of the document. -/
structure InOrder (d : Document) : Prop where
  ascending : d.log.Pairwise fun x y => x.version ≤ y.version
  bounded : ∀ x ∈ d.log, x.version ≤ d.version

namespace InOrder

/-- **One edit that only appends keeps the order**: what it writes is at one version, and that is
beyond all others. -/
theorem of_edit (h : d.InOrder) (happends : edit.Appends d) (hedit : d.edit now edit = .ok d') :
    d'.InOrder := by
  refine ⟨?_, edit_bounded hedit h.bounded⟩
  obtain ⟨kept, hkept, hlog⟩ := rewritten_of_appends d'.version now happends
  have hversion := edit_version hedit
  rw [edit_log hedit, hlog, List.pairwise_append]
  refine ⟨h.ascending.sublist hkept, ?_, ?_⟩
  · refine List.pairwise_of_forall_mem_list ?_
    intro x hx y hy
    rw [Edit.version_of_mem_written hx, Edit.version_of_mem_written hy]
    exact UInt64.le_refl _
  · intro x hx y hy
    have hle := UInt64.le_iff_toNat_le.1 (h.bounded x (hkept.subset hx))
    rw [Edit.version_of_mem_written hy, UInt64.le_iff_toNat_le]
    omega

/-- A run that only appends keeps the order. -/
theorem of_edits (h : d.InOrder) (happends : d.Appending run) (hrun : d.edits run = .ok d') :
    d'.InOrder := by
  induction run generalizing d with
  | nil =>
      cases hrun
      exact h
  | cons w run ih =>
      obtain ⟨hfirst, hrest⟩ := happends
      rw [edits] at hrun
      cases h₁ : d.edit w.1 w.2 with
      | error e =>
          rw [h₁] at hrun
          cases hrun
      | ok d₁ =>
          rw [h₁] at hrun
          exact ih (h.of_edit hfirst h₁) (hrest d₁ h₁) hrun

/-- **What is new is the end of the log.** -/
theorem entriesSince_suffix (h : d.InOrder) (since : UInt64) : d.entriesSince since <:+ d.log :=
  Entry.newer_suffix h.ascending since

end InOrder

/-- **The order of versions.**  If along the log of a document versions do not descend, and none is
beyond that of the document, then after every run of batches, whatever their lists, and of edits of
one entry whose tag is not in the log at that moment, versions still do not descend, none is beyond
that of the document, and whatever is shown to a reader is the end of the log. -/
theorem appending_keeps_order (hascending : d.log.Pairwise fun x y => x.version ≤ y.version)
    (hbounded : d.versionsBounded = true) (happends : d.Appending run)
    (hrun : d.edits run = .ok d') :
    (d'.log.Pairwise fun x y => x.version ≤ y.version) ∧ d'.versionsBounded = true ∧
      ∀ q : Query, (d'.view q).suppressed = none → (d'.view q).log <:+ d'.log := by
  have horder : d.InOrder := ⟨hascending, (versionsBounded_iff d).1 hbounded⟩
  have horder' : d'.InOrder := horder.of_edits happends hrun
  refine ⟨horder'.ascending, (versionsBounded_iff d').2 horder'.bounded, ?_⟩
  intro q hshown
  rw [((d'.view_answers q).shows hshown).1]
  exact horder'.entriesSince_suffix q.since

/-- A batch that moves the first tag to the end and drops another, which then comes back as a new one,
and the batch of a client: the reader of version 4 is shown the last two entries. -/
theorem appending_keeps_order_past_batches :
    let a : EntryId := ⟨"a", by decide⟩
    let b : EntryId := ⟨"b", by decide⟩
    let c : EntryId := ⟨"c", by decide⟩
    let z : EntryId := ⟨"z", by decide⟩
    let d : Document := ⟨⟨"doc", by decide⟩, 2, 0, ⟨20⟩,
      [⟨a, false, 1, ⟨10⟩⟩, ⟨b, false, 2, ⟨20⟩⟩, ⟨c, true, 2, ⟨20⟩⟩]⟩
    let run : List (Timestamp × Edit) :=
      [(⟨30⟩, .replace [b] [⟨a, true, 9, ⟨0⟩⟩]), (⟨25⟩, .upsert b),
        (⟨40⟩, Client.batchEdit [z, c] false)]
    let d' : Document := ⟨⟨"doc", by decide⟩, 5, 0, ⟨40⟩,
      [⟨a, true, 3, ⟨30⟩⟩, ⟨b, false, 4, ⟨25⟩⟩, ⟨z, false, 5, ⟨40⟩⟩, ⟨c, false, 5, ⟨40⟩⟩]⟩
    (d.log.Pairwise fun x y => x.version ≤ y.version) ∧ d.versionsBounded = true ∧
      d.Appending run ∧ d.edits run = .ok d' ∧
      (d'.log.Pairwise fun x y => x.version ≤ y.version) ∧
      (d'.view ⟨4, some 2⟩).suppressed = none ∧ (d'.view ⟨4, some 2⟩).log <:+ d'.log ∧
      (d'.view ⟨4, some 2⟩).log.map (·.id) = [z, c] := by
  intro a b c z d run d'
  have hascending : d.log.Pairwise fun x y => x.version ≤ y.version := by decide
  have happends : d.Appending run := by
    refine ⟨trivial, ?_⟩
    rintro d₁ ⟨⟩
    refine ⟨by decide, ?_⟩
    rintro d₂ ⟨⟩
    exact ⟨trivial, fun _ _ => trivial⟩
  have hrun : d.edits run = .ok d' := rfl
  have hshown : (d'.view ⟨4, some 2⟩).suppressed = none := rfl
  obtain ⟨horder, -, hsuffix⟩ := appending_keeps_order hascending rfl happends hrun
  exact ⟨hascending, rfl, happends, hrun, horder, hshown, hsuffix _ hshown, rfl⟩

end Document

end Chronicle
