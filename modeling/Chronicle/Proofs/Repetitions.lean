/-
**Three walks along a list of names.**  Whether a list of names repeats itself is asked in three
places: a batch is turned down for the first name that comes back, a log is accepted if no tag comes
back, and an edit skips the entries whose tag comes back.  Each is a walk of its own that remembers
the names it has passed, and each ends differently.  They are to agree all the same: the document that
a batch makes up is the edit of an empty one only because the edit skips nothing that has passed the
client, and the log made up passes the check only because the client let it pass.

The walks are compared at every state of their memory, not at the start only.  For the third walk the
list is looked up in the log that the edit leaves, behind entries that were there before; it is found
there, at the end, iff nothing was skipped, for what the edit appends stands in the log once.

Main results:

* `Entry.firstOccurrences_eq_self_iff` — an edit skips nothing iff the check for logs accepts;
* `Client.forall_batchFault?_ne_repeated_iff` — a client finds no name that comes back iff the check
  for logs accepts;
* `Document.suffix_rewritten_replace_iff` — **the end of the log tells whether something was skipped**;
* `Client.repetitions_found_alike` — all three find a repetition iff there is one.
-/

import Chronicle.Proofs.Batches
import Chronicle.Proofs.WellFormed
import Mathlib.Data.List.DropRight
import Mathlib.Tactic.TFAE

set_option autoImplicit false

namespace Chronicle

/-! ### The walks -/

/-- **An edit skips nothing iff the check for logs accepts**, whatever both have seen before. -/
theorem Entry.firstOccurrences_eq_self_iff {seen : List EntryId} {l : List Entry} :
    firstOccurrences seen l = l ↔ Document.allUnseen seen (l.map (·.id)) = true := by
  rw [Document.allUnseen_iff]
  constructor
  · -- what the walk passes on is without repetitions and new, and that is the list itself
    intro hself
    have hnodup := nodup_ids_firstOccurrences seen l
    have hnew : ∀ id ∈ (firstOccurrences seen l).map (·.id), id ∉ seen :=
      fun _ hid => (mem_ids_firstOccurrences.1 hid).2
    rw [hself] at hnodup hnew
    exact ⟨hnodup, hnew⟩
  · rintro ⟨hnodup, hnew⟩
    exact firstOccurrences_of_nodup hnodup hnew

/-- A client finds no name that comes back iff the check for logs accepts.  Of the empty list this
holds as well: it is turned down, but for another fault. -/
theorem Client.forall_batchFault?_ne_repeated_iff {entries : List EntryId} :
    (∀ x, batchFault? entries ≠ some (.repeated x)) ↔ Document.allUnseen [] entries = true := by
  cases entries with
  | nil => simp [batchFault?, Document.allUnseen]
  | cons e entries =>
      rw [← firstRepeated?_isNone, Option.isNone_iff_eq_none, Option.eq_none_iff_forall_ne_some]
      simp [batchFault?]

/-! ### The end of the log -/

namespace Document

/-- **The end of the log tells whether something was skipped**: after a batch the log ends with the
tags that were to be appended iff all of them were.  What stood before them cannot stand in for a tag
that was skipped. -/
theorem suffix_rewritten_replace_iff (d : Document) (version : UInt64) (now : Timestamp)
    (remove : List EntryId) (append : List Entry) :
    append.map (·.id) <:+ (d.rewritten version now (.replace remove append)).map (·.id) ↔
      Entry.firstOccurrences [] append = append := by
  constructor
  · intro hsuffix
    -- a tag to be appended stands in the log once, so it stands once at most at its end
    have hcount : ∀ tag, (append.map (·.id)).count tag ≤ 1 := by
      intro tag
      by_cases htag : tag ∈ append.map (·.id)
      · calc (append.map (·.id)).count tag
            ≤ ((d.rewritten version now (.replace remove append)).map (·.id)).count tag :=
              hsuffix.sublist.count_le tag
          _ = 1 := by rw [count_rewritten_replace, if_pos htag]
      · rw [List.count_eq_zero_of_not_mem htag]
        exact Nat.zero_le 1
    exact Entry.firstOccurrences_of_nodup (List.nodup_iff_count_le_one.2 hcount)
      fun _ _ => List.not_mem_nil
  · intro hself
    have hids : (append.map (·.stamp version now)).map (·.id) = append.map (·.id) := by
      rw [List.map_map]
      rfl
    rw [rewritten_replace, ← Entry.firstOccurrences_eq_leading, hself, List.map_append, hids]
    exact List.suffix_append ..

end Document

/-! ### The three walks agree -/

/-- Names are told apart by their texts. -/
theorem Id.nodup_texts_iff {kind : IdKind} {ids : List (Id kind)} :
    (ids.map (·.text)).Nodup ↔ ids.Nodup :=
  List.nodup_map_iff fun _ _ => Id.ext

/-- **Repetitions are found alike.**  For a list of names, a document whose log has these tags in
this order, and a batch that appends entries with these tags in this order to a document with a
version to come, whatever it drops and whatever was there: the batch succeeds, and it is the same to
say that a client does not turn the list down for a name that comes back, that the check for logs
accepts the document, that the last tags of the log after the batch, as many as there are names, are
these names, that no two places of the list hold one name, and that no two hold one text. -/
theorem Client.repetitions_found_alike {ids : List EntryId} (d : Document) (hd : d.entryIds = ids)
    (base : Document) (hfits : base.version.toNat + 1 < UInt64.size) (now : Timestamp)
    (remove : List EntryId) (append : List Entry) (happend : append.map (·.id) = ids) :
    ∃ base' : Document, base.edit now (.replace remove append) = .ok base' ∧
      List.TFAE [
        ∀ x, batchFault? ids ≠ some (.repeated x),
        d.hasUniqueIds = true,
        base'.entryIds.rtake ids.length = ids,
        ∀ i j : Fin ids.length, ids.get i = ids.get j → i = j,
        (ids.map (·.text)).Nodup] := by
  obtain ⟨base', hedit⟩ := Document.edit_of_fits hfits now (.replace remove append)
  refine ⟨base', hedit, ?_⟩
  have hend : ids <:+ base'.entryIds ↔ Document.allUnseen [] ids = true := by
    rw [Document.entryIds, Document.edit_log hedit, ← happend,
      Document.suffix_rewritten_replace_iff, Entry.firstOccurrences_eq_self_iff]
  -- the check for logs is the one that all others are compared with
  tfae_have 1 ↔ 2 := by
    rw [forall_batchFault?_ne_repeated_iff, Document.hasUniqueIds, hd]
  tfae_have 3 ↔ 2 := by
    rw [Document.hasUniqueIds, hd, ← hend, List.suffix_iff_eq_drop]
    exact eq_comm
  tfae_have 2 ↔ 4 := by
    rw [Document.hasUniqueIds_iff, hd]
    exact List.nodup_iff_injective_get
  tfae_have 2 ↔ 5 := by
    rw [Document.hasUniqueIds_iff, hd, Id.nodup_texts_iff]
  tfae_finish

/-- Two batches on a log that ends with `a`, and the documents that they would make up.  Of the batch
that names `a` twice only one comes to the end of the log, and the entry that stood there before does
not pass for the other: a client, the check and the log all tell it from the batch of `b` and `a`. -/
theorem Client.repetitions_found_alike_behind_old_entry :
    let doc : DocumentId := ⟨"doc", by decide⟩
    let a : EntryId := ⟨"a", by decide⟩
    let b : EntryId := ⟨"b", by decide⟩
    let c : EntryId := ⟨"c", by decide⟩
    let base : Document := ⟨doc, 4, 0, ⟨40⟩, [⟨c, false, 3, ⟨30⟩⟩, ⟨a, false, 4, ⟨40⟩⟩]⟩
    let once : Document := ⟨doc, 5, 0, ⟨50⟩,
      [⟨c, false, 3, ⟨30⟩⟩, ⟨b, true, 5, ⟨50⟩⟩, ⟨a, true, 5, ⟨50⟩⟩]⟩
    let twice : Document := ⟨doc, 5, 0, ⟨50⟩, [⟨c, false, 3, ⟨30⟩⟩, ⟨a, true, 5, ⟨50⟩⟩]⟩
    let entries := fun ids : List EntryId => ids.map fun id => (⟨id, true, 0, .zero⟩ : Entry)
    base.version.toNat + 1 < UInt64.size ∧
      ((firstDocument doc [b, a] true ⟨50⟩).entryIds = [b, a] ∧
        (entries [b, a]).map (·.id) = [b, a] ∧
        base.edit ⟨50⟩ (.replace [] (entries [b, a])) = .ok once ∧
        (∀ x, batchFault? [b, a] ≠ some (.repeated x)) ∧
        (firstDocument doc [b, a] true ⟨50⟩).hasUniqueIds = true ∧
        once.entryIds.rtake 2 = [b, a]) ∧
      (firstDocument doc [a, a] true ⟨50⟩).entryIds = [a, a] ∧
        (entries [a, a]).map (·.id) = [a, a] ∧
        base.edit ⟨50⟩ (.replace [] (entries [a, a])) = .ok twice ∧
        batchFault? [a, a] = some (.repeated a) ∧
        (firstDocument doc [a, a] true ⟨50⟩).hasUniqueIds = false ∧
        twice.entryIds.rtake 2 ≠ [a, a] := by
  intro doc a b c base once twice entries
  have hfits : base.version.toNat + 1 < UInt64.size := by decide
  refine ⟨hfits, ?_, ?_⟩
  · have hids : (firstDocument doc [b, a] true ⟨50⟩).entryIds = [b, a] := rfl
    have happend : (entries [b, a]).map (·.id) = [b, a] := rfl
    have honce : base.edit ⟨50⟩ (.replace [] (entries [b, a])) = .ok once := rfl
    have hplain : ([b, a].map (·.text)).Nodup := by decide
    obtain ⟨base', hedit, hsame⟩ :=
      repetitions_found_alike (firstDocument doc [b, a] true ⟨50⟩) hids base hfits ⟨50⟩ [] _ happend
    cases hedit.symm.trans honce
    exact ⟨hids, happend, honce, (hsame.out 0 4).2 hplain, (hsame.out 1 4).2 hplain,
      (hsame.out 2 4).2 hplain⟩
  · have hids : (firstDocument doc [a, a] true ⟨50⟩).entryIds = [a, a] := rfl
    have happend : (entries [a, a]).map (·.id) = [a, a] := rfl
    have htwice : base.edit ⟨50⟩ (.replace [] (entries [a, a])) = .ok twice := rfl
    have hfault : batchFault? [a, a] = some (.repeated a) := rfl
    obtain ⟨base', hedit, hsame⟩ :=
      repetitions_found_alike (firstDocument doc [a, a] true ⟨50⟩) hids base hfits ⟨50⟩ [] _ happend
    cases hedit.symm.trans htwice
    have hfound : ¬ ∀ x, batchFault? [a, a] ≠ some (.repeated x) := fun h => h a hfault
    exact ⟨hids, happend, htwice, hfault, eq_false_of_ne_true (mt (hsame.out 0 1).2 hfound),
      mt (hsame.out 0 2).2 hfound⟩

end Chronicle
