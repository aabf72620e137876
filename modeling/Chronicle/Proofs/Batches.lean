/-
**Batches.**  A batch drops tags from a log and appends entries to it, and the two lists may overlap,
repeat themselves, and meet a log that repeats tags as well.  The outcome is simple all the same: of
the old entries those stay whose tag is in neither list, in their old order, and behind them come the
first entries of every tag of the second list, in the order in which they were given.  How often a
tag occurs afterwards, and what of the two lists does not matter, follows.

Main definitions:

* `Entry.leading` — **the first entries of their tags** in a list, said by positions.

Main results:

* `Entry.firstOccurrences_eq_leading` — the walk along a list that remembers tags finds them;
* `Document.rewritten_replace` — the log that a batch leaves;
* `Document.count_rewritten_replace` — how often each tag occurs in it;
* `Document.rewritten_replace_congr` — what of the two lists it depends on;
* `Document.replaces_in_order` — **the law of batches**.
-/

import Chronicle.Proofs.Attempts

set_option autoImplicit false

namespace Chronicle

/-! ### First entries of their tags -/

namespace Entry

/-- The entries of a list before which no other goes by their tag. -/
def leading (l : List Entry) : List Entry :=
  (l.zipIdx.filter fun p => decide (p.1.id ∉ (l.take p.2).map (·.id))).map (·.1)

/-- In the middle of a list: the entries whose tag has not been seen are those before which no other
goes by their tag, if what has been seen are the tags of the part behind. -/
theorem firstOccurrences_eq_filter {seen : List EntryId} (front rest : List Entry)
    (hseen : ∀ id, id ∈ seen ↔ id ∈ front.map (·.id)) :
    firstOccurrences seen rest = ((rest.zipIdx front.length).filter fun p =>
      decide (p.1.id ∉ ((front ++ rest).take p.2).map (·.id))).map (·.1) := by
  induction rest generalizing seen front with
  | nil => rfl
  | cons e rest ih =>
      have hhead : (front ++ e :: rest).take front.length = front := List.take_left
      have hsplit : front ++ e :: rest = (front ++ [e]) ++ rest := by simp
      have hlength : front.length + 1 = (front ++ [e]).length := by simp
      have hlast : ∀ id, id ∈ (front ++ [e]).map (·.id) ↔ id ∈ seen ∨ id = e.id := by
        intro id
        rw [List.map_append, List.mem_append, ← hseen]
        exact or_congr_right List.mem_singleton
      rw [firstOccurrences, List.zipIdx_cons, List.filter_cons]
      simp only [hhead, ← hseen, List.contains_eq_mem]
      rw [hsplit, hlength]
      by_cases he : e.id ∈ seen
      · -- a tag seen before adds nothing to the tags seen
        have hseen' : ∀ id, id ∈ seen ↔ id ∈ (front ++ [e]).map (·.id) := by
          intro id
          rw [hlast, iff_self_or]
          rintro rfl
          exact he
        simp only [he, decide_true, if_true, not_true_eq_false, decide_false, Bool.false_eq_true,
          if_false]
        exact ih (front ++ [e]) hseen'
      · have hseen' : ∀ id, id ∈ e.id :: seen ↔ id ∈ (front ++ [e]).map (·.id) := by
          intro id
          rw [hlast, List.mem_cons]
          exact or_comm
        simp only [he, decide_false, Bool.false_eq_true, if_false, not_false_eq_true, decide_true,
          if_true, List.map_cons]
        rw [ih (front ++ [e]) hseen']

/-- **A walk that remembers tags** finds the first entries of their tags. -/
theorem firstOccurrences_eq_leading (l : List Entry) : firstOccurrences [] l = leading l :=
  firstOccurrences_eq_filter [] l fun _ => Iff.rfl

/-- Where no tag occurs twice, nor among those seen, every entry is the first of its tag. -/
theorem firstOccurrences_of_nodup {seen : List EntryId} {l : List Entry}
    (h : (l.map (·.id)).Nodup) (hseen : ∀ id ∈ l.map (·.id), id ∉ seen) :
    firstOccurrences seen l = l := by
  induction l generalizing seen with
  | nil => rfl
  | cons e l ih =>
      rw [List.map_cons, List.nodup_cons] at h
      rw [List.map_cons, List.forall_mem_cons] at hseen
      have hrest : ∀ id ∈ l.map (·.id), id ∉ e.id :: seen := by
        intro id hid
        refine List.not_mem_cons_of_ne_of_not_mem ?_ (hseen.2 id hid)
        rintro rfl
        exact h.1 hid
      rw [firstOccurrences, if_neg (by simpa using hseen.1), ih h.2 hrest]

/-- It makes no difference whether entries are stamped before the walk or after it. -/
theorem firstOccurrences_map_stamp (version : UInt64) (now : Timestamp) (seen : List EntryId)
    (l : List Entry) : firstOccurrences seen (l.map (·.stamp version now)) =
      (firstOccurrences seen l).map (·.stamp version now) := by
  induction l generalizing seen with
  | nil => rfl
  | cons e l ih =>
      rw [List.map_cons, firstOccurrences, firstOccurrences, stamp_id, ih, ih]
      split <;> rfl

/-- Of the first entries of their tags, once they are stamped, the list tells tags and markers. -/
theorem map_leading_congr {l l' : List Entry} (version : UInt64) (now : Timestamp)
    (h : l'.map (fun e => (e.id, e.deleted)) = l.map fun e => (e.id, e.deleted)) :
    (leading l').map (·.stamp version now) = (leading l).map (·.stamp version now) := by
  have hstamp : ∀ l : List Entry, l.map (·.stamp version now) =
      (l.map fun e => (e.id, e.deleted)).map fun p => ⟨p.1, p.2, version, now⟩ := by
    intro l
    rw [List.map_map]
    rfl
  rw [← firstOccurrences_eq_leading, ← firstOccurrences_eq_leading, ← firstOccurrences_map_stamp,
    ← firstOccurrences_map_stamp, hstamp, hstamp, h]

end Entry

/-! ### The log that a batch leaves -/

namespace Document

variable {d : Document} {version : UInt64} {now : Timestamp} {remove remove' : List EntryId}
  {append append' : List Entry}

/-- **The log that a batch leaves**: the old entries that neither list names, and behind them the
first entries of their tags in the second list, at the new version and time. -/
theorem rewritten_replace (d : Document) (version : UInt64) (now : Timestamp)
    (remove : List EntryId) (append : List Entry) :
    d.rewritten version now (.replace remove append) =
      (d.log.filter fun e => decide (e.id ∉ remove ∧ e.id ∉ append.map (·.id))) ++
        (Entry.leading append).map (·.stamp version now) := by
  have hkept : (fun e : Entry => !remove.contains e.id &&
      !(((Edit.replace remove append).written version now).map (·.id)).contains e.id) =
      fun e => decide (e.id ∉ remove ∧ e.id ∉ append.map (·.id)) := by
    funext e
    rw [Bool.eq_iff_iff, Edit.kept_iff, decide_eq_true_iff]
    exact and_comm
  rw [rewritten, hkept, Edit.written, Entry.firstOccurrences_eq_leading]

/-- How often each tag occurs in the log that a batch leaves. -/
theorem count_rewritten_replace (d : Document) (version : UInt64) (now : Timestamp)
    (remove : List EntryId) (append : List Entry) (tag : EntryId) :
    ((d.rewritten version now (.replace remove append)).map (·.id)).count tag =
      if tag ∈ append.map (·.id) then 1 else if tag ∈ remove then 0 else d.entryIds.count tag := by
  -- the tags kept are the old tags less those that either list names
  have hkept : (d.log.filter fun e => decide (e.id ∉ remove ∧ e.id ∉ append.map (·.id))).map (·.id) =
      d.entryIds.filter fun id => decide (id ∉ remove ∧ id ∉ append.map (·.id)) := by
    rw [entryIds, List.filter_map]
    rfl
  have hwritten : (Entry.leading append).map (·.stamp version now) =
      (Edit.replace remove append).written version now := by
    rw [Edit.written, Entry.firstOccurrences_eq_leading]
  have hold : (d.entryIds.filter fun id => decide (id ∉ remove ∧ id ∉ append.map (·.id))).count tag =
      if tag ∉ remove ∧ tag ∉ append.map (·.id) then d.entryIds.count tag else 0 := by
    split
    · next h => exact List.count_filter (decide_eq_true h)
    · next h =>
        refine List.count_eq_zero_of_not_mem fun hmem => h ?_
        exact of_decide_eq_true (List.mem_filter.1 hmem).2
  rw [rewritten_replace, List.map_append, List.count_append, hkept, hwritten, hold]
  by_cases htarget : tag ∈ append.map (·.id)
  · rw [if_pos htarget, if_neg fun h => h.2 htarget,
      List.count_eq_one_of_mem Edit.nodup_ids_written (Edit.mem_ids_written.2 htarget)]
  · rw [if_neg htarget, List.count_eq_zero_of_not_mem (mt Edit.mem_ids_written.1 htarget),
      Nat.add_zero]
    by_cases hdrop : tag ∈ remove
    · rw [if_pos hdrop, if_neg fun h => h.1 hdrop]
    · rw [if_neg hdrop, if_pos ⟨hdrop, htarget⟩]

/-- **What a batch depends on**: of the first list the tags that the second does not name, as a set,
and of the second list the tags and markers. -/
theorem rewritten_replace_congr
    (hremove : ∀ tag, tag ∉ append.map (·.id) → (tag ∈ remove' ↔ tag ∈ remove))
    (happend : append'.map (fun e => (e.id, e.deleted)) = append.map fun e => (e.id, e.deleted)) :
    d.rewritten version now (.replace remove' append') =
      d.rewritten version now (.replace remove append) := by
  have hids : append'.map (·.id) = append.map (·.id) := by
    have hfirst := congrArg (List.map Prod.fst) happend
    rwa [List.map_map, List.map_map] at hfirst
  have hkept : ∀ e : Entry, (e.id ∉ remove' ∧ e.id ∉ append'.map (·.id)) ↔
      e.id ∉ remove ∧ e.id ∉ append.map (·.id) := by
    intro e
    rw [hids]
    exact and_congr_left fun hid => not_congr (hremove e.id hid)
  simp only [rewritten_replace, hkept, Entry.map_leading_congr version now happend]

/-! ### Batches -/

/-- **The law of batches.**  A batch on a document with a version to come succeeds, and takes its
version one further.  Of the old entries, repeated tags included, those stay whose tag is in neither
list, as they are and in their order; behind them come the first entries of their tags in the second
list, in the order given, with their tags and markers, at the new version and the time of the batch.
So a tag of the second list occurs once, one of the first list only does not occur, and every other
occurs as often as before.  Of the first list it matters only which tags it holds that the second
does not, and of the second list only tags and markers. -/
theorem replaces_in_order (d : Document) (hfits : d.version.toNat + 1 < UInt64.size)
    (now : Timestamp) (remove : List EntryId) (append : List Entry) :
    ∃ d' : Document, d.edit now (.replace remove append) = .ok d' ∧
      (d'.id = d.id ∧ d'.version.toNat = d.version.toNat + 1 ∧ d'.watermark = d.watermark ∧
        d'.updated = now) ∧
      d'.log = (d.log.filter fun e => decide (e.id ∉ remove ∧ e.id ∉ append.map (·.id))) ++
        (Entry.leading append).map (fun e => ⟨e.id, e.deleted, d'.version, now⟩) ∧
      (∀ tag, d'.entryIds.count tag =
        if tag ∈ append.map (·.id) then 1 else if tag ∈ remove then 0 else d.entryIds.count tag) ∧
      ∀ (remove' : List EntryId) (append' : List Entry),
        (∀ tag, tag ∉ append.map (·.id) → (tag ∈ remove' ↔ tag ∈ remove)) →
        append'.map (fun e => (e.id, e.deleted)) = append.map (fun e => (e.id, e.deleted)) →
        d.edit now (.replace remove' append') = .ok d' := by
  obtain ⟨d', h⟩ := edit_of_fits hfits now (.replace remove append)
  obtain ⟨version, hversion, rfl⟩ := edit_eq_ok_iff.1 h
  refine ⟨_, h, ⟨rfl, hversion, rfl, rfl⟩, rewritten_replace .., ?_, ?_⟩
  · exact count_rewritten_replace d version now remove append
  · intro remove' append' hremove happend
    refine edit_eq_ok_iff.2 ⟨version, hversion, ?_⟩
    rw [rewritten_replace_congr hremove happend]

/-- A batch on a log that holds a tag twice: the tag goes with both its entries and comes back once,
as the first of what the batch brings for it; to list it for removal as well, and twice, makes no
difference. -/
theorem replaces_in_order_over_duplicates :
    let a : EntryId := ⟨"a", by decide⟩
    let b : EntryId := ⟨"b", by decide⟩
    let c : EntryId := ⟨"c", by decide⟩
    let d : Document := ⟨⟨"doc", by decide⟩, 4, 2, ⟨30⟩,
      [⟨a, false, 1, ⟨10⟩⟩, ⟨c, false, 2, ⟨20⟩⟩, ⟨b, false, 2, ⟨20⟩⟩, ⟨a, true, 3, ⟨30⟩⟩,
        ⟨c, true, 4, ⟨30⟩⟩]⟩
    let append : List Entry := [⟨a, true, 9, ⟨0⟩⟩, ⟨a, false, 9, ⟨0⟩⟩]
    let append' : List Entry := [⟨a, true, 0, ⟨7⟩⟩, ⟨a, false, 1, ⟨8⟩⟩]
    let d' : Document := ⟨⟨"doc", by decide⟩, 5, 2, ⟨50⟩,
      [⟨c, false, 2, ⟨20⟩⟩, ⟨c, true, 4, ⟨30⟩⟩, ⟨a, true, 5, ⟨50⟩⟩]⟩
    d.version.toNat + 1 < UInt64.size ∧ d.edit ⟨50⟩ (.replace [b] append) = .ok d' ∧
      d'.entryIds.count a = 1 ∧ d'.entryIds.count b = 0 ∧ d'.entryIds.count c = 2 ∧
      d.edit ⟨50⟩ (.replace [a, b, a] append') = .ok d' := by
  intro a b c d append append' d'
  have hfits : d.version.toNat + 1 < UInt64.size := by decide
  obtain ⟨d₁, h₁, -, -, hcount, hsame⟩ := replaces_in_order d hfits ⟨50⟩ [b] append
  have hd' : d.edit ⟨50⟩ (.replace [b] append) = .ok d' := rfl
  cases h₁.symm.trans hd'
  refine ⟨hfits, hd', hcount a, hcount b, hcount c, hsame [a, b, a] append' ?_ rfl⟩
  intro tag htag
  have hne : tag ≠ a := by
    rintro rfl
    exact htag (by decide)
  simp [hne]

end Document

end Chronicle
