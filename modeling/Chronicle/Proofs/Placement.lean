/-
**Where one entry is written.**  A single entry, live or a tombstone, goes to one place of the log
and to no other: to the first place that bears its tag, or behind the log if none does.  The two
cases are said once, as what the log was and what it is afterwards, for any log whatever; how the
places, the tags and the positions fare is read off from them.  Later entries of the same tag, where
a log holds any, are not so much as looked at.

Main definitions:

* `Edit.single` — the edit that writes one entry, live or a tombstone;
* `Entry.Placed` — **the two ways** in which a log takes an entry;
* `Document.seat` — the place of a tag: the first that bears it, or else the one behind the log.

Main results:

* `Entry.placed_putIn`, `Document.placed_edit` — every write is one of the two;
* `Entry.Placed.getElem?_eq`, `Entry.Placed.getElem?_ne_iff`, `Entry.Placed.ids_eq` — the places
  and the tags after a write, and where it changes the log;
* `Document.position?_eq` — a position is the place of a tag that occurs;
* `Document.writes_one_place` — **the frame of a single write**.
-/

import Chronicle.Proofs.Attempts

set_option autoImplicit false

namespace Chronicle

/-! ### One entry -/

/-- The edit that writes one entry: a tombstone if it is `deleted`, and else a live one. -/
def Edit.single (tag : EntryId) (deleted : Bool) : Edit :=
  if deleted then .markDeleted tag else .upsert tag

namespace Entry

/-- The two ways in which a log takes an entry: what the log was, and what it is afterwards. -/
inductive Placed (e : Entry) : List Entry → List Entry → Prop
  /-- No entry bears the tag: the new one goes behind the log. -/
  | behind {l : List Entry} (absent : e.id ∉ l.map (·.id)) : Placed e l (l ++ [e])
  /-- The first entry that bears the tag gives way to the new one. -/
  | instead (front : List Entry) (old : Entry) (back : List Entry) (same : old.id = e.id)
      (first : e.id ∉ front.map (·.id)) : Placed e (front ++ old :: back) (front ++ e :: back)

/-- A walk along the log comes to one of the two. -/
theorem placed_putIn (e : Entry) (l : List Entry) : e.Placed l (e.putIn l) := by
  induction l with
  | nil => exact .behind (l := []) (by simp)
  | cons x l ih =>
      rw [putIn]
      by_cases hx : x.id = e.id
      · rw [if_pos hx]
        exact .instead [] x l hx (by simp)
      · rw [if_neg hx]
        -- the walk goes on: `x` joins what stands before the place
        generalize e.putIn l = l' at ih
        cases ih with
        | behind absent =>
            refine .behind (l := x :: l) ?_
            simp only [List.map_cons, List.mem_cons, not_or]
            exact ⟨Ne.symm hx, absent⟩
        | instead front old back same first =>
            refine .instead (x :: front) old back same ?_
            simp only [List.map_cons, List.mem_cons, not_or]
            exact ⟨Ne.symm hx, first⟩

namespace Placed

variable {e : Entry} {l l' : List Entry}

/-- The place of the tag holds the entry, and every other place what it held. -/
theorem getElem?_eq (h : e.Placed l l') (k : Nat) :
    l'[k]? = if k = (l.map (·.id)).idxOf e.id then some e else l[k]? := by
  cases h with
  | behind absent =>
      rw [List.idxOf_eq_length absent, List.length_map, List.getElem?_append]
      split_ifs with hlt heq heq
      · omega
      · rfl
      · simp [heq]
      · rw [List.getElem?_eq_none (by simp; omega), List.getElem?_eq_none (by omega)]
  | instead front old back same first =>
      have hplace : ((front ++ old :: back).map (·.id)).idxOf e.id = front.length := by
        rw [List.map_append, List.idxOf_append_of_notMem first, List.map_cons, same,
          List.idxOf_cons_self, List.length_map, Nat.add_zero]
      rw [hplace, List.getElem?_append, List.getElem?_append]
      rcases Nat.lt_trichotomy k front.length with hlt | rfl | hgt
      · simp [hlt, Nat.ne_of_lt hlt]
      · simp
      · obtain ⟨i, hi⟩ : ∃ i, k - front.length = i + 1 := ⟨k - front.length - 1, by omega⟩
        simp [Nat.ne_of_gt hgt, Nat.not_lt_of_gt hgt, hi]

/-- The tags stay as they are, but for a new one at the end. -/
theorem ids_eq (h : e.Placed l l') : l'.map (·.id) =
    if e.id ∈ l.map (·.id) then l.map (·.id) else l.map (·.id) ++ [e.id] := by
  cases h with
  | behind absent =>
      rw [if_neg absent]
      simp
  | instead front old back same first =>
      have hmem : e.id ∈ (front ++ old :: back).map (·.id) := by simp [← same]
      rw [if_pos hmem]
      simp [same]

/-- **What a write changes**: the place of the tag, unless it held just this entry, and no other. -/
theorem getElem?_ne_iff (h : e.Placed l l') (k : Nat) : l'[k]? ≠ l[k]? ↔
    k = (l.map (·.id)).idxOf e.id ∧ l[(l.map (·.id)).idxOf e.id]? ≠ some e := by
  rw [h.getElem?_eq]
  split_ifs with hk
  · rw [hk, ne_comm, iff_and_self]
    exact fun _ => rfl
  · exact iff_of_false (fun hne => hne rfl) fun h => hk h.1

theorem of_absent (h : e.Placed l l') (habsent : e.id ∉ l.map (·.id)) : l' = l ++ [e] := by
  cases h with
  | behind absent => rfl
  | instead front old back same first => simp [← same] at habsent

end Placed

end Entry

/-! ### Documents -/

namespace Document

variable {d d' : Document} {now : Timestamp} {tag : EntryId} {deleted : Bool}

/-- The place of a tag in the log: the first that bears it, or the one behind the log. -/
def seat (d : Document) (tag : EntryId) : Nat :=
  d.entryIds.idxOf tag

theorem rewritten_single (d : Document) (version : UInt64) (now : Timestamp) (tag : EntryId)
    (deleted : Bool) : d.rewritten version now (.single tag deleted) =
      Entry.putIn ⟨tag, deleted, version, now⟩ d.log := by
  cases deleted <;> exact place_eq_putIn d _

theorem edit_updated {edit : Edit} (h : d.edit now edit = .ok d') : d'.updated = now := by
  obtain ⟨version, -, rfl⟩ := edit_eq_ok_iff.1 h
  rfl

/-- A write of one entry places it at the new version. -/
theorem placed_edit (h : d.edit now (.single tag deleted) = .ok d') :
    Entry.Placed ⟨tag, deleted, d'.version, now⟩ d.log d'.log := by
  rw [edit_log h, rewritten_single]
  exact Entry.placed_putIn _ _

/-- An entry of the new version was not there before, if no entry was from a version to come. -/
theorem getElem?_ne_of_bounded {edit : Edit} (h : d.edit now edit = .ok d')
    (hbounded : d.versionsBounded = true) {x : Entry} (hx : x.version = d'.version) (k : Nat) :
    d.log[k]? ≠ some x := by
  intro hold
  have hle := (versionsBounded_iff d).1 hbounded x (List.mem_of_getElem? hold)
  have hversion := edit_version h
  rw [hx, UInt64.le_iff_toNat_le] at hle
  omega

theorem seat_lt_iff : d.seat tag < d.log.length ↔ tag ∈ d.entryIds := by
  rw [seat, ← List.idxOf_lt_length_iff, entryIds, List.length_map]

theorem seat_of_absent (h : tag ∉ d.entryIds) : d.seat tag = d.log.length := by
  rw [seat, List.idxOf_eq_length h, entryIds, List.length_map]

/-- The place of a tag that occurs is the first that bears it. -/
theorem seat_spec (h : tag ∈ d.entryIds) :
    d.entryIds[d.seat tag]? = some tag ∧ ∀ k < d.seat tag, d.entryIds[k]? ≠ some tag := by
  refine ⟨List.getElem?_idxOf h, ?_⟩
  intro k hk hbears
  obtain ⟨hlt, hget⟩ := List.getElem?_eq_some_iff.1 hbears
  have hother := List.not_of_lt_findIdx (p := (· == tag)) hk
  simp [hget] at hother

/-- A position is the place of a tag that occurs. -/
theorem position?_eq (d : Document) (tag : EntryId) :
    d.position? tag.text = if tag ∈ d.entryIds then some (d.seat tag) else none := by
  have htag : (fun e : Entry => e.id.text == tag.text) = (· == tag) ∘ (·.id) := by
    funext e
    rw [Bool.eq_iff_iff, beq_iff_eq, Function.comp_apply, beq_iff_eq, Id.ext_iff]
  have hseat : d.log.findIdx ((· == tag) ∘ (·.id)) = d.seat tag := by
    rw [seat, List.idxOf, entryIds, List.findIdx_map]
  rw [position?, htag]
  split_ifs with h
  · rw [List.findIdx?_eq_some_iff_findIdx_eq, hseat]
    exact ⟨seat_lt_iff.2 h, rfl⟩
  · rw [List.findIdx?_eq_none_iff_findIdx_eq, hseat]
    exact seat_of_absent h

/-- Tags that occur keep their positions when a tag is appended. -/
theorem position?_of_append {id : EntryId} (rest : List EntryId)
    (hids : d'.entryIds = d.entryIds ++ rest) (h : id ∈ d.entryIds) :
    d'.position? id.text = d.position? id.text := by
  have h' : id ∈ d'.entryIds := by
    rw [hids]
    exact List.mem_append_left _ h
  rw [position?_eq, position?_eq, if_pos h, if_pos h', seat, seat, hids,
    List.idxOf_append_of_mem h]

/-- **The frame of a single write.**  A write of one entry, live or a tombstone, on a document with a
version to come succeeds and takes its version one further.  Of the log, repeated tags included, one
place changes: it holds the new entry, and every other place holds what it held.  If the tag occurs,
that is the first place that bears it, and neither the length nor the tags of the log change; if not,
it is the place behind the log, and the tag is added to the others.  So every tag that occurred keeps
its position, and the tag written occurs once if no tag was repeated.  The log is indeed another one
at that place, unless just the new entry stood there, and at no other; where no entry was from a
version yet to come, none such stood anywhere. -/
theorem writes_one_place (d : Document) (hfits : d.version.toNat + 1 < UInt64.size)
    (now : Timestamp) (tag : EntryId) (deleted : Bool) :
    ∃ d' : Document, d.edit now (.single tag deleted) = .ok d' ∧
      (d'.id = d.id ∧ d'.version.toNat = d.version.toNat + 1 ∧ d'.watermark = d.watermark ∧
        d'.updated = now) ∧
      (∀ k, d'.log[k]? =
        if k = d.seat tag then some ⟨tag, deleted, d'.version, now⟩ else d.log[k]?) ∧
      (tag ∈ d.entryIds →
        (d.entryIds[d.seat tag]? = some tag ∧ ∀ k < d.seat tag, d.entryIds[k]? ≠ some tag) ∧
        d'.log.length = d.log.length ∧ d'.entryIds = d.entryIds) ∧
      (tag ∉ d.entryIds → d'.log = d.log ++ [⟨tag, deleted, d'.version, now⟩] ∧
        d'.entryIds = d.entryIds ++ [tag]) ∧
      (∀ id ∈ d.entryIds, d'.position? id.text = d.position? id.text) ∧
      (d.hasUniqueIds = true → d'.entryIds.count tag = 1) ∧
      (∀ k, d'.log[k]? ≠ d.log[k]? ↔ k = d.seat tag ∧
        d.log[d.seat tag]? ≠ some ⟨tag, deleted, d'.version, now⟩) ∧
      (d.versionsBounded = true → ∀ k, d'.log[k]? ≠ d.log[k]? ↔ k = d.seat tag) := by
  obtain ⟨d', h⟩ := edit_of_fits hfits now (.single tag deleted)
  have hplaces := (placed_edit h).getElem?_eq
  have hdiffers := (placed_edit h).getElem?_ne_iff
  have hids : d'.entryIds =
      if tag ∈ d.entryIds then d.entryIds else d.entryIds ++ [tag] := (placed_edit h).ids_eq
  have hold : tag ∈ d.entryIds → d'.entryIds = d.entryIds := fun hmem => hids.trans (if_pos hmem)
  have hnew : tag ∉ d.entryIds → d'.entryIds = d.entryIds ++ [tag] :=
    fun habsent => hids.trans (if_neg habsent)
  refine ⟨d', h, ⟨edit_id h, edit_version h, edit_watermark h, edit_updated h⟩, hplaces, ?_, ?_, ?_,
    ?_, hdiffers, ?_⟩
  · intro hmem
    refine ⟨seat_spec hmem, ?_, hold hmem⟩
    simpa [entryIds] using congrArg List.length (hold hmem)
  · intro habsent
    exact ⟨(placed_edit h).of_absent habsent, hnew habsent⟩
  · intro id hid
    by_cases hmem : tag ∈ d.entryIds
    · exact position?_of_append [] (by simpa using hold hmem) hid
    · exact position?_of_append [tag] (hnew hmem) hid
  · intro hunique
    have hnodup : d'.entryIds.Nodup := edit_unique h ((hasUniqueIds_iff d).1 hunique)
    refine List.count_eq_one_of_mem hnodup ?_
    rw [hids]
    split_ifs with hmem
    · exact hmem
    · simp
  · intro hbounded k
    rw [hdiffers]
    exact and_iff_left (getElem?_ne_of_bounded h hbounded rfl _)

/-- An entry from the version to come, written at the time to come: a write leaves the log as it is. -/
example :
    let a : EntryId := ⟨"a", by decide⟩
    let d : Document := ⟨⟨"doc", by decide⟩, 4, 2, ⟨30⟩, [⟨a, false, 5, ⟨50⟩⟩]⟩
    (d.edit ⟨50⟩ (.upsert a)).map (·.log) = .ok d.log := rfl

/-- A log that holds a tag twice takes a new entry in the first of the two places; the second keeps
what it held, and no tag moves. -/
theorem writes_one_place_over_duplicates :
    let a : EntryId := ⟨"a", by decide⟩
    let b : EntryId := ⟨"b", by decide⟩
    let d : Document := ⟨⟨"doc", by decide⟩, 4, 2, ⟨30⟩,
      [⟨b, false, 1, ⟨10⟩⟩, ⟨a, false, 2, ⟨20⟩⟩, ⟨b, true, 3, ⟨30⟩⟩, ⟨a, true, 4, ⟨30⟩⟩]⟩
    d.version.toNat + 1 < UInt64.size ∧ a ∈ d.entryIds ∧ d.versionsBounded = true ∧
      ∃ d', d.edit ⟨50⟩ (.upsert a) = .ok d' ∧ d'.log[1]? = some ⟨a, false, 5, ⟨50⟩⟩ ∧
        d'.log[3]? = some ⟨a, true, 4, ⟨30⟩⟩ ∧ d'.entryIds = d.entryIds ∧
        d'.position? "a" = some 1 ∧ ∀ k, d'.log[k]? ≠ d.log[k]? ↔ k = 1 := by
  intro a b d
  have hfits : d.version.toNat + 1 < UInt64.size := by decide
  have hmem : a ∈ d.entryIds := by decide
  obtain ⟨d', h, ⟨-, hversion, -⟩, hplaces, hold, -, hposition, -, -, hdiffers⟩ :=
    writes_one_place d hfits ⟨50⟩ a false
  have hfive : d'.version = 5 := UInt64.toNat_inj.1 hversion
  rw [hfive] at hplaces
  exact ⟨hfits, hmem, rfl, d', h, hplaces 1, hplaces 3, (hold hmem).2.2, hposition a hmem,
    hdiffers rfl⟩

end Document

end Chronicle
