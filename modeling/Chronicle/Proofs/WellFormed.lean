/-
**What every store holds.**  A document as the calls of clients leave it has a log in order: no tag
twice, no entry from a version before the first or after the present one, and one time for all that
was written at one version.  This holds of every document in every store that was empty at first,
whoever calls what and whatever the clocks show.

The invariant cannot be about the store alone.  A swap puts in the edit of what its call loaded, and
if the document has been removed and created again in the meantime, that is not an edit of what is
stored.  So the documents that calls remember have to be in order as well; and they are, for each of
them was stored once.

Main definitions:

* `Document.WellFormed` — a log in order;
* `Exchange.WellKept` — the invariant, of what is stored and of what is remembered.

Main results:

* `Document.WellFormed.edited`, `Command.wellFormed_of_creation?` — edits keep the order, and every
  document is created in order;
* `Exchange.loaded_of_moves` — whatever a call remembers was remembered or stored before;
* `Exchange.stores_well_formed` — **every history leaves well-formed documents**.
-/

import Chronicle.Proofs.Exchange
import Chronicle.Proofs.Clash

set_option autoImplicit false

namespace Chronicle

/-! ### Documents in order -/

/-- A document whose log is in order. -/
structure Document.WellFormed (d : Document) : Prop where
  version : 1 ≤ d.version
  /-- It has never been reset. -/
  watermark : d.watermark = 0
  unique : d.entryIds.Nodup
  positive : ∀ e ∈ d.log, 1 ≤ e.version
  bounded : ∀ e ∈ d.log, e.version ≤ d.version
  /-- What was written at one version was written at one time. -/
  together : ∀ e₁ ∈ d.log, ∀ e₂ ∈ d.log, e₁.version = e₂.version → e₁.updated = e₂.updated
  /-- What was written at the present version was written at the time of the document. -/
  latest : ∀ e ∈ d.log, e.version = d.version → e.updated = d.updated

namespace Document

variable {d d' : Document} {now : Timestamp} {edit : Edit}

/-- An entry after an edit has the version and the time of the edit, or it is an old one from an
older version. -/
theorem new_or_older_of_edit (hd : ∀ x ∈ d.log, x.version ≤ d.version)
    (h : d.edit now edit = .ok d') {x : Entry} (hx : x ∈ d'.log) :
    x.version = d'.version ∧ x.updated = d'.updated ∨ x ∈ d.log ∧ x.version < d'.version := by
  obtain ⟨version, hversion, rfl⟩ := edit_eq_ok_iff.1 h
  rcases mem_of_mem_rewritten hx with hnew | hold
  · exact .inl ⟨Edit.version_of_mem_written hnew, Edit.updated_of_mem_written hnew⟩
  · have hle := UInt64.le_iff_toNat_le.1 (hd x hold)
    refine .inr ⟨hold, UInt64.lt_iff_toNat_lt.2 ?_⟩
    dsimp only
    omega

namespace WellFormed

/-- **An edit leaves a log in order**, at whatever time it is made. -/
theorem edited (hd : d.WellFormed) (h : d.edit now edit = .ok d') : d'.WellFormed := by
  have hversion := edit_version h
  have hcases : ∀ x ∈ d'.log, x.version = d'.version ∧ x.updated = d'.updated ∨
      x ∈ d.log ∧ x.version < d'.version := fun x hx => new_or_older_of_edit hd.bounded h hx
  have hpositive : 1 ≤ d'.version := by
    rw [UInt64.le_iff_toNat_le, hversion]
    exact Nat.le_add_left ..
  constructor
  · exact hpositive
  · rw [edit_watermark h, hd.watermark]
  · exact edit_unique h hd.unique
  · intro x hx
    rcases hcases x hx with ⟨hnew, -⟩ | ⟨hold, -⟩
    · rw [hnew]
      exact hpositive
    · exact hd.positive x hold
  · intro x hx
    rcases hcases x hx with ⟨hnew, -⟩ | ⟨-, hlt⟩
    · exact hnew ▸ UInt64.le_refl _
    · exact UInt64.le_of_lt hlt
  · -- two entries of one version are both new or both old
    intro x hx y hy hxy
    rcases hcases x hx with ⟨hx, hxnow⟩ | ⟨hx, hxlt⟩
    · rcases hcases y hy with ⟨-, hynow⟩ | ⟨-, hylt⟩
      · exact hxnow.trans hynow.symm
      · exact absurd (hxy.symm.trans hx) (UInt64.ne_of_lt hylt)
    · rcases hcases y hy with ⟨hy, -⟩ | ⟨hy, -⟩
      · exact absurd (hxy.trans hy) (UInt64.ne_of_lt hxlt)
      · exact hd.together x hx y hy hxy
  · intro x hx hlatest
    rcases hcases x hx with ⟨-, hnow⟩ | ⟨-, hlt⟩
    · exact hnow
    · exact absurd hlatest (UInt64.ne_of_lt hlt)

/-- A first version is in order if all its entries are of that version and of its time. -/
theorem of_first (hversion : d.version = firstVersion) (hwatermark : d.watermark = 0)
    (hunique : d.entryIds.Nodup)
    (hlog : ∀ e ∈ d.log, e.version = firstVersion ∧ e.updated = d.updated) : d.WellFormed := by
  refine ⟨?_, hwatermark, hunique, ?_, ?_, ?_, ?_⟩
  · rw [hversion]
    decide
  · intro e he
    rw [(hlog e he).1]
    decide
  · intro e he
    rw [(hlog e he).1, hversion]
    exact UInt64.le_refl _
  · intro e₁ he₁ e₂ he₂ _
    exact (hlog e₁ he₁).2.trans (hlog e₂ he₂).2.symm
  · intro e he _
    exact (hlog e he).2

end WellFormed

end Document

/-! ### Documents as they are created -/

namespace Client

/-- A list names an entry twice iff it fails the check for logs. -/
theorem firstRepeated?_isNone (seen ids : List EntryId) :
    (firstRepeated? seen ids).isNone = Document.allUnseen seen ids := by
  induction ids generalizing seen with
  | nil => rfl
  | cons id ids ih =>
      rw [firstRepeated?, Document.allUnseen]
      by_cases h : seen.contains id = true
      · rw [if_pos h, h]
        rfl
      · rw [if_neg h, ih, eq_false_of_ne_true h]
        rfl

/-- A list makes a batch iff it names something and nothing twice. -/
theorem batchFault?_eq_none_iff {entries : List EntryId} :
    batchFault? entries = none ↔ entries ≠ [] ∧ entries.Nodup := by
  have hunseen : (firstRepeated? [] entries).isNone = true ↔ entries.Nodup := by
    rw [firstRepeated?_isNone, Document.allUnseen_iff]
    simp
  cases entries with
  | nil => simp [batchFault?]
  | cons e entries =>
      rw [← hunseen, batchFault?, if_neg (by simp), Option.map_eq_none_iff, Option.isNone_iff_eq_none]
      simp

/-- A batch names no entry twice. -/
theorem nodup_of_batchFault? {entries : List EntryId} (h : batchFault? entries = none) :
    entries.Nodup :=
  (batchFault?_eq_none_iff.1 h).2

end Client

/-- **Every document is created in order.** -/
theorem Command.wellFormed_of_creation? {c : Command} {now : Timestamp} {d : Document}
    (h : c.creation? now = some d) : d.WellFormed := by
  cases c with
  | findOrCreate id q =>
      cases h
      exact .of_first rfl rfl List.nodup_nil nofun
  | touch id entries deleted =>
      rw [creation?] at h
      split at h
      · next hfault =>
          cases h
          have hids : (Client.firstDocument id entries deleted now).entryIds = entries := by
            rw [Document.entryIds, Client.firstDocument, List.map_map]
            exact List.map_id entries
          refine .of_first rfl rfl ?_ ?_
          · rw [hids]
            exact Client.nodup_of_batchFault? hfault
          intro e he
          obtain ⟨id', -, rfl⟩ := List.mem_map.1 he
          exact ⟨rfl, rfl⟩
      · cases h
  | _ => cases h

/-! ### What is stored and what is remembered -/

namespace Exchange

variable {ι : Type} [DecidableEq ι]

/-- **Whatever a call remembers** it remembered before the move, or it has just loaded it. -/
theorem loaded_of_moves {m m' : Exchange ι} (h : m.Moves m') {i : ι} {s : Session} {d : Document}
    (busy : m'.sessions i = some s) (remembers : s.known.loaded = some d) :
    (∃ s', m.sessions i = some s' ∧ s'.command = s.command ∧ s'.known.loaded = some d) ∨
      ∃ id, s.command.subject? = some id ∧ m.store.load id = .ok (some d) := by
  cases h with
  | stays => exact .inl ⟨s, busy, rfl, remembers⟩
  | begins j c rest follows =>
      rcases update_eq_some busy with ⟨-, hs⟩ | hs
      · cases hs
        cases remembers
      · exact .inl ⟨s, hs, rfl, remembers⟩
  | refuses j c e =>
      exact .inl ⟨s, (update_eq_some busy).resolve_left nofun, rfl, remembers⟩
  | learns j s' request now rest busy' may follows =>
      rcases update_eq_some busy with ⟨rfl, hs⟩ | hs
      · cases hs
        cases request with
        | load id =>
            -- the one answer that changes what is remembered
            change (s'.known.learn m.removals (.load id) (m.store.load id)).loaded = _ at remembers
            refine .inr ⟨id, may, ?_⟩
            cases hload : m.store.load id with
            | error e =>
                rw [hload] at remembers
                cases remembers
            | ok found =>
                rw [hload] at remembers
                exact congrArg _ remembers
        | _ => exact .inl ⟨s', busy', rfl, remembers⟩
      · exact .inl ⟨s, hs, rfl, remembers⟩
  | ends j s' request now result busy' may fits =>
      exact .inl ⟨s, (update_eq_some busy).resolve_left nofun, rfl, remembers⟩

/-- The invariant: what is stored can be read, goes by its name and is in order, and so does what
the calls remember. -/
structure WellKept (m : Exchange ι) : Prop where
  sound : m.Sound
  stored : ∀ id, ∃ found, m.store.load id = .ok found ∧
    ∀ d, found = some d → d.id = id ∧ d.WellFormed
  remembered : ∀ i s d, m.sessions i = some s → s.known.loaded = some d →
    s.command.subject? = some d.id ∧ d.WellFormed

omit [DecidableEq ι] in
theorem wellKept_idle {schema : Schema} (hs : schema.RoundTrips) :
    (idle { schema } : Exchange ι).WellKept :=
  ⟨sound_idle hs, fun _ => ⟨none, rfl, nofun⟩, nofun⟩

omit [DecidableEq ι] in
/-- What happens to a document leaves one in order: an edit is of a document that its call
remembers, whether that is the stored one or not. -/
theorem stored_of_change {m m' : Exchange ι} (h : m.WellKept) {id : DocumentId}
    (hc : Change id m m') :
    ∃ found, m'.store.load id = .ok found ∧ ∀ d, found = some d → d.id = id ∧ d.WellFormed := by
  cases hc with
  | kept load removals finished =>
      rw [load]
      exact h.stored id
  | @edited i s loaded current next now edit busy subject wants remembers reads computes version
      before after removals finished =>
      obtain ⟨hsubject, hloaded⟩ := h.remembered i s loaded busy remembers
      have hid : loaded.id = id := Option.some.inj (hsubject.symm.trans subject)
      refine ⟨some next, after, ?_⟩
      rintro d ⟨⟩
      exact ⟨(Document.edit_id computes).trans hid, hloaded.edited computes⟩
  | @created i s d now busy subject reads creates before after removals finished =>
      have hsubject := Command.subject?_of_creation? creates
      refine ⟨some d, after, ?_⟩
      rintro d ⟨⟩
      exact ⟨Option.some.inj (hsubject.symm.trans subject),
        Command.wellFormed_of_creation? creates⟩
  | removed busy subject before after removals finished => exact ⟨none, after, nofun⟩

theorem wellKept_step {m : Exchange ι} (h : m.WellKept) (e : Event ι) : (m.step e).WellKept := by
  refine ⟨sound_step h.sound e, ?_, ?_⟩
  · exact fun id => stored_of_change h (change_of_step h.sound e id)
  · intro i s d busy remembers
    rcases loaded_of_moves (step_moves h.sound.orderly e) busy remembers with
      ⟨s', hs', hcommand, hd⟩ | ⟨id, hid, hload⟩
    · rw [← hcommand]
      exact h.remembered i s' d hs' hd
    · -- what has just been loaded was stored under the name that the call is about
      obtain ⟨found, hfound, hall⟩ := h.stored id
      cases hfound.symm.trans hload
      obtain ⟨hname, hwell⟩ := hall d rfl
      exact ⟨hname ▸ hid, hwell⟩

theorem wellKept_run {m : Exchange ι} (h : m.WellKept) (events : List (Event ι)) :
    (m.run events).WellKept :=
  run_rec h fun _ e _ hm => wellKept_step hm e

/-- **Every history leaves well-formed documents**: whatever clients have called on a store that was
empty at first, in whatever order their questions came and whatever the clocks showed, each of its
records is read as a document that goes by the name of the record and whose log is in order. -/
theorem stores_well_formed {schema : Schema} (hs : schema.RoundTrips) (events : List (Event ι))
    {id : DocumentId} {record : Json}
    (hrecord : ((idle { schema }).run events).store.raw? id = some record) :
    ∃ d, ((idle { schema }).run events).store.decode record = .ok d ∧ d.id = id ∧
      d.WellFormed := by
  obtain ⟨found, hfound, hall⟩ := (wellKept_run (wellKept_idle hs) events).stored id
  rw [Store.raw?] at hrecord
  rw [Store.load, hrecord] at hfound
  dsimp only at hfound
  cases hdecode : ((idle { schema }).run events).store.decode record with
  | error e =>
      rw [hdecode] at hfound
      cases hfound
  | ok d =>
      rw [hdecode] at hfound
      cases hfound
      exact ⟨d, rfl, hall d rfl⟩

/-- A document is removed and created again while a call that has loaded it is about to swap, and
the clock goes back; the swap brings back an entry of the former life, and the log is in order. -/
theorem stores_well_formed_across_lives :
    let doc : DocumentId := ⟨"doc", by decide⟩
    let a : EntryId := ⟨"a", by decide⟩
    let x : EntryId := ⟨"x", by decide⟩
    let y : EntryId := ⟨"y", by decide⟩
    let d : Document := ⟨doc, 2, 0, ⟨20⟩, [⟨x, false, 1, ⟨10⟩⟩, ⟨y, false, 1, ⟨10⟩⟩,
      ⟨a, false, 2, ⟨20⟩⟩]⟩
    let events : List (Event Bool) :=
      [.call false {} (.touch doc [x, y] false), .ask false ⟨0⟩, .ask false ⟨10⟩, .ask false ⟨0⟩,
        .call true {} (.write doc (.upsert a)), .ask true ⟨0⟩, .ask true ⟨20⟩,
        .call false {} (.delete doc), .ask false ⟨0⟩,
        .call false {} (.findOrCreate doc ⟨0, none⟩), .ask false ⟨0⟩, .ask false ⟨30⟩,
        .ask false ⟨0⟩, .ask true ⟨0⟩]
    let m := (idle {}).run events
    (Schema.RoundTrips {} ∧ m.store.raw? doc ≠ none) ∧ m.store.load doc = .ok (some d) ∧
      d.WellFormed := by
  intro doc a x y d events m
  have hs : Schema.RoundTrips {} := Schema.roundTrips_default
  have hload : m.store.load doc = .ok (some d) := by decide +kernel
  obtain ⟨record, hrecord, hrestore⟩ := Store.load_eq_some_iff.1 hload
  have hdecode : m.store.decode record = .ok d := Store.decode_eq_ok_iff.2 hrestore
  obtain ⟨d', hd', -, hwell⟩ := stores_well_formed hs events hrecord
  have hsame : d' = d := Except.ok.inj (hd'.symm.trans hdecode)
  exact ⟨⟨hs, Option.ne_none_iff_exists'.2 ⟨record, hrecord⟩⟩, hload, hsame ▸ hwell⟩

end Exchange

end Chronicle
