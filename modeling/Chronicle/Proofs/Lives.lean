/-
**A document has several lives.**  A document that is removed and created again starts from the
first version once more, so that a version tells the states of a document apart within one life
only.  Two things compare nothing but versions, and this module says what follows for them: a swap
prepared in an earlier life may replace a document that its call never loaded, and a reader who
knows a version from an earlier life may be told that there is nothing new.  Within one life neither
happens.

Main definitions:

* `Exchange.pending?` — the next question of a client, and what the client has learnt;
* `Exchange.OneLife` — between two moments a document is not removed, and whoever writes to it had
  loaded it in that same life;
* `Exchange.After` — the invariant: within one life a document is only edited.

Main results:

* `Exchange.overwrites_unseen_iff` — **exactly when a swap replaces a document that its call never
  loaded**, and `Exchange.acknowledged_update_lost`, a history in which one does;
* `Exchange.after_run` — the invariant holds throughout every history;
* `Exchange.catches_up` — **what a reader has after a view that is not withheld**, and
  `Exchange.recreation_unnoticed`, a history in which it is not the whole document.
-/

import Chronicle.Proofs.Exchange
import Chronicle.Proofs.Clash
import Chronicle.Proofs.Replica

set_option autoImplicit false

namespace Chronicle

/-! ### Swaps -/

/-- The next question of a call in progress. -/
def Session.question? (s : Session) : Option Request :=
  match s.rest with
  | .done _ => none
  | .ask request _ => some request

namespace Exchange

variable {ι : Type}

/-- What a client has learnt, and what it is about to ask. -/
def pending? (m : Exchange ι) (i : ι) : Option (Knowledge × Request) :=
  (m.sessions i).bind fun s => s.question?.map fun request => (s.known, request)

/-- A client asks only what it may. -/
theorem mayAsk_of_pending? {m : Exchange ι} (h : m.Orderly) {i : ι} {known : Knowledge}
    {request : Request} (pending : m.pending? i = some (known, request)) :
    ∃ s, m.sessions i = some s ∧ s.known = known ∧ s.command.MayAsk known request := by
  obtain ⟨s, hs, hask⟩ := Option.bind_eq_some_iff.1 pending
  obtain ⟨request', hquestion, heq⟩ := Option.map_eq_some_iff.1 hask
  cases heq
  refine ⟨s, hs, rfl, ?_⟩
  have hfollows := h i s hs
  rw [Session.question?] at hquestion
  cases hrest : s.rest with
  | done answer =>
      rw [hrest] at hquestion
      cases hquestion
  | ask request' next =>
      rw [hrest] at hquestion hfollows
      cases hquestion
      exact hfollows.1

variable [DecidableEq ι]

/-- **Exactly when a swap replaces a document that its call never loaded**: when the document has
been removed since, and its new life has come to the very version that the call loaded. -/
theorem overwrites_unseen_iff {store : Store} (schema : store.schema.RoundTrips)
    (events : List (Event ι)) {i : ι} {known : Knowledge} {id : DocumentId} {expected : UInt64}
    {next : Document}
    (pending : ((idle store).run events).pending? i = some (known, .swap id expected next)) :
    let m := (idle store).run events
    ∃ loaded, known.loaded = some loaded ∧ loaded.version = expected ∧
      ((m.store.swap id expected next).1 = .ok () ∧ m.store.load id ≠ .ok (some loaded) ↔
        known.era < m.removals id ∧ loaded.id = id ∧ ∃ current,
          m.store.load id = .ok (some current) ∧ current.version = loaded.version ∧
            current ≠ loaded) := by
  intro m
  have hm : m.Sound := sound_run (sound_idle schema) events
  obtain ⟨s, hs, rfl, hid, loaded, now, edit, hloaded, -, -, rfl, hnext⟩ :=
    mayAsk_of_pending? hm.orderly pending
  have hin := hm.inStep i s id hs hid
  refine ⟨loaded, hloaded, rfl, ?_⟩
  rw [Store.swap_eq_ok_iff, Document.edit_id hnext]
  constructor
  · rintro ⟨⟨hname, current, hcurrent, hversion⟩, hunseen⟩
    have hne : current ≠ loaded := by
      rintro rfl
      exact hunseen hcurrent
    refine ⟨?_, hname, current, hcurrent, hversion, hne⟩
    -- in the same life it would have been the loaded document
    by_contra hsame
    obtain ⟨hera, -⟩ := hin loaded hloaded
    exact hne (hin.eq_of_version hloaded (by omega) hcurrent hversion).symm
  · rintro ⟨-, hname, current, hcurrent, hversion, hne⟩
    refine ⟨⟨hname, current, hcurrent, hversion⟩, ?_⟩
    intro hload
    cases hload.symm.trans hcurrent
    exact hne rfl

/-- A document is pruned and created anew while a batch waits with its swap: the swap succeeds. -/
theorem overwrites_unseen_after_prune :
    let doc : DocumentId := ⟨"doc", by decide⟩
    let a : EntryId := ⟨"a", by decide⟩
    let loaded : Document := ⟨doc, 1, 0, ⟨10⟩, []⟩
    let current : Document := ⟨doc, 1, 0, ⟨110⟩, []⟩
    let next : Document := ⟨doc, 2, 0, ⟨20⟩, [⟨a, false, 2, ⟨20⟩⟩]⟩
    let known : Knowledge := ⟨some loaded, 0, some ⟨20⟩⟩
    let events : List (Event Bool) :=
      [.call false {} (.findOrCreate doc ⟨1, none⟩), .ask false ⟨0⟩, .ask false ⟨10⟩,
        .ask false ⟨0⟩, .call true {} (.touch doc [a] false), .ask true ⟨0⟩, .ask true ⟨20⟩,
        .call false {} (.prune ⟨0, 50000000, by decide⟩), .ask false ⟨100⟩, .ask false ⟨0⟩,
        .call false {} (.findOrCreate doc ⟨1, none⟩), .ask false ⟨0⟩, .ask false ⟨110⟩,
        .ask false ⟨0⟩]
    let m := (idle {}).run events
    (m.pending? true = some (known, .swap doc 1 next) ∧ m.store.load doc = .ok (some current)) ∧
      (m.store.swap doc 1 next).1 = .ok () ∧ m.store.load doc ≠ .ok (some loaded) := by
  intro doc a loaded current next known events m
  have pending : m.pending? true = some (known, .swap doc 1 next) := by decide +kernel
  have hload : m.store.load doc = .ok (some current) := by decide +kernel
  obtain ⟨loaded', hloaded, -, hiff⟩ :=
    overwrites_unseen_iff Schema.roundTrips_default events pending
  cases hloaded
  exact ⟨⟨pending, hload⟩, hiff.2 ⟨by decide +kernel, rfl, current, hload, rfl, by decide⟩⟩

/-- A batch is acknowledged to a document that was created anew, and a call that has loaded the
document in its former life overwrites it without noticing. -/
theorem acknowledged_update_lost :
    let doc : DocumentId := ⟨"doc", by decide⟩
    let a : EntryId := ⟨"a", by decide⟩
    let x : EntryId := ⟨"x", by decide⟩
    let y : EntryId := ⟨"y", by decide⟩
    let loaded : Document := ⟨doc, 1, 0, ⟨10⟩, [⟨x, false, 1, ⟨10⟩⟩]⟩
    let current : Document := ⟨doc, 1, 0, ⟨30⟩, [⟨y, false, 1, ⟨30⟩⟩]⟩
    let next : Document := ⟨doc, 2, 0, ⟨20⟩, [⟨x, false, 1, ⟨10⟩⟩, ⟨a, false, 2, ⟨20⟩⟩]⟩
    let events : List (Event Bool) :=
      [.call false {} (.touch doc [x] false), .ask false ⟨0⟩, .ask false ⟨10⟩, .ask false ⟨0⟩,
        .call true {} (.write doc (.upsert a)), .ask true ⟨0⟩, .ask true ⟨20⟩,
        .call false {} (.delete doc), .ask false ⟨0⟩,
        .call false {} (.touch doc [y] false), .ask false ⟨0⟩, .ask false ⟨30⟩, .ask false ⟨0⟩]
    let m : Exchange Bool := (idle {}).run events
    let m' := m.step (.ask true ⟨0⟩)
    m.finished.getLast?.map (·.answer) = some (.ok (.document current)) ∧
      m.store.load doc = .ok (some current) ∧
      m.pending? true = some (⟨some loaded, 0, some ⟨20⟩⟩, .swap doc 1 next) ∧ loaded ≠ current ∧
      m'.finished.getLast?.map (·.answer) = some (.ok (.document next)) ∧
      m'.store.load doc = .ok (some next) := by
  decide +kernel

end Exchange

/-! ### One life -/

namespace Exchange

variable {ι : Type} {id : DocumentId} {d : Document} {m m' m'' : Exchange ι}

/-- Between two moments a document lives one life: it is not removed, and whoever writes to it had
loaded it in that life. -/
def OneLife (id : DocumentId) (m m' : Exchange ι) : Prop :=
  m'.removals id = m.removals id ∧
    ∀ r ∈ m'.finished.drop m.finished.length, r.wrote id = true → r.known.era = m.removals id

theorem Change.removals_le (h : Change id m m') : m.removals id ≤ m'.removals id := by
  cases h <;> omega

/-- Receipts are never lost. -/
theorem Change.finished_prefix (h : Change id m m') : m.finished <+: m'.finished := by
  cases h with
  | kept load removals finished =>
      rcases finished with hsame | ⟨r, hr, -⟩
      · exact hsame ▸ List.prefix_refl _
      · exact hr ▸ List.prefix_append _ _
  | edited busy subject wants remembers reads computes version before after removals finished =>
      exact finished ▸ List.prefix_append _ _
  | created busy subject reads creates before after removals finished =>
      exact finished ▸ List.prefix_append _ _
  | removed busy subject before after removals finished =>
      obtain ⟨r, hr, -⟩ := finished
      exact hr ▸ List.prefix_append _ _

/-- The invariant after a moment at which a document was stored: as long as it lives one life it is
only edited. -/
structure After (id : DocumentId) (d : Document) (m m' : Exchange ι) : Prop where
  sound : m'.Sound
  removals : m.removals id ≤ m'.removals id
  finished : m.finished <+: m'.finished
  edits : OneLife id m m' → ∃ run d', d.edits run = .ok d' ∧ m'.store.load id = .ok (some d')

/-- A life that goes on after a step had not ended before it. -/
theorem OneLife.before (h : OneLife id m m'') (after : After id d m m') (hc : Change id m' m'') :
    OneLife id m m' := by
  obtain ⟨hremovals, hera⟩ := h
  have hle := hc.removals_le
  have hle' := after.removals
  obtain ⟨later, hlater⟩ := hc.finished_prefix
  rw [← hlater, List.drop_append_of_le_length after.finished.length_le] at hera
  constructor
  · omega
  · intro r hr
    exact hera r (List.mem_append_left _ hr)

/-- What a call that only reads answers is what is stored then. -/
theorem report_of_change {r : Receipt} {outcome : Outcome} (hc : Change id m m')
    (hr : m'.finished = m.finished ++ [r]) (subject : r.command.subject? = some id)
    (reading : r.command.edit? = none) (answers : r.answer = .ok outcome) :
    ∃ d, m'.store.load id = .ok (some d) ∧ outcome = r.command.report d := by
  cases hc with
  | kept load removals finished =>
      rcases finished with hsame | ⟨r', hr', looks⟩
      · rw [hr] at hsame
        simp at hsame
      · cases List.append_cancel_left (hr.symm.trans hr')
        obtain ⟨-, d, hd, hout⟩ := looks subject outcome answers
        exact ⟨d, load.trans hd, hout⟩
  | edited busy subject' wants remembers reads computes version before after removals finished =>
      cases List.append_cancel_left (hr.symm.trans finished)
      rw [wants] at reading
      cases reading
  | created busy subject' reads creates before after removals finished =>
      cases List.append_cancel_left (hr.symm.trans finished)
      cases answers
      exact ⟨_, after, rfl⟩
  | removed busy subject' before after removals finished =>
      obtain ⟨r', hr', hnone⟩ := finished
      cases List.append_cancel_left (hr.symm.trans hr')
      rw [subject] at hnone
      cases hnone

variable [DecidableEq ι]

theorem after_step (h : After id d m m') (e : Event ι) : After id d m (m'.step e) := by
  have hc := change_of_step h.sound e id
  refine ⟨sound_step h.sound e, Nat.le_trans h.removals hc.removals_le,
    h.finished.trans hc.finished_prefix, ?_⟩
  intro life
  obtain ⟨run, d', hrun, hload⟩ := h.edits (life.before h hc)
  cases hc with
  | kept load removals finished => exact ⟨run, d', hrun, load.trans hload⟩
  | @edited i s loaded current next now edit busy subject wants remembers reads computes version
      before after removals finished =>
      cases hload.symm.trans before
      -- the call loaded the document in this life, so at that version it is still the same
      have hera : s.known.era = m.removals id := by
        refine life.2 ⟨s.command, s.known, .ok (s.command.report next)⟩ ?_
          (Receipt.wrote_of_edit? subject wants rfl)
        rw [finished, List.drop_append_of_le_length h.finished.length_le]
        exact List.mem_append_right _ (List.mem_singleton_self _)
      have hin := h.sound.inStep i s id busy subject
      have hlife := life.1
      cases hin.eq_of_version remembers (by omega) before version
      exact ⟨run ++ [(now, edit)], next, Document.edits_concat_of_ok hrun computes, after⟩
  | created busy subject reads creates before after removals finished =>
      cases hload.symm.trans before
  | removed busy subject before after removals finished =>
      have hlife := life.1
      have hle := h.removals
      omega

/-- **Within one life a document is only edited.** -/
theorem after_run (hm : m.Sound) (hd : m.store.load id = .ok (some d)) (events : List (Event ι)) :
    After id d m (m.run events) := by
  refine run_rec ?_ fun m' e _ h => after_step h e
  exact ⟨hm, Nat.le_refl _, List.prefix_refl _, fun _ => ⟨[], d, rfl, hd⟩⟩

/-! ### Readers -/

/-- **What a reader has after a view that is not withheld**: everything written after the version it
knows; and if the document has lived one life since the reader loaded it, then every entry is in the
view or among those that the reader already has. -/
theorem catches_up {store : Store} (schema : store.schema.RoundTrips)
    (events later : List (Event ι)) (e : Event ι) (id : DocumentId) :
    let m := (idle store).run events
    let m₁ := m.run later
    let m₂ := m₁.step e
    ∀ (d : Document) (q : Query) (r : Receipt) (view : View),
      m.store.load id = .ok (some d) → q.since = d.version → m₂.finished = m₁.finished ++ [r] →
      r.command = .find id q ∨ r.command = .findOrCreate id q →
      r.answer = .ok (.view view) → view.suppressed = none →
      ∃ d', m₂.store.load id = .ok (some d') ∧ d.version ≤ d'.version ∧
        (∀ x ∈ d'.log, x ∈ view.log ∨ x.version ≤ d.version) ∧
        (OneLife id m m₂ → ∀ x ∈ d'.log, x ∈ view.log ∨ x ∈ d.log) := by
  intro m m₁ m₂ d q r view held since ended reads answers shown
  have hm : m.Sound := sound_run (sound_idle schema) events
  have hafter : After id d m m₁ := after_run hm held later
  obtain ⟨subject, reading, hreport⟩ : r.command.subject? = some id ∧ r.command.edit? = none ∧
      ∀ d, r.command.report d = .view (d.view q) := by
    rcases reads with h | h <;> rw [h] <;> exact ⟨rfl, rfl, fun _ => rfl⟩
  obtain ⟨d', hd', hout⟩ :=
    report_of_change (change_of_step hafter.sound e id) ended subject reading answers
  rw [hreport] at hout
  cases hout
  obtain ⟨hle, hlog⟩ := Document.view_unsuppressed shown
  rw [since] at hle hlog
  refine ⟨d', hd', hle, ?_, ?_⟩
  · intro x hx
    rw [hlog, Document.mem_entriesSince, ← UInt64.not_lt]
    by_cases hnew : d.version < x.version
    · exact .inl ⟨hx, hnew⟩
    · exact .inr hnew
  · intro life x hx
    -- the document has come from the reader's by edits, and these write at newer versions only
    obtain ⟨run, d'', hrun, hload⟩ := (after_step hafter e).edits life
    cases hload.symm.trans hd'
    rw [hlog, Document.mem_entriesSince]
    rcases Document.mem_or_newer_of_edits hrun x hx with hold | hnew
    · exact .inr hold
    · exact .inl ⟨hx, hnew⟩

/-- A reader catches up on a tombstone written between its call and its question. -/
theorem catches_up_on_tombstone :
    let doc : DocumentId := ⟨"doc", by decide⟩
    let x : EntryId := ⟨"x", by decide⟩
    let y : EntryId := ⟨"y", by decide⟩
    let d : Document := ⟨doc, 1, 0, ⟨10⟩, [⟨x, false, 1, ⟨10⟩⟩]⟩
    let d' : Document := ⟨doc, 2, 0, ⟨20⟩, [⟨x, false, 1, ⟨10⟩⟩, ⟨y, true, 2, ⟨20⟩⟩]⟩
    let events : List (Event Bool) :=
      [.call false {} (.touch doc [x] false), .ask false ⟨0⟩, .ask false ⟨10⟩, .ask false ⟨0⟩]
    let later : List (Event Bool) :=
      [.call false {} (.write doc (.markDeleted y)), .ask false ⟨0⟩, .ask false ⟨20⟩,
        .call true {} (.find doc ⟨1, some 5⟩), .ask false ⟨0⟩]
    let m := (idle {}).run events
    let m₂ := (m.run later).step (.ask true ⟨0⟩)
    let r : Receipt :=
      ⟨.find doc ⟨1, some 5⟩, ⟨some d', 0, none⟩, .ok (.view (d'.view ⟨1, some 5⟩))⟩
    (m.store.load doc = .ok (some d) ∧ m₂.finished = (m.run later).finished ++ [r] ∧
      (d'.view ⟨1, some 5⟩).suppressed = none ∧ OneLife doc m m₂) ∧
      m₂.store.load doc = .ok (some d') ∧
      ∀ e ∈ d'.log, e ∈ (d'.view ⟨1, some 5⟩).log ∨ e ∈ d.log := by
  intro doc x y d d' events later m m₂ r
  have held : m.store.load doc = .ok (some d) := by decide +kernel
  have ended : m₂.finished = (m.run later).finished ++ [r] := by decide +kernel
  have hload : m₂.store.load doc = .ok (some d') := by decide +kernel
  have life : OneLife doc m m₂ := ⟨by decide +kernel, by decide +kernel⟩
  have shown : (d'.view ⟨1, some 5⟩).suppressed = none := by decide +kernel
  obtain ⟨d'', hd'', -, -, hall⟩ := catches_up Schema.roundTrips_default events later
    (.ask true ⟨0⟩) doc d ⟨1, some 5⟩ r _ held rfl ended (.inl rfl) rfl shown
  cases hd''.symm.trans hload
  exact ⟨⟨held, ended, shown, life⟩, hload, hall life⟩

/-- A reader of an empty document is told that there is nothing new, though the document has been
removed and created again with an entry that the reader has never seen. -/
theorem recreation_unnoticed :
    let doc : DocumentId := ⟨"doc", by decide⟩
    let x : EntryId := ⟨"x", by decide⟩
    let d : Document := ⟨doc, 1, 0, ⟨10⟩, []⟩
    let d' : Document := ⟨doc, 1, 0, ⟨20⟩, [⟨x, false, 1, ⟨20⟩⟩]⟩
    let view : View := ⟨1, 0, ⟨20⟩, 0, [], none⟩
    let events : List (Event Bool) :=
      [.call false {} (.findOrCreate doc ⟨0, none⟩), .ask false ⟨0⟩, .ask false ⟨10⟩,
        .ask false ⟨0⟩]
    let later : List (Event Bool) :=
      [.call true {} (.delete doc), .ask true ⟨0⟩, .call true {} (.touch doc [x] false),
        .ask true ⟨0⟩, .ask true ⟨20⟩, .ask true ⟨0⟩, .call false {} (.find doc ⟨1, none⟩)]
    let m := (idle {}).run events
    let m₂ := (m.run later).step (.ask false ⟨0⟩)
    m.store.load doc = .ok (some d) ∧
      m₂.finished.getLast?.map (fun r => (r.command, r.answer)) =
        some (.find doc ⟨1, none⟩, .ok (.view view)) ∧
      m₂.store.load doc = .ok (some d') ∧
      ¬ ∀ e ∈ d'.log, e ∈ view.log ∨ e ∈ d.log := by
  decide +kernel

/-- The condition on the writers is needed too: here nothing is removed after the reader has loaded
the document, but a swap prepared in the former life brings back an entry of that life. -/
example :
    let doc : DocumentId := ⟨"doc", by decide⟩
    let a : EntryId := ⟨"a", by decide⟩
    let x : EntryId := ⟨"x", by decide⟩
    let d : Document := ⟨doc, 1, 0, ⟨30⟩, []⟩
    let d' : Document := ⟨doc, 2, 0, ⟨20⟩, [⟨x, false, 1, ⟨10⟩⟩, ⟨a, false, 2, ⟨20⟩⟩]⟩
    let view : View := ⟨2, 0, ⟨20⟩, 1, [⟨a, false, 2, ⟨20⟩⟩], none⟩
    let events : List (Event Bool) :=
      [.call false {} (.touch doc [x] false), .ask false ⟨0⟩, .ask false ⟨10⟩, .ask false ⟨0⟩,
        .call true {} (.write doc (.upsert a)), .ask true ⟨0⟩, .ask true ⟨20⟩,
        .call false {} (.delete doc), .ask false ⟨0⟩,
        .call false {} (.findOrCreate doc ⟨0, none⟩), .ask false ⟨0⟩, .ask false ⟨30⟩,
        .ask false ⟨0⟩]
    let later : List (Event Bool) := [.ask true ⟨0⟩, .call false {} (.find doc ⟨1, none⟩)]
    let m := (idle {}).run events
    let m₂ := (m.run later).step (.ask false ⟨0⟩)
    m.store.load doc = .ok (some d) ∧ m₂.removals doc = m.removals doc ∧
      m₂.finished.getLast?.map (·.answer) = some (.ok (.view view)) ∧
      m₂.store.load doc = .ok (some d') ∧
      ¬ ∀ e ∈ d'.log, e ∈ view.log ∨ e ∈ d.log := by
  decide +kernel

end Exchange

end Chronicle
