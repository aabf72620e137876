/-
**No update is lost.**  As long as nothing is removed, what many clients do to a document at the
same time comes to the same as if their calls had been made one after another, in the order in which
they ended, each at the reading of the clock that it used: the calls that failed count for nothing,
the others in full, and each of those reports the state that it left.

Main definitions:

* `Command.perform` — what a call does to its document if nobody interferes;
* `replay`, `Receipt.acknowledged` — calls one after another, and the calls to be replayed;
* `Serial` — a list of receipts that fits such an order.

Main results:

* `Exchange.serial_step`, `Exchange.serial_run` — one step, and every history, leaves receipts that
  fit;
* `Exchange.serialisable` — **the stored document is that of the replay, at every moment**.
-/

import Chronicle.Proofs.Exchange
import Chronicle.Proofs.Clash

set_option autoImplicit false

namespace Chronicle

/-! ### One call after another -/

/-- Whether a command removes documents. -/
def Command.removes : Command → Bool
  | .delete _ => true
  | .prune _ => true
  | _ => false

theorem Command.subject?_ne_none {c : Command} (h : c.removes = false) : c.subject? ≠ none := by
  cases c <;> simp_all [removes, subject?]

/-- What a call that succeeds does to its document if nobody interferes: it creates the document if
there is none, and edits the one that is there. -/
def Command.perform (c : Command) (now : Timestamp) :
    Option Document → Except EditError (Option Document)
  | none => .ok (c.creation? now)
  | some d =>
    match c.edit? with
    | none => .ok (some d)
    | some edit => (d.edit now edit).map some

/-- Calls one after another, each at its reading of the clock. -/
def replay (start : Option Document) (calls : List (Timestamp × Command)) :
    Except EditError (Option Document) :=
  calls.foldlM (fun stored call => call.2.perform call.1 stored) start

theorem replay_concat {start stored : Option Document} {calls : List (Timestamp × Command)}
    (h : replay start calls = .ok stored) (now : Timestamp) (c : Command) :
    replay start (calls ++ [(now, c)]) = c.perform now stored := by
  rw [replay, List.foldlM_append]
  change (replay start calls).bind _ = _
  rw [h]
  change (c.perform now stored).bind .ok = _
  cases c.perform now stored <;> rfl

namespace Receipt

/-- The call with the reading of the clock that it used, if it succeeded; a call that never read the
clock has only looked. -/
def acknowledged? (id : DocumentId) (r : Receipt) : Option (Timestamp × Command) :=
  if r.concerns id then r.known.clock.map fun now => (now, r.command) else none

/-- The calls about a document that succeeded, in the order in which they ended. -/
def acknowledged (id : DocumentId) (receipts : List Receipt) : List (Timestamp × Command) :=
  receipts.filterMap (acknowledged? id)

variable {r : Receipt} {id : DocumentId}

theorem acknowledged_concat {receipts : List Receipt} {now : Timestamp}
    (hr : r.concerns id = true) (hclock : r.known.clock = some now) :
    acknowledged id (receipts ++ [r]) = acknowledged id receipts ++ [(now, r.command)] := by
  have h : acknowledged? id r = some (now, r.command) := by
    rw [acknowledged?, if_pos hr, hclock]
    rfl
  rw [acknowledged, List.filterMap_append, List.filterMap_cons_some h]
  rfl

/-- Whoever only looks has written nothing. -/
theorem Looks.wrote_eq_false {stored : Except StoreError (Option Document)}
    (h : r.Looks id stored) : r.wrote id = false := by
  by_contra hw
  rw [Bool.not_eq_false, wrote, Bool.and_eq_true, concerns_iff] at hw
  obtain ⟨⟨hid, outcome, ho⟩, hedit⟩ := hw
  rw [(h hid outcome ho).1] at hedit
  cases hedit

end Receipt

/-- Receipts that fit calls made one after another: each tells of the document that the ones before
it have left. -/
inductive Serial (id : DocumentId) (start : Option Document) :
    List Receipt → Option Document → Prop
  | nil : Serial id start [] start
  | look {receipts : List Receipt} {r : Receipt} {stored : Option Document}
      (before : Serial id start receipts stored) (looks : r.Looks id (.ok stored)) :
      Serial id start (receipts ++ [r]) stored
  | edit {receipts : List Receipt} {r : Receipt} {d d' : Document} {now : Timestamp} {edit : Edit}
      (before : Serial id start receipts (some d)) (subject : r.command.subject? = some id)
      (wants : r.command.edit? = some edit) (reads : r.known.clock = some now)
      (computes : d.edit now edit = .ok d') (answers : r.answer = .ok (r.command.report d')) :
      Serial id start (receipts ++ [r]) (some d')
  | create {receipts : List Receipt} {r : Receipt} {d : Document} {now : Timestamp}
      (before : Serial id start receipts none) (subject : r.command.subject? = some id)
      (reads : r.known.clock = some now) (creates : r.command.creation? now = some d)
      (answers : r.answer = .ok (r.command.report d)) :
      Serial id start (receipts ++ [r]) (some d)

namespace Serial

variable {id : DocumentId} {start stored : Option Document} {receipts : List Receipt}

/-- A receipt among those that end with `x` is `x` itself, or stands before it. -/
theorem split_concat {x r : Receipt} {before after : List Receipt}
    (h : receipts ++ [x] = before ++ r :: after) :
    (receipts = before ∧ x = r ∧ [] = after) ∨ ∃ after, receipts = before ++ r :: after := by
  rcases List.eq_nil_or_concat after with rfl | ⟨after, y, rfl⟩
  · obtain ⟨hbefore, hx⟩ := List.append_inj' h rfl
    exact .inl ⟨hbefore, by simpa using hx, rfl⟩
  · rw [List.concat_eq_append, ← List.cons_append, ← List.append_assoc] at h
    exact .inr ⟨after, (List.append_inj' h rfl).1⟩

/-- Who only looks may be left out of a replay. -/
theorem replay_look {r : Receipt} (h : replay start (Receipt.acknowledged id receipts) = .ok stored)
    (looks : r.Looks id (.ok stored)) :
    replay start (Receipt.acknowledged id (receipts ++ [r])) = .ok stored := by
  cases hr : r.acknowledged? id with
  | none =>
      rw [Receipt.acknowledged, List.filterMap_append, List.filterMap_cons_none hr,
        List.filterMap_nil, List.append_nil]
      exact h
  | some call =>
      rw [Receipt.acknowledged?] at hr
      split at hr
      · next hc =>
          obtain ⟨now, hclock, -⟩ := Option.map_eq_some_iff.1 hr
          obtain ⟨hid, outcome, ho⟩ := Receipt.concerns_iff.1 hc
          obtain ⟨hedit, d, hd, -⟩ := looks hid outcome ho
          cases hd
          rw [Receipt.acknowledged_concat hc hclock, replay_concat h, Command.perform, hedit]
      · cases hr

/-- **A serial list of receipts replays to the document that it leaves.** -/
theorem replay_eq (h : Serial id start receipts stored) :
    replay start (Receipt.acknowledged id receipts) = .ok stored := by
  induction h with
  | nil => rfl
  | look before looks ih => exact replay_look ih looks
  | edit before subject wants reads computes answers ih =>
      rw [Receipt.acknowledged_concat (Receipt.concerns_iff.2 ⟨subject, _, answers⟩) reads,
        replay_concat ih, Command.perform, wants]
      dsimp only
      rw [computes]
      rfl
  | create before subject reads creates answers ih =>
      rw [Receipt.acknowledged_concat (Receipt.concerns_iff.2 ⟨subject, _, answers⟩) reads,
        replay_concat ih, Command.perform, creates]

/-- Whoever wrote had read the clock, and answered with what the calls up to its own replay to. -/
theorem answer_of_wrote (h : Serial id start receipts stored) {before after : List Receipt}
    {r : Receipt} (hsplit : receipts = before ++ r :: after) (hr : r.wrote id = true) :
    ∃ d now, r.known.clock = some now ∧ r.answer = .ok (.document d) ∧
      replay start (Receipt.acknowledged id (before ++ [r])) = .ok (some d) := by
  obtain ⟨edit, hedit⟩ := Receipt.edit?_of_wrote hr
  induction h generalizing after with
  | nil => simp at hsplit
  | look h looks ih =>
      -- the last receipt only looks, so the one that wrote is among those before it
      rcases split_concat hsplit with ⟨rfl, rfl, rfl⟩ | ⟨after, hsplit⟩
      · rw [looks.wrote_eq_false] at hr
        cases hr
      · exact ih hsplit
  | edit h subject wants reads computes answers ih =>
      rcases split_concat hsplit with ⟨rfl, rfl, rfl⟩ | ⟨after, hsplit⟩
      · have hserial := h.edit subject wants reads computes answers
        rw [Command.report_of_edit? hedit] at answers
        exact ⟨_, _, reads, answers, hserial.replay_eq⟩
      · exact ih hsplit
  | create h subject reads creates answers ih =>
      rcases split_concat hsplit with ⟨rfl, rfl, rfl⟩ | ⟨after, hsplit⟩
      · have hserial := h.create subject reads creates answers
        rw [Command.report_of_edit? hedit] at answers
        exact ⟨_, _, reads, answers, hserial.replay_eq⟩
      · exact ih hsplit

/-- The version of a document that was there from the start counts the calls that wrote to it. -/
theorem version_eq {d₀ : Document} (h : Serial id (some d₀) receipts stored) :
    ∃ d, stored = some d ∧
      d.version.toNat = d₀.version.toNat + (receipts.filter (·.wrote id)).length := by
  induction h with
  | nil => exact ⟨d₀, rfl, rfl⟩
  | look before looks ih =>
      obtain ⟨d, hd, hv⟩ := ih
      refine ⟨d, hd, ?_⟩
      rw [List.filter_append, List.filter_singleton, looks.wrote_eq_false]
      simpa using hv
  | edit before subject wants reads computes answers ih =>
      obtain ⟨d, hd, hv⟩ := ih
      cases hd
      have hnext := Document.edit_version computes
      refine ⟨_, rfl, ?_⟩
      rw [List.filter_append, List.filter_singleton,
        Receipt.wrote_of_edit? subject wants answers]
      simp only [cond_true, List.length_append, List.length_singleton]
      omega
  | create before subject reads creates answers ih =>
      obtain ⟨d, hd, -⟩ := ih
      cases hd

end Serial

/-! ### Histories without removals -/

namespace Exchange

variable {ι : Type} [DecidableEq ι]

theorem sessions_resume {m : Exchange ι} {i j : ι} {c : Command} {known : Knowledge}
    {rest : Call Outcome} {s : Session} (h : (m.resume i c known rest).sessions j = some s) :
    (j = i ∧ s.command = c) ∨ m.sessions j = some s := by
  cases rest with
  | done answer => exact .inr ((update_eq_some h).resolve_left nofun)
  | ask request next =>
      rcases update_eq_some h with ⟨hj, hs⟩ | h
      · cases hs
        exact .inl ⟨hj, rfl⟩
      · exact .inr h

/-- A call in progress was in progress before, or has just been made. -/
theorem command_of_step {m : Exchange ι} {e : Event ι} {j : ι} {s : Session}
    (h : (m.step e).sessions j = some s) :
    (∃ s', m.sessions j = some s' ∧ s'.command = s.command) ∨
      ∃ settings, e = .call j settings s.command := by
  cases e with
  | call i settings c =>
      rw [step] at h
      split at h
      · exact .inl ⟨s, h, rfl⟩
      · rcases sessions_resume h with ⟨rfl, rfl⟩ | h
        · exact .inr ⟨settings, rfl⟩
        · exact .inl ⟨s, h, rfl⟩
  | ask i now =>
      rw [step] at h
      split at h
      · next c known request next hbusy =>
          rcases sessions_resume h with ⟨rfl, rfl⟩ | h
          · exact .inl ⟨_, hbusy, rfl⟩
          · exact .inl ⟨s, h, rfl⟩
      · exact .inl ⟨s, h, rfl⟩

/-- The invariant of histories in which nothing is removed: the document is the one that the calls
that have ended leave, made one after another. -/
structure Serialised (id : DocumentId) (start : Option Document) (m : Exchange ι) : Prop where
  sound : m.Sound
  /-- Nobody removes anything. -/
  keeping : ∀ i s, m.sessions i = some s → s.command.removes = false
  /-- Nothing has been removed. -/
  removals : m.removals id = 0
  serial : ∃ stored, m.store.load id = .ok stored ∧ Serial id start m.finished stored

omit [DecidableEq ι] in
/-- What one step does is one more call in the order: a swap replaces the document that its call
loaded, since nothing has been removed in the meantime. -/
theorem serial_change {id : DocumentId} {start : Option Document} {m m' : Exchange ι}
    (h : m.Serialised id start) (hc : Change id m m') :
    m'.removals id = 0 ∧ ∃ stored, m'.store.load id = .ok stored ∧
      Serial id start m'.finished stored := by
  obtain ⟨stored, hstored, hserial⟩ := h.serial
  have hzero := h.removals
  cases hc with
  | kept load removals finished =>
      refine ⟨removals.trans hzero, stored, load.trans hstored, ?_⟩
      rcases finished with hsame | ⟨r, hr, hlooks⟩
      · rwa [hsame]
      · rw [hstored] at hlooks
        rw [hr]
        exact hserial.look hlooks
  | @edited i s loaded current next now edit busy subject wants remembers reads computes version
      before after removals finished =>
      refine ⟨removals.trans hzero, some next, after, ?_⟩
      have hin := h.sound.inStep i s id busy subject
      -- nothing has ever been removed, so the life is the first one
      obtain ⟨hera, -⟩ := hin loaded remembers
      cases hin.eq_of_version remembers (by omega) before version
      cases hstored.symm.trans before
      rw [finished]
      exact hserial.edit subject wants reads computes rfl
  | @created i s d now busy subject reads creates before after removals finished =>
      refine ⟨removals.trans hzero, some d, after, ?_⟩
      cases hstored.symm.trans before
      rw [finished]
      exact hserial.create subject reads creates rfl
  | @removed i s busy subject before after removals finished =>
      exact absurd subject (Command.subject?_ne_none (h.keeping i s busy))

theorem serial_step {id : DocumentId} {start : Option Document} {m : Exchange ι}
    (h : m.Serialised id start) {e : Event ι}
    (he : ∀ i settings c, e = .call i settings c → c.removes = false) :
    (m.step e).Serialised id start := by
  obtain ⟨hremovals, hserial⟩ := serial_change h (change_of_step h.sound e id)
  refine ⟨sound_step h.sound e, fun i s hs => ?_, hremovals, hserial⟩
  rcases command_of_step hs with ⟨s', hs', hcommand⟩ | ⟨settings, hcall⟩
  · rw [← hcommand]
    exact h.keeping i s' hs'
  · exact he i settings s.command hcall

theorem serial_run {id : DocumentId} {start : Option Document} {m : Exchange ι}
    (h : m.Serialised id start) {events : List (Event ι)}
    (keeping : ∀ i settings c, .call i settings c ∈ events → c.removes = false) :
    (m.run events).Serialised id start :=
  run_rec h fun _ _ he hm => serial_step hm fun i settings c heq => keeping i settings c (heq ▸ he)

/-- **No update is lost**: in a history in which nothing is removed, whatever the order of the
questions, the stored document is that of the calls that succeeded, made one after another in the
order in which they ended; a call that wrote answers with the document that it left; and the
version of a document that was there from the start counts them. -/
theorem serialisable {store : Store} (schema : store.schema.RoundTrips) {id : DocumentId}
    {start : Option Document} (init : store.load id = .ok start) (events : List (Event ι))
    (keeping : ∀ i settings c, .call i settings c ∈ events → c.removes = false) :
    let m := (idle store).run events
    ∃ stored, m.store.load id = .ok stored ∧
      replay start (Receipt.acknowledged id m.finished) = .ok stored ∧
      (∀ before r after, m.finished = before ++ r :: after → r.wrote id = true →
        ∃ d now, r.known.clock = some now ∧ r.answer = .ok (.document d) ∧
          replay start (Receipt.acknowledged id (before ++ [r])) = .ok (some d)) ∧
      ∀ d₀, start = some d₀ → ∃ d, stored = some d ∧
        d.version.toNat = d₀.version.toNat + (m.finished.filter (·.wrote id)).length := by
  have hidle : (idle store : Exchange ι).Serialised id start :=
    ⟨sound_idle schema, nofun, rfl, start, init, .nil⟩
  obtain ⟨stored, hstored, hserial⟩ := (serial_run hidle keeping).serial
  refine ⟨stored, hstored, hserial.replay_eq, fun before r after => hserial.answer_of_wrote, ?_⟩
  rintro d₀ rfl
  exact hserial.version_eq

/-- Two clients write at the same time; one of them meets a conflict and tries again, and its second
round is the one that counts. -/
theorem serialisable_contended :
    let doc : DocumentId := ⟨"doc", by decide⟩
    let a : EntryId := ⟨"a", by decide⟩
    let b : EntryId := ⟨"b", by decide⟩
    let d : Document := ⟨doc, 1, 0, ⟨10⟩, [⟨a, true, 1, ⟨10⟩⟩]⟩
    let d' : Document := ⟨doc, 3, 0, ⟨50⟩, [⟨a, false, 2, ⟨30⟩⟩, ⟨b, false, 3, ⟨50⟩⟩]⟩
    let store : Store := (({} : Store).insert d).2
    let events : List (Event Bool) :=
      [.call true {} (.write doc (.upsert a)), .call false {} (.touch doc [b] false),
        .ask true ⟨0⟩, .ask false ⟨0⟩, .ask true ⟨30⟩, .ask false ⟨40⟩, .ask true ⟨0⟩,
        .ask false ⟨0⟩, .ask false ⟨0⟩, .ask false ⟨50⟩, .ask false ⟨0⟩]
    let m := (idle store).run events
    (store.schema.RoundTrips ∧ store.load doc = .ok (some d) ∧
      ∀ i settings c, .call i settings c ∈ events → c.removes = false) ∧
      Receipt.acknowledged doc m.finished =
        [(⟨30⟩, .write doc (.upsert a)), (⟨50⟩, .touch doc [b] false)] ∧
      m.store.load doc = .ok (some d') ∧
      replay (some d) (Receipt.acknowledged doc m.finished) = .ok (some d') := by
  intro doc a b d d' store events m
  have schema : store.schema.RoundTrips := Schema.roundTrips_default
  have init : store.load doc = .ok (some d) := by decide +kernel
  have keeping : ∀ i settings c, .call i settings c ∈ events → c.removes = false := by
    simp only [events, List.mem_cons, List.not_mem_nil, or_false, reduceCtorEq,
      Event.call.injEq]
    rintro i settings c (⟨-, -, rfl⟩ | ⟨-, -, rfl⟩) <;> rfl
  have hload : m.store.load doc = .ok (some d') := by decide +kernel
  obtain ⟨stored, hstored, hreplay, -⟩ := serialisable schema init events keeping
  cases hstored.symm.trans hload
  exact ⟨⟨schema, init, keeping⟩, by decide +kernel, hload, hreplay⟩

end Exchange

end Chronicle
