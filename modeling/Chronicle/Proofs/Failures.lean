/-
**How calls fail.**  A store has more ways to refuse than a client has to report: names that are
taken, names that do not match, versions that have moved on.  All of these are met by the calls
themselves, and what is left is little: there is no such document, every round was lost, the call
makes no sense, the versions have run out, or a record cannot be read.  This holds under every
schema, however its names clash, and whoever else writes to the store, be it through calls or
directly.

That a swap never brings a document of another name rests on what the store holds: each of its
records is that of a document of the name it stands under.  Under a schema whose names clash such a
record may have lost much, but if it is read at all, it still tells its name.

Main definitions:

* `Store.Labelled` — every record is that of a document of its name;
* `Request.Possible` — what such a store can answer;
* `Program.Attains` — a program that comes to a good end under all possible answers;
* `Command.MayReport` — **the errors of a call**;
* `Deed`, `Exchange.enact` — histories in which the store is also written to directly.

Main results:

* `Store.Labelled.answer`, `Store.Labelled.possible` — no question takes the labels away, and every
  answer is a possible one;
* `Client.rounds_reports`, `Command.program_reports` — the rounds of a write, and every call, report
  no other error;
* `Exchange.reports_expected_errors` — **no call ever does**.
-/

import Chronicle.Proofs.Clash
import Chronicle.Proofs.Exchange

set_option autoImplicit false

namespace Chronicle

/-! ### Records under their names -/

namespace Store

variable {s : Store} {id : DocumentId} {d : Document}

/-- Every record is that of a document of its name. -/
def Labelled (s : Store) : Prop :=
  ∀ id record, s.raw? id = some record → ∃ d, d.id = id ∧ record = s.schema.layOut d

theorem labelled_empty (schema : Schema) : Labelled { schema } :=
  nofun

namespace Labelled

theorem put (h : s.Labelled) (d : Document) :
    Labelled { s with records := s.records.put d.id (s.schema.layOut d) } := by
  intro id record hrecord
  rw [raw?, Table.get?_put] at hrecord
  split at hrecord
  · next hid =>
      cases hrecord
      exact ⟨d, hid, rfl⟩
  · exact h id record hrecord

/-- What is left of the records keeps its labels. -/
theorem restrict (h : s.Labelled) {records : Table Json}
    (hrecords : ∀ id, records.get? id = s.records.get? id ∨ records.get? id = none) :
    Labelled { s with records } := by
  intro id record hrecord
  rw [raw?] at hrecord
  rcases hrecords id with hsame | hgone
  · exact h id record (hsame.symm.trans hrecord)
  · cases hgone.symm.trans hrecord

/-- **No question takes the labels away.** -/
theorem answer (h : s.Labelled) (now : Timestamp) (request : Request) :
    (Store.answer now request s).2.Labelled := by
  by_cases htook : request.Took (Store.answer now request s).1
  · cases request with
    | now => exact htook.elim
    | load id => exact htook.elim
    | swap id expected d =>
        obtain ⟨rfl, -⟩ := swap_eq_ok_iff.1 htook
        change (s.swap d.id expected d).2.Labelled
        rw [swap_of_ok htook]
        exact h.put d
    | insert d =>
        change (s.insert d).2.Labelled
        rw [(insert_of_ok htook).2]
        exact h.put d
    | delete id =>
        refine h.restrict fun id' => ?_
        rw [Table.get?_erase]
        split
        · exact .inr rfl
        · exact .inl rfl
    | sweep deadline =>
        change (s.sweep deadline).2.Labelled
        unfold sweep
        cases s.expired deadline s.records.rows with
        | error e => exact h
        | ok ids =>
            refine h.restrict fun id' => ?_
            rw [get?_foldl_erase]
            split
            · exact .inr rfl
            · exact .inl rfl
  · rw [answer_of_not_took htook]
    exact h

end Labelled

end Store

/-! ### Possible answers -/

/-- A record that cannot be read, which there is only under names that clash. -/
def Schema.Spoils (schema : Schema) (e : StoreError) : Prop :=
  ¬ schema.RoundTrips ∧ ∃ reason, e = .corrupt schema.name reason

/-- What a store with labelled records can answer. -/
def Request.Possible (schema : Schema) : (request : Request) → request.Answer → Prop
  | .now, _ => True
  | .load id, .ok found => ∀ d, found = some d → d.id = id
  | .load _, .error e => schema.Spoils e
  | .swap .., .ok _ => True
  | .swap id expected d, .error e => e = .notFound id ∨
      (∃ actual, e = .versionConflict id expected actual) ∨
      d.id ≠ id ∧ e = .idMismatch id d.id ∨ schema.Spoils e
  | .insert _, .ok _ => True
  | .insert d, .error e => e = .alreadyExists d.id
  | .delete _, answer => ∃ found, answer = .ok found
  | .sweep _, .ok _ => True
  | .sweep _, .error e => schema.Spoils e

namespace Store.Labelled

variable {s : Store} {id : DocumentId} {record : Json}

theorem id_of_decode (h : s.Labelled) (hrecord : s.raw? id = some record) {d : Document}
    (hd : s.decode record = .ok d) : d.id = id := by
  obtain ⟨d', rfl, rfl⟩ := h id record hrecord
  exact (Schema.kept_of_restore_layOut (decode_eq_ok_iff.1 hd)).1

theorem spoils_of_decode (h : s.Labelled) (hrecord : s.raw? id = some record) {e : StoreError}
    (he : s.decode record = .error e) : s.schema.Spoils e := by
  refine ⟨fun hs => ?_, corrupt_of_decode he⟩
  obtain ⟨d, -, rfl⟩ := h id record hrecord
  cases he.symm.trans (decode_layOut hs d)

/-- A sweep is refused under names that clash, and under no others. -/
theorem spoils_of_expired (h : s.Labelled) {deadline : Timestamp} {e : StoreError}
    (he : s.expired deadline s.records.rows = .error e) : s.schema.Spoils e := by
  obtain ⟨row, hrow, hdecode⟩ := fault_of_expired he
  exact h.spoils_of_decode (Assoc.get?_of_mem s.records.nodup hrow) hdecode

/-- **Every answer is a possible one.** -/
theorem possible (h : s.Labelled) (now : Timestamp) (request : Request) :
    request.Possible s.schema (Store.answer now request s).1 := by
  cases request with
  | now => exact trivial
  | load id =>
      change (Request.load id).Possible s.schema (s.load id)
      cases hrecord : s.records.get? id with
      | none =>
          rw [load, hrecord]
          intro d hd
          cases hd
      | some record =>
          rw [load, hrecord]
          dsimp only
          cases hdecode : s.decode record with
          | error e => exact h.spoils_of_decode hrecord hdecode
          | ok d =>
              rintro _ ⟨⟩
              exact h.id_of_decode hrecord hdecode
  | swap id expected d =>
      change (Request.swap id expected d).Possible s.schema (s.swap id expected d).1
      rw [swap]
      split
      · next hid => exact .inr (.inr (.inl ⟨hid, rfl⟩))
      · cases hrecord : s.records.get? id with
        | none => exact .inl rfl
        | some record =>
            dsimp only
            cases hdecode : s.decode record with
            | error e => exact .inr (.inr (.inr (h.spoils_of_decode hrecord hdecode)))
            | ok current =>
                dsimp only
                split
                · exact .inr (.inl ⟨_, rfl⟩)
                · exact trivial
  | insert d =>
      change (Request.insert d).Possible s.schema (s.insert d).1
      rw [insert]
      split
      · exact rfl
      · exact trivial
  | delete id => exact ⟨_, rfl⟩
  | sweep deadline =>
      change (Request.sweep deadline).Possible s.schema (s.sweep deadline).1
      rw [sweep]
      cases he : s.expired deadline s.records.rows with
      | error e => exact h.spoils_of_expired he
      | ok ids => exact trivial

end Store.Labelled

/-! ### Programs under possible answers -/

namespace Program

variable {α β : Type} {possible : (request : Request) → request.Answer → Prop}
  {good : α → Prop} {good' : β → Prop}

/-- A program that comes to a good end, whichever of the possible answers it is given. -/
def Attains (possible : (request : Request) → request.Answer → Prop) (good : α → Prop) :
    Program α → Prop
  | .done a => good a
  | .ask request next => ∀ answer, possible request answer → (next answer).Attains possible good

/-- One program after another: the second has to come to a good end from every end of the first. -/
theorem Attains.bind {p : Program α} {f : α → Program β} (hp : p.Attains possible good)
    (hf : ∀ a, good a → (f a).Attains possible good') : (p.bind f).Attains possible good' := by
  induction p with
  | done a => exact hf a hp
  | ask request next ih => exact fun answer hanswer => ih answer (hp answer hanswer)

end Program

/-! ### The errors of a call -/

/-- The errors that a call may report. -/
inductive Command.MayReport (schema : Schema) (c : Command) : ClientError → Prop
  | notFound {id : DocumentId} (subject : c.subject? = some id) : c.MayReport schema (.notFound id)
  | retriesExhausted {id : DocumentId} {attempts : Nat} (subject : c.subject? = some id) :
      c.MayReport schema (.retriesExhausted id attempts)
  | invalidArgument {id : DocumentId} {fault : BatchFault} (subject : c.subject? = some id) :
      c.MayReport schema (.invalidArgument id fault)
  | overflow {id : DocumentId} (subject : c.subject? = some id) :
      c.MayReport schema (.edit (.versionOverflow id))
  | corrupt {e : StoreError} (spoils : schema.Spoils e) : c.MayReport schema (.store e)

/-- A call that reports no other error, whichever of the possible answers it is given. -/
abbrev Call.Reports {α : Type} (p : Call α) (schema : Schema) (c : Command) : Prop :=
  p.Attains (Request.Possible schema) fun result => ∀ e, result = .error e → c.MayReport schema e

/-- A result may be put in other words at the end. -/
theorem Call.Reports.map {α β : Type} {p : Call α} {schema : Schema} {c : Command} {f : α → β}
    (hp : p.Reports schema c) :
    Call.Reports (p.bind fun result => .done (result.map f)) schema c := by
  refine Program.Attains.bind hp fun result hresult => ?_
  intro e he
  cases result with
  | error cause =>
      cases he
      exact hresult _ rfl
  | ok a => cases he

theorem Document.edit_eq_error {d : Document} {now : Timestamp} {edit : Edit} {e : EditError}
    (h : d.edit now edit = .error e) : e = .versionOverflow d.id := by
  rw [edit_eq_map, nextVersion] at h
  split at h
  · cases h
  · cases h
    rfl

namespace Client

variable {schema : Schema} {c : Command} {id : DocumentId}

theorem load_reports (subject : c.subject? = some id) : (load id).Reports schema c := by
  intro answer hanswer
  match answer with
  | .error e =>
      rintro _ ⟨⟩
      exact .corrupt hanswer
  | .ok none =>
      rintro _ ⟨⟩
      exact .notFound subject
  | .ok (some d) => exact nofun

/-- **The rounds of a write**, by induction on how many are left: what is loaded goes by the name
asked for, so what is swapped in does too. -/
theorem rounds_reports (subject : c.subject? = some id) (edit : Edit) (attempts left : Nat) :
    (rounds id edit attempts left).Reports schema c := by
  induction left with
  | zero =>
      rintro _ ⟨⟩
      exact .retriesExhausted subject
  | succ left ih =>
      intro answer hanswer
      match answer with
      | .error e =>
          rintro _ ⟨⟩
          exact .corrupt hanswer
      | .ok none =>
          rintro _ ⟨⟩
          exact .notFound subject
      | .ok (some current) =>
          have hid : current.id = id := hanswer current rfl
          intro now _
          dsimp only
          cases hedit : current.edit now edit with
          | error e =>
              rintro _ ⟨⟩
              cases Document.edit_eq_error hedit
              rw [hid]
              exact .overflow subject
          | ok next =>
              intro answer hanswer
              match answer with
              | .ok () => exact nofun
              | .error e =>
                  rcases hanswer with rfl | ⟨actual, rfl⟩ | ⟨hne, -⟩ | hspoils
                  · rintro _ ⟨⟩
                    exact .notFound subject
                  · exact ih
                  · exact absurd ((Document.edit_id hedit).trans hid) hne
                  · obtain ⟨hclash, reason, rfl⟩ := hspoils
                    rintro _ ⟨⟩
                    exact .corrupt ⟨hclash, reason, rfl⟩

theorem create_reports (subject : c.subject? = some id) : (create id).Reports schema c := by
  intro now _ answer hanswer
  match answer with
  | .ok () => exact nofun
  | .error e =>
      cases hanswer
      exact load_reports subject

theorem createWith_reports (subject : c.subject? = some id) (settings : Settings)
    (entries : List EntryId) (deleted : Bool) :
    (createWith settings id entries deleted).Reports schema c := by
  intro now _ answer hanswer
  match answer with
  | .ok () => exact nofun
  | .error e =>
      cases hanswer
      exact rounds_reports subject ..

theorem findOrCreate_reports (subject : c.subject? = some id) (q : Query) :
    (findOrCreate id q).Reports schema c := by
  intro answer hanswer
  match answer with
  | .error e =>
      rintro _ ⟨⟩
      exact .corrupt hanswer
  | .ok (some d) => exact nofun
  | .ok none => exact (create_reports subject).map

theorem touch_reports (subject : c.subject? = some id) (settings : Settings)
    (entries : List EntryId) (deleted : Bool) :
    (touch settings id entries deleted).Reports schema c := by
  rw [touch]
  cases batchFault? entries with
  | some fault =>
      rintro _ ⟨⟩
      exact .invalidArgument subject
  | none =>
      refine Program.Attains.bind (rounds_reports subject _ _ _) fun result hresult => ?_
      cases result with
      | ok d =>
          intro e he
          cases he
      | error e =>
          cases e with
          | notFound => exact createWith_reports subject settings entries deleted
          | _ => exact hresult

end Client

/-- **Every call** reports no error but those that it may. -/
theorem Command.program_reports (c : Command) (settings : Settings) (schema : Schema) :
    (c.program settings).Reports schema c := by
  cases c with
  | load id => exact (Client.load_reports rfl).map
  | find id q => exact (Client.load_reports rfl).map.map
  | findOrCreate id q => exact (Client.findOrCreate_reports rfl q).map
  | write id edit => exact (Client.rounds_reports rfl edit _ _).map
  | touch id entries deleted => exact (Client.touch_reports rfl settings entries deleted).map
  | delete id =>
      rintro _ ⟨found, rfl⟩
      exact nofun
  | prune idle =>
      intro now _ answer hanswer
      match answer with
      | .ok count => exact nofun
      | .error e =>
          rintro _ ⟨⟩
          exact .corrupt hanswer

/-! ### Histories with direct writes -/

/-- What can happen to a store and its clients: one of the clients goes on, or somebody asks the
store without being a client. -/
inductive Deed (ι : Type) where
  | client (event : Event ι)
  | direct (now : Timestamp) (request : Request)

namespace Exchange

variable {ι : Type} [DecidableEq ι] {schema : Schema} {m : Exchange ι}

/-- What a deed makes of an exchange. -/
def enact (m : Exchange ι) : Deed ι → Exchange ι
  | .client event => m.step event
  | .direct now request => m.withStore (Store.answer now request m.store).2

/-- What a history of deeds makes of an exchange. -/
def enactAll (m : Exchange ι) (deeds : List (Deed ι)) : Exchange ι :=
  deeds.foldl enact m

/-- The invariant: the records are labelled, and neither the calls in progress nor those that have
ended report an unexpected error. -/
structure Guarded (schema : Schema) (m : Exchange ι) : Prop where
  layout : m.store.schema = schema
  labelled : m.store.Labelled
  calls : ∀ i s, m.sessions i = some s → s.rest.Reports schema s.command
  receipts : ∀ r ∈ m.finished, ∀ e, r.answer = .error e → r.command.MayReport schema e

omit [DecidableEq ι] in
theorem guarded_idle (schema : Schema) : (idle { schema } : Exchange ι).Guarded schema :=
  ⟨rfl, Store.labelled_empty schema, nofun, fun _ hr => absurd hr List.not_mem_nil⟩

omit [DecidableEq ι] in
theorem Guarded.withStore (h : m.Guarded schema) (now : Timestamp) (request : Request) :
    (m.withStore (Store.answer now request m.store).2).Guarded schema := by
  refine ⟨?_, h.labelled.answer now request, h.calls, h.receipts⟩
  change (Store.answer now request m.store).2.schema = schema
  rw [Store.schema_answer, h.layout]

theorem Guarded.resume (h : m.Guarded schema) (i : ι) {c : Command} (known : Knowledge)
    {rest : Call Outcome} (hrest : rest.Reports schema c) :
    (m.resume i c known rest).Guarded schema := by
  cases rest with
  | done answer =>
      refine ⟨h.layout, h.labelled, ?_, ?_⟩
      · exact fun j s busy => h.calls j s ((update_eq_some busy).resolve_left nofun)
      · intro r hr
        rcases List.mem_append.1 hr with hr | hr
        · exact h.receipts r hr
        · rw [List.mem_singleton.1 hr]
          exact hrest
  | ask request next =>
      refine ⟨h.layout, h.labelled, ?_, h.receipts⟩
      intro j s busy
      rcases update_eq_some busy with ⟨-, hs⟩ | hs
      · cases hs
        exact hrest
      · exact h.calls j s hs

theorem guarded_step (h : m.Guarded schema) (e : Event ι) : (m.step e).Guarded schema := by
  cases e with
  | call i settings c =>
      rw [step]
      split
      · exact h
      · exact h.resume i {} (c.program_reports settings schema)
  | ask i now =>
      rw [step]
      split
      · next c known request next busy =>
          -- the store has labels, so its answer is one for which the call is prepared
          have hpossible := h.labelled.possible now request
          rw [h.layout] at hpossible
          exact (h.withStore now request).resume i _ (h.calls i _ busy _ hpossible)
      · exact h

theorem guarded_enactAll (h : m.Guarded schema) (deeds : List (Deed ι)) :
    (m.enactAll deeds).Guarded schema := by
  induction deeds generalizing m with
  | nil => exact h
  | cons deed deeds ih =>
      refine ih ?_
      cases deed with
      | client event => exact guarded_step h event
      | direct now request => exact h.withStore now request

/-- **No call reports an unexpected error.**  Whatever the names of a schema, and whatever clients
and others have asked of a store that was empty at first, in whatever order: a call that has ended
in an error reports that there is no such document, that it has lost every round, that it makes no
sense or that the versions have run out, and all this of the document that it was called for; or
that a record of the collection is corrupt.  Under a schema that gives every document back it does
not even report that.  The commands stand for all calls: a live entry, a tombstone and a batch are
writes, and asking for the changes since a version is finding or creating within the bound of the
settings (`Command.program_upsert` and those after it). -/
theorem reports_expected_errors (schema : Schema) (deeds : List (Deed ι)) :
    let m := (idle { schema }).enactAll deeds
    ∀ r ∈ m.finished, ∀ e, r.answer = .error e →
      ((∃ id, r.command.subject? = some id ∧ (e = .notFound id ∨
          (∃ attempts, e = .retriesExhausted id attempts) ∨
          (∃ fault, e = .invalidArgument id fault) ∨ e = .edit (.versionOverflow id))) ∨
        ∃ reason, e = .store (.corrupt schema.name reason)) ∧
      (schema.RoundTrips → ∀ cause, e ≠ .store cause) := by
  intro m r hr e he
  cases (guarded_enactAll (guarded_idle schema) deeds).receipts r hr e he with
  | notFound subject => exact ⟨.inl ⟨_, subject, .inl rfl⟩, nofun⟩
  | retriesExhausted subject => exact ⟨.inl ⟨_, subject, .inr (.inl ⟨_, rfl⟩)⟩, nofun⟩
  | invalidArgument subject => exact ⟨.inl ⟨_, subject, .inr (.inr (.inl ⟨_, rfl⟩))⟩, nofun⟩
  | overflow subject => exact ⟨.inl ⟨_, subject, .inr (.inr (.inr rfl))⟩, nofun⟩
  | corrupt spoils =>
      obtain ⟨hclash, reason, rfl⟩ := spoils
      exact ⟨.inr ⟨reason, rfl⟩, fun hs => absurd hs hclash⟩

/-- A collection that keeps the names of its documents under `version`: a batch is stored, and from
then on its record cannot be read; somebody tries to swap in a document of another name, and a
client looks for a document that is not there. -/
theorem reports_expected_errors_of_clash :
    let schema : Schema := { idField := "version" }
    let doc : DocumentId := ⟨"doc", by decide⟩
    let other : DocumentId := ⟨"other", by decide⟩
    let a : EntryId := ⟨"a", by decide⟩
    let e : ClientError := .store (.corrupt "version_log" "missing field `version`")
    let r : Receipt := ⟨.write doc (.upsert a), {}, .error e⟩
    let deeds : List (Deed Bool) :=
      [.client (.call true {} (.touch doc [a] false)),
        .client (.call false {} (.find other ⟨0, none⟩)), .client (.ask true ⟨0⟩),
        .client (.ask true ⟨10⟩), .client (.ask true ⟨0⟩),
        .direct ⟨0⟩ (.swap doc 1 ⟨other, 2, 0, ⟨20⟩, []⟩), .client (.ask false ⟨0⟩),
        .client (.call true {} (.write doc (.upsert a))), .client (.ask true ⟨0⟩)]
    let m : Exchange Bool := (idle { schema }).enactAll deeds
    (r ∈ m.finished ∧ r.answer = .error e) ∧
      m.finished.map (fun r => (r.command, r.answer)) =
        [(.touch doc [a] false, .ok (.document (Client.firstDocument doc [a] false ⟨10⟩))),
          (.find other ⟨0, none⟩, .error (.notFound other)), (.write doc (.upsert a), .error e)] ∧
      ((∃ id, r.command.subject? = some id ∧ (e = .notFound id ∨
          (∃ attempts, e = .retriesExhausted id attempts) ∨
          (∃ fault, e = .invalidArgument id fault) ∨ e = .edit (.versionOverflow id))) ∨
        ∃ reason, e = .store (.corrupt schema.name reason)) ∧
      ¬ schema.RoundTrips := by
  intro schema doc other a e r deeds m
  have hr : r ∈ m.finished := by decide +kernel
  obtain ⟨hexpected, hreadable⟩ := reports_expected_errors schema deeds r hr e rfl
  have hended : m.finished.map (fun r => (r.command, r.answer)) =
      [(.touch doc [a] false, .ok (.document (Client.firstDocument doc [a] false ⟨10⟩))),
        (.find other ⟨0, none⟩, .error (.notFound other)), (.write doc (.upsert a), .error e)] := by
    decide +kernel
  exact ⟨⟨hr, rfl⟩, hended, hexpected, fun hs => hreadable hs _ rfl⟩

end Exchange

end Chronicle
