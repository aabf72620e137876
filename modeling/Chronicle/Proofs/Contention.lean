/-
**A call among others.**  One call is followed from its first question to its last, while others do
to the records whatever they like between any two of its questions.  A call that writes does so once
and at its very end: all its questions but the last leave the store as they find it, and so does the
last one if the call fails; if it succeeds, the last one wrote the record of the document that the
call returns, under the name that it was called for, and nothing else.

That a write is a change has to be shown.  The swapped document is one version further than the one
that it replaces, and under no schema do two documents of different versions have one record that
can be read.

Main definitions:

* `Meanwhile` — what others do between two questions, and the time by then;
* `Encounter` — a question as it met the store, with what it left;
* `Program.contested` — a program among others: its result, and its questions in order;
* `Encounter.Commits` — a question that writes one document and nothing else.

Main results:

* `Program.Follows.contested` — a program that keeps to rules changes nothing before its last
  question;
* `Encounter.commits_of_ends`, `Encounter.idle_or_inserts` — what that last question does, if the
  call writes and if it reads;
* `Client.Writes.commits`, `Client.reads_commits` — the calls of the two kinds from end to end;
* `Client.commits_once` — **a write is committed once or not at all**.
-/

import Chronicle.Proofs.Conduct
import Chronicle.Proofs.Edits
import Chronicle.Proofs.Clash

set_option autoImplicit false

namespace Chronicle

/-! ### Questions that meet the work of others -/

/-- What has happened since the last question of a call. -/
structure Meanwhile where
  /-- The time that the clock shows by now. -/
  now : Timestamp
  /-- What others have made of the records. -/
  others : Table Json → Table Json

/-- A question as it met the store. -/
structure Encounter where
  now : Timestamp
  /-- The store, as the others left it. -/
  before : Store
  request : Request

namespace Encounter

/-- The answer to the question. -/
def answer (x : Encounter) : x.request.Answer :=
  (Store.answer x.now x.request x.before).1

/-- The store that the question left. -/
def after (x : Encounter) : Store :=
  (Store.answer x.now x.request x.before).2

/-- Whether the question left everything as it was. -/
def Idle (x : Encounter) : Prop :=
  x.after = x.before

/-- Whether the question wrote the record of a document under a name: there was another record under
that name before, or none, and every other name has the record that it had. -/
structure Commits (x : Encounter) (schema : Schema) (id : DocumentId) (d : Document) : Prop where
  changes : x.after.raw? id ≠ x.before.raw? id
  stores : x.after.raw? id = some (schema.layOut d)
  spares : ∀ id', id' ≠ id → x.after.raw? id' = x.before.raw? id'

end Encounter

/-- A store, and the questions that a call has put to it so far. -/
structure Contest where
  store : Store
  past : List Encounter := []

namespace Contest

/-- The call's next question, as others leave the store to it. -/
def meet (world : Nat → Meanwhile) (c : Contest) (request : Request) : Encounter where
  now := (world c.past.length).now
  before := { c.store with records := (world c.past.length).others c.store.records }
  request := request

/-- How a question is answered among others. -/
def answer (world : Nat → Meanwhile) (request : Request) : StateM Contest request.Answer :=
  fun c =>
    let x := c.meet world request
    (x.answer, ⟨x.after, c.past ++ [x]⟩)

end Contest

/-- A program among others: its result, and what became of its questions. -/
def Program.contested {α : Type} (p : Program α) (world : Nat → Meanwhile) (store : Store) :
    α × Contest :=
  p.run (Contest.answer world) ⟨store, []⟩

/-! ### Rules hold among others -/

namespace Program

variable {α : Type} {may : Knowledge → Request → Prop}
  {ends : (request : Request) → request.Answer → α → Prop}

/-- A program that keeps to rules from any point of a contest: its last question is one that it may
ask and decides its result, and all before it change nothing. -/
theorem Follows.run_contest {p : Program α} {known : Knowledge} (hp : p.Follows may ends known)
    (world : Nat → Meanwhile) (c : Contest) :
    ∃ (quiet : List Encounter) (last : Encounter) (known' : Knowledge),
      (p.run (Contest.answer world) c).2.past = c.past ++ (quiet ++ [last]) ∧
      (∀ x ∈ quiet, x.Idle) ∧ last.before.schema = c.store.schema ∧ may known' last.request ∧
      ends last.request last.answer (p.run (Contest.answer world) c).1 := by
  induction p generalizing known c with
  | done a => exact hp.elim
  | ask request next ih =>
      obtain ⟨hmay, hnext⟩ := hp
      let x := c.meet world request
      -- the program goes on from what this question left
      have hrun : (ask request next).run (Contest.answer world) c =
          (next x.answer).run (Contest.answer world) ⟨x.after, c.past ++ [x]⟩ := rfl
      rw [hrun]
      rcases hnext (fun _ => 0) x.answer with ⟨result, hdone, hend⟩ | ⟨htook, hfollows⟩
      · refine ⟨[], x, known, ?_, nofun, rfl, hmay, ?_⟩
        · rw [hdone]
          rfl
        · rw [hdone]
          exact hend
      · have hidle : x.Idle := Store.answer_of_not_took htook
        obtain ⟨quiet, last, known', hpast, hquiet, hschema, hmay', hend⟩ :=
          ih x.answer hfollows ⟨x.after, c.past ++ [x]⟩
        refine ⟨x :: quiet, last, known', ?_, ?_, ?_, hmay', hend⟩
        · rw [hpast, List.append_assoc]
          rfl
        · exact List.forall_mem_cons.2 ⟨hidle, hquiet⟩
        · rw [hschema, hidle]
          rfl

/-- **A program that keeps to rules** changes nothing before its last question, which is one that it
may ask and decides its result. -/
theorem Follows.contested {p : Program α} {known : Knowledge} (hp : p.Follows may ends known)
    (world : Nat → Meanwhile) (store : Store) :
    ∃ (quiet : List Encounter) (last : Encounter) (known' : Knowledge),
      (p.contested world store).2.past = quiet ++ [last] ∧
      (∀ x ∈ quiet, x.Idle) ∧ last.before.schema = store.schema ∧ may known' last.request ∧
      ends last.request last.answer (p.contested world store).1 :=
  hp.run_contest world ⟨store, []⟩

end Program

/-! ### The last question -/

namespace Command.Ends

variable {c : Command} {request : Request} {answer : request.Answer} {d : Document}

theorem not_took {e : ClientError} (h : c.Ends request answer (.error e)) :
    ¬ request.Took answer := by
  cases h with
  | failed _ unchanged => exact unchanged

/-- A write that succeeds does so by a swap or an insertion of what it returns. -/
theorem wrote {edit : Edit} (wants : c.edit? = some edit)
    (h : c.Ends request answer (.ok (.document d))) :
    request.Took answer ∧ ((∃ id expected, request = .swap id expected d) ∨ request = .insert d) := by
  generalize hresult : (Except.ok (.document d) : Except ClientError Outcome) = result at h
  cases h with
  | failed e unchanged => cases hresult
  | seen reading =>
      rw [reading] at wants
      cases wants
  | swapped =>
      rw [report_of_edit? wants] at hresult
      cases hresult
      exact ⟨rfl, .inl ⟨_, _, rfl⟩⟩
  | inserted =>
      rw [report_of_edit? wants] at hresult
      cases hresult
      exact ⟨rfl, .inr rfl⟩
  | deleted => cases hresult
  | swept => cases hresult

end Command.Ends

/-- A document that goes by the version after that of what it replaces has another record. -/
theorem Store.raw?_ne_of_swap {s : Store} {id : DocumentId} {expected : UInt64} {d : Document}
    (h : (s.swap id expected d).1 = .ok ()) (hversion : d.version.toNat = expected.toNat + 1) :
    s.raw? id ≠ some (s.schema.layOut d) := by
  intro hraw
  obtain ⟨-, current, hload, hcurrent⟩ := swap_eq_ok_iff.1 h
  obtain ⟨record, hrecord, hrestore⟩ := load_eq_some_iff.1 hload
  cases hrecord.symm.trans hraw
  have hsame := (Schema.kept_of_restore_layOut hrestore).2.1
  rw [hcurrent] at hsame
  rw [hsame] at hversion
  omega

namespace Encounter

variable {x : Encounter} {c : Command} {known : Knowledge} {id : DocumentId} {d : Document}

theorem forall_idle {quiet : List Encounter} (hquiet : ∀ x ∈ quiet, x.Idle) (hx : x.Idle) :
    ∀ y ∈ quiet ++ [x], y.Idle := by
  intro y hy
  rcases List.mem_append.1 hy with hy | hy
  · exact hquiet y hy
  · exact List.mem_singleton.1 hy ▸ hx

/-- What is put under a name, and was not there, is a commitment. -/
theorem commits_of_put (hraw : x.before.raw? id ≠ some (x.before.schema.layOut d))
    (hafter : x.after =
      { x.before with records := x.before.records.put id (x.before.schema.layOut d) }) :
    x.Commits x.before.schema id d := by
  have hget : ∀ id', x.after.raw? id' =
      if id = id' then some (x.before.schema.layOut d) else x.before.raw? id' := by
    intro id'
    rw [hafter]
    exact Table.get?_put ..
  have hstores : x.after.raw? id = some (x.before.schema.layOut d) := by
    rw [hget, if_pos rfl]
  refine ⟨?_, hstores, fun id' hid => ?_⟩
  · rw [hstores]
    exact Ne.symm hraw
  · rw [hget, if_neg (Ne.symm hid)]

/-- An insertion that succeeds commits its document, under a name that had none. -/
theorem commits_of_insert (hrequest : x.request = .insert d) (htook : x.request.Took x.answer) :
    x.before.raw? d.id = none ∧ x.Commits x.before.schema d.id d := by
  obtain ⟨now, before, request⟩ := x
  cases hrequest
  obtain ⟨hnone, hafter⟩ := Store.insert_of_ok htook
  exact ⟨hnone, commits_of_put (by simp [hnone]) hafter⟩

theorem commits_of_swap {expected : UInt64} (hrequest : x.request = .swap id expected d)
    (htook : x.request.Took x.answer) (hversion : d.version.toNat = expected.toNat + 1) :
    x.Commits x.before.schema id d := by
  obtain ⟨now, before, request⟩ := x
  cases hrequest
  exact commits_of_put (Store.raw?_ne_of_swap htook hversion) (Store.swap_of_ok htook)

/-- **A write that succeeds** commits with its last question the document that it returns. -/
theorem commits_of_ends {edit : Edit} (subject : c.subject? = some id) (wants : c.edit? = some edit)
    (may : c.MayAsk known x.request) (ends : c.Ends x.request x.answer (.ok (.document d))) :
    x.Commits x.before.schema id d := by
  obtain ⟨htook, ⟨id', expected, hrequest⟩ | hrequest⟩ := ends.wrote wants
  · rw [hrequest] at may
    obtain ⟨hid, loaded, now, edit, -, -, -, hversion, hedit⟩ := may
    cases hid.symm.trans subject
    refine commits_of_swap hrequest htook ?_
    rw [Document.edit_version hedit, hversion]
  · rw [hrequest] at may
    obtain ⟨now, -, hcreates⟩ := may
    cases (Command.subject?_of_creation? hcreates).symm.trans subject
    exact (commits_of_insert hrequest htook).2

/-- A question of a call that neither edits nor removes changes nothing, unless it inserts what the
call is entitled to create. -/
theorem idle_or_inserts (subject : c.subject? = some id) (reading : c.edit? = none)
    (may : c.MayAsk known x.request) :
    x.Idle ∨ ∃ now d, c.creation? now = some d ∧ x.request = .insert d ∧
      x.request.Took x.answer := by
  by_cases htook : x.request.Took x.answer
  · refine .inr ?_
    obtain ⟨now, before, request⟩ := x
    cases request with
    | now => exact htook.elim
    | load id => exact htook.elim
    | swap id' expected d =>
        obtain ⟨-, _, _, _, -, -, hedit, -⟩ := may
        rw [reading] at hedit
        cases hedit
    | insert d =>
        obtain ⟨now, -, hcreates⟩ := may
        exact ⟨now, d, hcreates, rfl, htook⟩
    | delete id' =>
        cases may
        cases subject
    | sweep deadline =>
        obtain ⟨idle, rfl⟩ := may
        cases subject
  · exact .inl (Store.answer_of_not_took htook)

end Encounter

/-! ### Calls that write -/

namespace Client

variable {settings : Settings} {id : DocumentId}

/-- The calls that write to the document of a name. -/
inductive Writes (settings : Settings) (id : DocumentId) : Call Document → Prop
  | upsert (entry : EntryId) : Writes settings id (upsert settings id entry)
  | markDeleted (entry : EntryId) : Writes settings id (markDeleted settings id entry)
  | replace (remove : List EntryId) (append : List Entry) :
      Writes settings id (replace settings id remove append)
  | touch (entries : List EntryId) (deleted : Bool) :
      Writes settings id (touch settings id entries deleted)

/-- Every call that writes is refused before it asks anything, or serves a command that edits its
document. -/
theorem Writes.serves {p : Call Document} (h : Writes settings id p) :
    (∃ e, p = .done (.error e)) ∨ ∃ c edit, c.subject? = some id ∧ c.edit? = some edit ∧
      ∀ known, p.Serves c known := by
  cases h with
  | upsert entry =>
      exact .inr ⟨.write id (.upsert entry), _, rfl, rfl, write_serves rfl rfl settings⟩
  | markDeleted entry =>
      exact .inr ⟨.write id (.markDeleted entry), _, rfl, rfl, write_serves rfl rfl settings⟩
  | replace remove append =>
      exact .inr ⟨.write id (.replace remove append), _, rfl, rfl, write_serves rfl rfl settings⟩
  | touch entries deleted =>
      refine (touch_serves settings id entries deleted).imp_right fun hserves => ?_
      exact ⟨.touch id entries deleted, _, rfl, rfl, hserves⟩

/-- A call that writes commits once, with its last question, or changes nothing. -/
theorem Writes.commits {p : Call Document} (h : Writes settings id p) (world : Nat → Meanwhile)
    (store : Store) :
    (∀ d, (p.contested world store).1 = .ok d →
      ∃ quiet last, (p.contested world store).2.past = quiet ++ [last] ∧ (∀ x ∈ quiet, x.Idle) ∧
        last.Commits store.schema id d) ∧
      ∀ e, (p.contested world store).1 = .error e →
        ∀ x ∈ (p.contested world store).2.past, x.Idle := by
  rcases h.serves with ⟨e, rfl⟩ | ⟨c, edit, subject, wants, hserves⟩
  · exact ⟨nofun, fun _ _ => nofun⟩
  · obtain ⟨quiet, last, known, hpast, hquiet, hschema, hmay, hends⟩ :=
      (hserves {}).contested world store
    refine ⟨fun d hd => ⟨quiet, last, hpast, hquiet, ?_⟩, fun e he => ?_⟩
    · rw [hd, Except.map, Command.report_of_edit? wants] at hends
      rw [← hschema]
      exact Encounter.commits_of_ends subject wants hmay hends
    · rw [he] at hends
      rw [hpast]
      exact Encounter.forall_idle hquiet (Store.answer_of_not_took hends.not_took)

/-! ### Calls that read -/

/-- A call that reads changes nothing, or commits with its last question a document that it is
entitled to create, under a name that had none. -/
theorem reads_commits {α : Type} {c : Command} {p : Program α}
    {ends : (request : Request) → request.Answer → α → Prop} (subject : c.subject? = some id)
    (reading : c.edit? = none) (hp : p.Follows c.MayAsk ends {}) (world : Nat → Meanwhile)
    (store : Store) :
    (∀ x ∈ (p.contested world store).2.past, x.Idle) ∨
      ∃ quiet last now d, (p.contested world store).2.past = quiet ++ [last] ∧
        (∀ x ∈ quiet, x.Idle) ∧ c.creation? now = some d ∧ last.request = .insert d ∧
        last.before.raw? id = none ∧ last.Commits store.schema id d := by
  obtain ⟨quiet, last, known, hpast, hquiet, hschema, hmay, -⟩ := hp.contested world store
  rcases Encounter.idle_or_inserts subject reading hmay with hlast | ⟨now, d, hd, hrequest, htook⟩
  · rw [hpast]
    exact .inl (Encounter.forall_idle hquiet hlast)
  · cases (Command.subject?_of_creation? hd).symm.trans subject
    obtain ⟨hnone, hcommits⟩ := Encounter.commits_of_insert hrequest htook
    exact .inr ⟨quiet, last, now, d, hpast, hquiet, hd, hrequest, hnone, hschema ▸ hcommits⟩

/-- A call that reads and creates nothing changes nothing. -/
theorem reads_idle {α : Type} {c : Command} {p : Program α}
    {ends : (request : Request) → request.Answer → α → Prop} (subject : c.subject? = some id)
    (reading : c.edit? = none) (creates : ∀ now, c.creation? now = none)
    (hp : p.Follows c.MayAsk ends {}) (world : Nat → Meanwhile) (store : Store) :
    ∀ x ∈ (p.contested world store).2.past, x.Idle := by
  rcases reads_commits subject reading hp world store with hidle | ⟨_, _, now, d, -, -, hd, -⟩
  · exact hidle
  · rw [creates] at hd
    cases hd

/-- **A write is committed once or not at all.**  Whatever others do to the records between the
questions of a call, under any schema and from any records: if an upsert, a tombstone, a batch or a
touch returns a document, then its last question, and no other, changed the records, by storing the
record of that document under the name asked for and under no other; if it returns an error, none
of its questions did.  Loading and finding never change them, and finding or creating does so at
most once, by inserting the empty first version under a name that was free at that moment. -/
theorem commits_once (settings : Settings) (store : Store) (world : Nat → Meanwhile)
    (id : DocumentId) :
    (∀ p, Writes settings id p →
      (∀ d, (p.contested world store).1 = .ok d →
        ∃ quiet last, (p.contested world store).2.past = quiet ++ [last] ∧
          (∀ x ∈ quiet, x.Idle) ∧ last.Commits store.schema id d) ∧
        ∀ e, (p.contested world store).1 = .error e →
          ∀ x ∈ (p.contested world store).2.past, x.Idle) ∧
      (∀ x ∈ ((load id).contested world store).2.past, x.Idle) ∧
      (∀ q, ∀ x ∈ ((find id q).contested world store).2.past, x.Idle) ∧
      ∀ q, (∀ x ∈ ((findOrCreate id q).contested world store).2.past, x.Idle) ∨
        ∃ quiet last now, ((findOrCreate id q).contested world store).2.past = quiet ++ [last] ∧
          (∀ x ∈ quiet, x.Idle) ∧ last.request = .insert (blank id now) ∧
          last.before.raw? id = none ∧ last.Commits store.schema id (blank id now) := by
  refine ⟨fun p hp => hp.commits world store, ?_, fun q => ?_, fun q => ?_⟩
  · exact reads_idle (c := .load id) rfl rfl (fun _ => rfl) (load_serves rfl rfl {}) world store
  · exact reads_idle rfl rfl (fun _ => rfl) (find_follows id q {}) world store
  · refine (reads_commits rfl rfl (findOrCreate_follows id q {}) world store).imp_right ?_
    rintro ⟨quiet, last, now, d, hpast, hquiet, hd, hrequest, hnone, hcommits⟩
    cases hd
    exact ⟨quiet, last, now, hpast, hquiet, hrequest, hnone, hcommits⟩

/-- An upsert loses its first round to another writer; its second round is the one that changes the
records, with the sixth question. -/
theorem commits_once_after_conflict :
    let doc : DocumentId := ⟨"doc", by decide⟩
    let a : EntryId := ⟨"a", by decide⟩
    let b : EntryId := ⟨"b", by decide⟩
    let store : Store := (({} : Store).insert ⟨doc, 1, 0, ⟨5⟩, []⟩).2
    let rival : Document := ⟨doc, 2, 0, ⟨7⟩, [⟨b, true, 2, ⟨7⟩⟩]⟩
    let world : Nat → Meanwhile := fun k =>
      ⟨⟨UInt64.ofNat k⟩, if k = 2 then (·.put doc (store.schema.layOut rival)) else (·)⟩
    let d : Document := ⟨doc, 3, 0, ⟨4⟩, [⟨b, true, 2, ⟨7⟩⟩, ⟨a, false, 3, ⟨4⟩⟩]⟩
    (Writes {} doc (upsert {} doc a) ∧ ((upsert {} doc a).contested world store).1 = .ok d) ∧
      ∃ quiet last, ((upsert {} doc a).contested world store).2.past = quiet ++ [last] ∧
        quiet.length = 5 ∧ (∀ x ∈ quiet, x.Idle) ∧ last.Commits store.schema doc d := by
  intro doc a b store rival world d
  have hwrites : Writes {} doc (upsert {} doc a) := .upsert a
  have hresult : ((upsert {} doc a).contested world store).1 = .ok d := by decide +kernel
  have hlength : ((upsert {} doc a).contested world store).2.past.length = 6 := by decide +kernel
  obtain ⟨quiet, last, hpast, hquiet, hlast⟩ :=
    ((commits_once {} store world doc).1 _ hwrites).1 d hresult
  refine ⟨⟨hwrites, hresult⟩, quiet, last, hpast, ?_, hquiet, hlast⟩
  rw [hpast, List.length_append, List.length_singleton] at hlength
  omega

end Client

end Chronicle
