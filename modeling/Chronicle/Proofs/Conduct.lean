/-
**How calls go about their questions.**  Whatever a call is for, and however often it has to try
again, it keeps to a few rules: it loads no document but its own, it swaps in nothing but its own
edit of the document that it loaded last, at the version of that document and at the time it read
last, it inserts nothing but the document it is entitled to create, and once the store has changed
on its behalf it asks nothing more and reports that change.  The rules are all that is ever needed
of the calls; no later proof looks at their programs again.

Main definitions:

* `Command`, `Command.program` — the calls of a client as data, and their programs;
* `Knowledge` — what a call has learnt from the answers so far: the document it loaded last, and the
  last reading of the clock;
* `Command.MayAsk`, `Command.Ends` — **the rules**: what a call may ask, and how it may end;
* `Program.Follows` — a program that keeps to such rules under every answer.

Main results:

* `Program.Follows.bind` — one program after another keeps to the rules if both do;
* `Client.rounds_serves` — the rounds of a write keep to the rules, by induction on the rounds left;
* `Command.program_follows` — **every call keeps to the rules**;
* `Command.program_upsert`, `Command.program_markDeleted`, `Command.program_replace`,
  `Command.program_changesSince` — the commands stand for all calls of a client.
-/

import Chronicle.Client
import Chronicle.Proofs.Records

set_option autoImplicit false

namespace Chronicle

/-! ### Commands -/

/-- What a client can be told to do. -/
inductive Command where
  | load (id : DocumentId)
  | find (id : DocumentId) (query : Query)
  | findOrCreate (id : DocumentId) (query : Query)
  /-- To make an edit of any kind: a live entry, a tombstone or a batch that drops and appends. -/
  | write (id : DocumentId) (edit : Edit)
  | touch (id : DocumentId) (entries : List EntryId) (deleted : Bool)
  | delete (id : DocumentId)
  | prune (idle : Duration)
deriving DecidableEq

/-- What a call that succeeds answers. -/
inductive Outcome where
  | document (document : Document)
  | view (view : View)
  | removed (found : Bool)
  | pruned (count : Nat)
deriving DecidableEq

namespace Command

/-- The call of a command. -/
def program (settings : Settings) : Command → Call Outcome
  | .load id => (Client.load id).bind fun answer => .done (answer.map .document)
  | .find id q => (Client.find id q).bind fun answer => .done (answer.map .view)
  | .findOrCreate id q => (Client.findOrCreate id q).bind fun answer => .done (answer.map .view)
  | .write id edit =>
    (Client.write settings id edit).bind fun answer => .done (answer.map .document)
  | .touch id entries deleted =>
    (Client.touch settings id entries deleted).bind fun answer => .done (answer.map .document)
  | .delete id => (Client.delete id).bind fun answer => .done (answer.map .removed)
  | .prune idle => (Client.prune idle).bind fun answer => .done (answer.map .pruned)

/-! The four calls that have no command of their own are those of a command with fewer choices. -/

theorem program_upsert (settings : Settings) (id : DocumentId) (entry : EntryId) :
    (write id (.upsert entry)).program settings =
      (Client.upsert settings id entry).bind fun answer => .done (answer.map .document) := rfl

theorem program_markDeleted (settings : Settings) (id : DocumentId) (entry : EntryId) :
    (write id (.markDeleted entry)).program settings =
      (Client.markDeleted settings id entry).bind fun answer => .done (answer.map .document) := rfl

theorem program_replace (settings : Settings) (id : DocumentId) (remove : List EntryId)
    (append : List Entry) : (write id (.replace remove append)).program settings =
      (Client.replace settings id remove append).bind fun answer =>
        .done (answer.map .document) := rfl

theorem program_changesSince (settings : Settings) (id : DocumentId) (since : UInt64) :
    (findOrCreate id ⟨since, settings.maxLogLength⟩).program settings =
      (Client.changesSince settings id since).bind fun answer => .done (answer.map .view) := rfl

/-- The document that a command loads and writes; a command that only removes has none. -/
def subject? : Command → Option DocumentId
  | .load id => some id
  | .find id _ => some id
  | .findOrCreate id _ => some id
  | .write id _ => some id
  | .touch id _ _ => some id
  | .delete _ => none
  | .prune _ => none

/-- The edit that a command makes to a document that is there. -/
def edit? : Command → Option Edit
  | .write _ edit => some edit
  | .touch _ entries deleted => some (Client.batchEdit entries deleted)
  | _ => none

/-- The document that a command creates at a reading of the clock if there is none. -/
def creation? (now : Timestamp) : Command → Option Document
  | .findOrCreate id _ => some (Client.blank id now)
  | .touch id entries deleted =>
    match Client.batchFault? entries with
    | none => some (Client.firstDocument id entries deleted now)
    | some _ => none
  | _ => none

/-- What a command answers of the document that it found or left. -/
def report (d : Document) : Command → Outcome
  | .find _ q => .view (d.view q)
  | .findOrCreate _ q => .view (d.view q)
  | _ => .document d

theorem report_of_edit? {c : Command} {edit : Edit} (h : c.edit? = some edit) (d : Document) :
    c.report d = .document d := by
  cases c <;> simp_all [edit?, report]

theorem subject?_of_creation? {c : Command} {now : Timestamp} {d : Document}
    (h : c.creation? now = some d) : c.subject? = some d.id := by
  cases c with
  | findOrCreate id q =>
      cases h
      rfl
  | touch id entries deleted =>
      rw [creation?] at h
      split at h
      · cases h
        rfl
      · cases h
  | _ => cases h

end Command

/-! ### What a call has learnt -/

/-- What a call has learnt so far. -/
structure Knowledge where
  /-- The document that it loaded last, if that load found one. -/
  loaded : Option Document := none
  /-- How often documents of this name had been removed by then. -/
  era : Nat := 0
  /-- The last reading of the clock. -/
  clock : Option Timestamp := none
deriving DecidableEq

/-- What a call has learnt after one more answer. -/
def Knowledge.learn (known : Knowledge) (removals : DocumentId → Nat) :
    (request : Request) → request.Answer → Knowledge
  | .now, now => { known with clock := some now }
  | .load id, .ok loaded => { known with loaded, era := removals id }
  | .load _, .error _ => { known with loaded := none }
  | .swap .., _ => known
  | .insert _, _ => known
  | .delete _, _ => known
  | .sweep _, _ => known

/-! ### The rules -/

/-- What a call may ask, given what it has learnt. -/
def Command.MayAsk (c : Command) (known : Knowledge) : Request → Prop
  | .now => True
  | .load id => c.subject? = some id
  | .swap id expected next => c.subject? = some id ∧ ∃ loaded now edit,
      known.loaded = some loaded ∧ known.clock = some now ∧ c.edit? = some edit ∧
        loaded.version = expected ∧ loaded.edit now edit = .ok next
  | .insert d => ∃ now, known.clock = some now ∧ c.creation? now = some d
  | .delete id => c = .delete id
  | .sweep _ => ∃ idle, c = .prune idle

/-- How a call may end, given its last question and the answer. -/
inductive Command.Ends (c : Command) :
    (request : Request) → request.Answer → Except ClientError Outcome → Prop
  /-- It fails, and has changed nothing. -/
  | failed {request : Request} {answer : request.Answer} (e : ClientError)
      (unchanged : ¬ request.Took answer) : c.Ends request answer (.error e)
  /-- It wants to see a document, and reports the one it finds. -/
  | seen {id : DocumentId} {d : Document} (reading : c.edit? = none) :
      c.Ends (.load id) (.ok (some d)) (.ok (c.report d))
  | swapped {id : DocumentId} {expected : UInt64} {d : Document} :
      c.Ends (.swap id expected d) (.ok ()) (.ok (c.report d))
  | inserted {d : Document} : c.Ends (.insert d) (.ok ()) (.ok (c.report d))
  | deleted {id : DocumentId} {found : Bool} :
      c.Ends (.delete id) (.ok found) (.ok (.removed found))
  | swept {deadline : Timestamp} {count : Nat} :
      c.Ends (.sweep deadline) (.ok count) (.ok (.pruned count))

namespace Program

variable {α β : Type}

/-- A program that asks only what it may, given what it has learnt, and ends only as it may; as long
as it does not end, nothing has changed on its behalf. -/
def Follows (may : Knowledge → Request → Prop)
    (ends : (request : Request) → request.Answer → α → Prop) : Knowledge → Program α → Prop
  | _, .done _ => False
  | known, .ask request next => may known request ∧
      ∀ (removals : DocumentId → Nat) (answer : request.Answer),
        (∃ result, next answer = .done result ∧ ends request answer result) ∨
          (¬ request.Took answer ∧
            Follows may ends (known.learn removals request answer) (next answer))

variable {may : Knowledge → Request → Prop}
  {ends : (request : Request) → request.Answer → α → Prop}
  {ends' : (request : Request) → request.Answer → β → Prop}

/-- One program after another: where the first ends, the second ends at once in a way that fits the
same last answer, or nothing has changed yet and it keeps to the rules by itself. -/
theorem Follows.bind {p : Program α} {f : α → Program β} {known : Knowledge}
    (hp : p.Follows may ends known)
    (hf : ∀ (request : Request) (answer : request.Answer) (a : α), ends request answer a →
      (∃ b, f a = .done b ∧ ends' request answer b) ∨
        (¬ request.Took answer ∧ ∀ known, (f a).Follows may ends' known)) :
    (p.bind f).Follows may ends' known := by
  induction p generalizing known with
  | done a => exact hp.elim
  | ask request next ih =>
      refine ⟨hp.1, fun removals answer => ?_⟩
      dsimp only
      rcases hp.2 removals answer with ⟨a, ha, hend⟩ | ⟨htook, hnext⟩
      · rw [ha]
        rcases hf request answer a hend with hdone | ⟨htook, hgo⟩
        · exact .inl hdone
        · exact .inr ⟨htook, hgo _⟩
      · exact .inr ⟨htook, ih answer hnext⟩

/-- A result may be put in other words at the end. -/
theorem Follows.map {p : Program α} {f : α → β} {known : Knowledge} (hp : p.Follows may ends known)
    (hf : ∀ (request : Request) (answer : request.Answer) (a : α), ends request answer a →
      ends' request answer (f a)) :
    (p.bind fun a => .done (f a)).Follows may ends' known :=
  hp.bind fun request answer a h => .inl ⟨f a, rfl, hf request answer a h⟩

end Program

/-! ### The calls keep to the rules -/

/-- A call for a document, made for the sake of a command: it may end as the command may that
reports the document. -/
abbrev Call.Serves (p : Call Document) (c : Command) (known : Knowledge) : Prop :=
  p.Follows c.MayAsk (fun request answer result => c.Ends request answer (result.map (c.report ·)))
    known

namespace Client

variable {c : Command} {id : DocumentId}

theorem load_serves (hid : c.subject? = some id) (hread : c.edit? = none) (known : Knowledge) :
    (load id).Serves c known := by
  refine ⟨hid, fun removals answer => .inl ?_⟩
  match answer with
  | .error e => exact ⟨_, rfl, .failed _ not_false⟩
  | .ok none => exact ⟨_, rfl, .failed _ not_false⟩
  | .ok (some d) => exact ⟨_, rfl, .seen hread⟩

/-- One round of a write loads, reads the clock and swaps.  If it meets a conflict it has changed
nothing, and the rounds that are left may begin. -/
theorem round_serves {edit : Edit} (hid : c.subject? = some id) (hedit : c.edit? = some edit)
    {attempts left : Nat}
    (hleft : (∃ e, rounds id edit attempts left = .done (.error e)) ∨
      ∀ known, (rounds id edit attempts left).Serves c known) (known : Knowledge) :
    (rounds id edit attempts (left + 1)).Serves c known := by
  refine ⟨hid, fun removals answer => ?_⟩
  match answer with
  | .error e => exact .inl ⟨_, rfl, .failed _ not_false⟩
  | .ok none => exact .inl ⟨_, rfl, .failed _ not_false⟩
  | .ok (some current) =>
      refine .inr ⟨not_false, trivial, fun removals now => ?_⟩
      dsimp only
      cases hnext : current.edit now edit with
      | error e => exact .inl ⟨_, rfl, .failed _ not_false⟩
      | ok next =>
          refine .inr ⟨not_false, ⟨hid, current, now, edit, rfl, rfl, hedit, rfl, hnext⟩, ?_⟩
          intro removals answer
          match answer with
          | .ok () => exact .inl ⟨_, rfl, .swapped⟩
          | .error e =>
              have hrefused : ¬ (Request.swap id current.version next).Took (.error e) := nofun
              cases e with
              | versionConflict =>
                  -- the only refusal after which there is another round, if one is left
                  rcases hleft with ⟨e, he⟩ | hleft
                  · exact .inl ⟨_, he, .failed _ hrefused⟩
                  · exact .inr ⟨hrefused, hleft _⟩
              | _ => exact .inl ⟨_, rfl, .failed _ hrefused⟩

/-- However many rounds a write has, they keep to the rules. -/
theorem rounds_serves {edit : Edit} (hid : c.subject? = some id) (hedit : c.edit? = some edit)
    (attempts left : Nat) (known : Knowledge) :
    (rounds id edit attempts (left + 1)).Serves c known := by
  induction left generalizing known with
  | zero => exact round_serves hid hedit (.inl ⟨_, rfl⟩) known
  | succ left ih => exact round_serves hid hedit (.inr ih) known

theorem write_serves {edit : Edit} (hid : c.subject? = some id) (hedit : c.edit? = some edit)
    (settings : Settings) (known : Knowledge) : (write settings id edit).Serves c known := by
  -- there is at least one round
  obtain ⟨left, hleft⟩ : ∃ left, settings.attempts = left + 1 := by
    refine ⟨settings.attempts - 1, ?_⟩
    have : UInt32.size = 4294967296 := rfl
    simp only [Settings.attempts]
    omega
  rw [write, hleft]
  exact rounds_serves hid hedit (left + 1) left known

/-- Creating a document is reading the clock and inserting; whoever finds the name taken goes on
with what is there. -/
theorem insert_serves {create : Timestamp → Document}
    {next : Timestamp → Except StoreError Unit → Call Document} {rest : Call Document}
    (hcreate : ∀ now, c.creation? now = some (create now)) (hrest : ∀ known, rest.Serves c known)
    (hok : ∀ now, next now (.ok ()) = .done (.ok (create now)))
    (herror : ∀ now e, next now (.error e) = .done (.error (.store e)) ∨ next now (.error e) = rest)
    (known : Knowledge) :
    Call.Serves (.ask .now fun now => .ask (.insert (create now)) (next now)) c known := by
  refine ⟨trivial, fun removals now => .inr ⟨not_false, ⟨now, rfl, hcreate now⟩, ?_⟩⟩
  intro removals answer
  match answer with
  | .ok () => exact .inl ⟨_, hok now, .inserted⟩
  | .error e =>
      have hrefused : ¬ (Request.insert (create now)).Took (.error e) := nofun
      rcases herror now e with hdone | hgo
      · exact .inl ⟨_, hdone, .failed _ hrefused⟩
      · refine .inr ⟨hrefused, ?_⟩
        rw [hgo]
        exact hrest _

theorem createWith_serves {settings : Settings} {entries : List EntryId} {deleted : Bool}
    (hfault : batchFault? entries = none) (known : Knowledge) :
    (createWith settings id entries deleted).Serves (.touch id entries deleted) known := by
  refine insert_serves (fun now => ?_) (write_serves rfl rfl settings) (fun _ => rfl) ?_ known
  · rw [Command.creation?, hfault]
  · intro now e
    cases e with
    | alreadyExists => exact .inr rfl
    | _ => exact .inl rfl

theorem create_serves {q : Query} (known : Knowledge) :
    (create id).Serves (.findOrCreate id q) known := by
  refine insert_serves (fun now => rfl) (load_serves rfl rfl) (fun _ => rfl) ?_ known
  intro now e
  cases e with
  | alreadyExists => exact .inr rfl
  | _ => exact .inl rfl

/-- A call for a view looks at the one document, and reports what the query shows of it. -/
theorem find_follows (id : DocumentId) (q : Query) (known : Knowledge) :
    (find id q).Follows (Command.find id q).MayAsk (fun request answer result =>
      (Command.find id q).Ends request answer (result.map .view)) known :=
  (load_serves rfl rfl known).map fun _ _ result h => by cases result <;> exact h

theorem findOrCreate_follows (id : DocumentId) (q : Query) (known : Knowledge) :
    (findOrCreate id q).Follows (Command.findOrCreate id q).MayAsk (fun request answer result =>
      (Command.findOrCreate id q).Ends request answer (result.map .view)) known := by
  refine ⟨rfl, fun removals answer => ?_⟩
  match answer with
  | .error e => exact .inl ⟨_, rfl, .failed _ not_false⟩
  | .ok (some d) => exact .inl ⟨_, rfl, .seen rfl⟩
  | .ok none =>
      refine .inr ⟨not_false, ?_⟩
      exact (create_serves _).map fun _ _ result h => by cases result <;> exact h

/-- A batch that is no batch is refused before anything is asked; any other is written, or its
document is created with it. -/
theorem touch_serves (settings : Settings) (id : DocumentId) (entries : List EntryId)
    (deleted : Bool) :
    (∃ e, touch settings id entries deleted = .done (.error e)) ∨
      ∀ known, (touch settings id entries deleted).Serves (.touch id entries deleted) known := by
  cases hfault : batchFault? entries with
  | some fault => exact .inl ⟨_, by rw [touch, hfault]⟩
  | none =>
      refine .inr fun known => ?_
      have hwrite : (write settings id (batchEdit entries deleted)).Serves
          (.touch id entries deleted) known := write_serves rfl rfl settings known
      rw [touch, hfault]
      refine hwrite.bind fun request answer result hend => ?_
      match result with
      | .ok d => exact .inl ⟨_, rfl, hend⟩
      | .error e =>
          -- what failed has changed nothing, so the creation may begin
          have hrefused : ¬ request.Took answer := by
            cases hend with
            | failed _ hrefused => exact hrefused
          cases e with
          | notFound => exact .inr ⟨hrefused, createWith_serves hfault⟩
          | _ => exact .inl ⟨_, rfl, hend⟩

end Client

namespace Command

/-- **Every call keeps to the rules**, unless it is refused before it asks anything. -/
theorem program_follows (c : Command) (settings : Settings) :
    (∃ e, c.program settings = .done (.error e)) ∨
      ∀ known, (c.program settings).Follows c.MayAsk c.Ends known := by
  cases c with
  | load id =>
      refine .inr fun known => ?_
      exact (Client.load_serves rfl rfl known).map fun _ _ _ h => h
  | find id q => exact .inr fun known => (Client.find_follows id q known).map fun _ _ _ h => h
  | findOrCreate id q =>
      exact .inr fun known => (Client.findOrCreate_follows id q known).map fun _ _ _ h => h
  | write id edit =>
      refine .inr fun known => ?_
      exact (Client.write_serves rfl rfl settings known).map fun _ _ _ h => h
  | touch id entries deleted =>
      rcases Client.touch_serves settings id entries deleted with ⟨e, he⟩ | hserves
      · exact .inl ⟨e, by rw [program, he]; rfl⟩
      · exact .inr fun known => (hserves known).map fun _ _ _ h => h
  | delete id =>
      refine .inr fun known => ⟨rfl, fun removals answer => .inl ?_⟩
      match answer with
      | .ok found => exact ⟨_, rfl, .deleted⟩
      | .error e => exact ⟨_, rfl, .failed _ nofun⟩
  | prune idle =>
      refine .inr fun known => ⟨trivial, fun removals now => .inr ⟨not_false, ⟨idle, rfl⟩, ?_⟩⟩
      intro removals answer
      match answer with
      | .ok count => exact .inl ⟨_, rfl, .swept⟩
      | .error e => exact .inl ⟨_, rfl, .failed _ nofun⟩

end Command

end Chronicle
