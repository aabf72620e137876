/-
**Many clients, one store.**  Clients call whenever they like, and their questions reach the store
in any order, one at a time; the clock may show anything at any time.  An exchange is the store, the
calls in progress and the calls that have ended, in the order in which they ended.

What happens to one document in one step is little: nothing, or one edit that a call makes of the
document it loaded, or one creation, or one removal.  Within the life of a document its version
tells its states apart, and that is why a swap under the loaded version replaces the loaded
document, as long as the document has not been removed in the meantime.

Main definitions:

* `Exchange`, `Session`, `Receipt` — the state, a call in progress, a call that has ended;
* `Event`, `Exchange.step`, `Exchange.run` — what can happen, and histories of it;
* `Exchange.Moves`, `Exchange.Change` — **all that one step can do**, to the exchange and to one
  document;
* `Knowledge.InStep`, `Exchange.Sound` — the invariant.

Main results:

* `Exchange.step_moves`, `Exchange.change_of_moves` — a step does nothing else;
* `Knowledge.InStep.eq_of_version` — in the same life the version tells the document;
* `Knowledge.InStep.change` — what a call remembers stays in step with the store;
* `Exchange.sound_run` — the invariant holds throughout every history.
-/

import Chronicle.Proofs.Conduct
import Chronicle.Proofs.Edits
import Mathlib.Logic.Function.Basic

set_option autoImplicit false

namespace Chronicle

/-! ### Calls in progress and calls that have ended -/

/-- A call in progress: what it was told, what it has learnt, and what it still has to ask. -/
structure Session where
  command : Command
  known : Knowledge
  rest : Call Outcome

/-- A call that has ended, with what it had learnt by then. -/
structure Receipt where
  command : Command
  known : Knowledge
  answer : Except ClientError Outcome
deriving DecidableEq

/-- A store and the clients of it. -/
structure Exchange (ι : Type) where
  store : Store
  /-- What each client is in the middle of. -/
  sessions : ι → Option Session
  /-- How often the document of each name has been removed. -/
  removals : DocumentId → Nat
  /-- The calls that have ended, the latest last. -/
  finished : List Receipt

/-- What can happen next. -/
inductive Event (ι : Type) where
  /-- A client that is not in the middle of anything makes a call. -/
  | call (client : ι) (settings : Settings) (command : Command)
  /-- A client asks its next question, while the clock shows `now`. -/
  | ask (client : ι) (now : Timestamp)

namespace Exchange

variable {ι : Type}

/-- A store that no client has called yet. -/
def idle (store : Store) : Exchange ι :=
  ⟨store, fun _ => none, fun _ => 0, []⟩

/-- The store becomes another one; documents that it no longer has count as removed. -/
def withStore (m : Exchange ι) (store : Store) : Exchange ι :=
  { m with
    store
    removals := fun id =>
      if m.store.contains id && !store.contains id then m.removals id + 1 else m.removals id }

variable [DecidableEq ι]

/-- A client goes on with a call, or is done with it. -/
def resume (m : Exchange ι) (client : ι) (command : Command) (known : Knowledge) :
    Call Outcome → Exchange ι
  | .done answer =>
    { m with
      sessions := Function.update m.sessions client none
      finished := m.finished ++ [⟨command, known, answer⟩] }
  | .ask request next =>
    { m with
      sessions := Function.update m.sessions client (some ⟨command, known, .ask request next⟩) }

/-- What an event makes of an exchange. -/
def step (m : Exchange ι) : Event ι → Exchange ι
  | .call client settings command =>
    match m.sessions client with
    | some _ => m
    | none => m.resume client command {} (command.program settings)
  | .ask client now =>
    match m.sessions client with
    | some ⟨command, known, .ask request next⟩ =>
      let reply := Store.answer now request m.store
      (m.withStore reply.2).resume client command (known.learn m.removals request reply.1)
        (next reply.1)
    | _ => m

/-- What a history makes of an exchange. -/
def run (m : Exchange ι) (events : List (Event ι)) : Exchange ι :=
  events.foldl step m

/-- **Induction on a history**: what is kept by each of its events is kept by all of them. -/
theorem run_rec {P : Exchange ι → Prop} {m : Exchange ι} {events : List (Event ι)} (start : P m)
    (step : ∀ m, ∀ e ∈ events, P m → P (m.step e)) : P (m.run events) := by
  induction events generalizing m with
  | nil => exact start
  | cons e events ih =>
      refine ih (step m e (List.mem_cons_self ..) start) ?_
      exact fun m e he => step m e (List.mem_cons_of_mem _ he)

end Exchange

/-! ### All that one step can do -/

namespace Exchange

variable {ι : Type} [DecidableEq ι]

/-- Every call in progress keeps to the rules. -/
def Orderly (m : Exchange ι) : Prop :=
  ∀ i s, m.sessions i = some s → s.rest.Follows s.command.MayAsk s.command.Ends s.known

/-- What one step can make of an exchange whose calls keep to the rules. -/
inductive Moves (m : Exchange ι) : Exchange ι → Prop
  /-- Nothing happens. -/
  | stays : m.Moves m
  /-- A call begins. -/
  | begins (i : ι) (c : Command) (rest : Call Outcome)
      (follows : rest.Follows c.MayAsk c.Ends {}) :
      m.Moves { m with sessions := Function.update m.sessions i (some ⟨c, {}, rest⟩) }
  /-- A call is refused before it asks anything. -/
  | refuses (i : ι) (c : Command) (e : ClientError) :
      m.Moves { m with
        sessions := Function.update m.sessions i none
        finished := m.finished ++ [⟨c, {}, .error e⟩] }
  /-- A call learns something and goes on; the store stays. -/
  | learns (i : ι) (s : Session) (request : Request) (now : Timestamp) (rest : Call Outcome)
      (busy : m.sessions i = some s) (may : s.command.MayAsk s.known request)
      (follows : rest.Follows s.command.MayAsk s.command.Ends
        (s.known.learn m.removals request (Store.answer now request m.store).1)) :
      m.Moves { m with sessions := Function.update m.sessions i (some ⟨s.command,
        s.known.learn m.removals request (Store.answer now request m.store).1, rest⟩) }
  /-- A call ends with the answer to its last question. -/
  | ends (i : ι) (s : Session) (request : Request) (now : Timestamp)
      (result : Except ClientError Outcome) (busy : m.sessions i = some s)
      (may : s.command.MayAsk s.known request)
      (fits : s.command.Ends request (Store.answer now request m.store).1 result) :
      m.Moves { m.withStore (Store.answer now request m.store).2 with
        sessions := Function.update m.sessions i none
        finished := m.finished ++ [⟨s.command,
          s.known.learn m.removals request (Store.answer now request m.store).1, result⟩] }

omit [DecidableEq ι] in
@[simp]
theorem withStore_self (m : Exchange ι) : m.withStore m.store = m := by
  simp [withStore]

/-- **A step is one of these moves.** -/
theorem step_moves {m : Exchange ι} (h : m.Orderly) (e : Event ι) : m.Moves (m.step e) := by
  cases e with
  | call i settings c =>
      rw [step]
      split
      · exact .stays
      · rcases c.program_follows settings with ⟨e, he⟩ | hfollows
        · rw [he]
          exact .refuses i c e
        · specialize hfollows {}
          cases hp : c.program settings with
          | done answer =>
              rw [hp] at hfollows
              exact hfollows.elim
          | ask request next =>
              rw [hp] at hfollows
              exact .begins i c _ hfollows
  | ask i now =>
      rw [step]
      split
      · next c known request next hbusy =>
          obtain ⟨hmay, hnext⟩ := h i _ hbusy
          rcases hnext m.removals (Store.answer now request m.store).1 with
            ⟨result, hdone, hend⟩ | ⟨htook, hfollows⟩
          · dsimp only
            rw [hdone]
            exact .ends i _ request now result hbusy hmay hend
          · dsimp only
            rw [Store.answer_of_not_took htook, withStore_self]
            cases hp : next (Store.answer now request m.store).1 with
            | done answer =>
                rw [hp] at hfollows
                exact hfollows.elim
            | ask request' next' =>
                rw [hp] at hfollows
                exact .learns i _ request now _ hbusy hmay hfollows
      · exact .stays

end Exchange

/-! ### What happens to one document -/

namespace Receipt

/-- Whether the call succeeded. -/
def succeeded (r : Receipt) : Bool :=
  match r.answer with
  | .ok _ => true
  | .error _ => false

/-- Whether the call was about a document and succeeded. -/
def concerns (r : Receipt) (id : DocumentId) : Bool :=
  decide (r.command.subject? = some id) && r.succeeded

/-- Whether the call wrote to a document. -/
def wrote (r : Receipt) (id : DocumentId) : Bool :=
  r.concerns id && r.command.edit?.isSome

variable {r : Receipt} {id : DocumentId}

theorem concerns_iff : r.concerns id = true ↔
    r.command.subject? = some id ∧ ∃ outcome, r.answer = .ok outcome := by
  rw [concerns, succeeded, Bool.and_eq_true, decide_eq_true_iff]
  cases r.answer <;> simp

theorem wrote_of_edit? {edit : Edit} {outcome : Outcome} (subject : r.command.subject? = some id)
    (wants : r.command.edit? = some edit) (answers : r.answer = .ok outcome) :
    r.wrote id = true := by
  rw [wrote, Bool.and_eq_true, concerns_iff, wants]
  exact ⟨⟨subject, outcome, answers⟩, rfl⟩

theorem edit?_of_wrote (h : r.wrote id = true) : ∃ edit, r.command.edit? = some edit := by
  rw [wrote, Bool.and_eq_true] at h
  exact Option.isSome_iff_exists.1 h.2

end Receipt

/-- A receipt that tells of no change to a document: the call was about another one, or failed, or
only looked, and then it reports the document that was there. -/
def Receipt.Looks (r : Receipt) (id : DocumentId) (stored : Except StoreError (Option Document)) :
    Prop :=
  r.command.subject? = some id → ∀ outcome, r.answer = .ok outcome →
    r.command.edit? = none ∧ ∃ d, stored = .ok (some d) ∧ outcome = r.command.report d

namespace Exchange

variable {ι : Type}

/-- What one step can do to the document of a name. -/
inductive Change (id : DocumentId) (m m' : Exchange ι) : Prop
  /-- It stays, or stays away. -/
  | kept (load : m'.store.load id = m.store.load id) (removals : m'.removals id = m.removals id)
      (finished : m'.finished = m.finished ∨
        ∃ r : Receipt, m'.finished = m.finished ++ [r] ∧ r.Looks id (m.store.load id))
  /-- A call swaps in its edit of what it loaded; the version is that of what it loaded. -/
  | edited {i : ι} {s : Session} {loaded current next : Document} {now : Timestamp} {edit : Edit}
      (busy : m.sessions i = some s) (subject : s.command.subject? = some id)
      (wants : s.command.edit? = some edit) (remembers : s.known.loaded = some loaded)
      (reads : s.known.clock = some now) (computes : loaded.edit now edit = .ok next)
      (version : current.version = loaded.version) (before : m.store.load id = .ok (some current))
      (after : m'.store.load id = .ok (some next)) (removals : m'.removals id = m.removals id)
      (finished : m'.finished =
        m.finished ++ [⟨s.command, s.known, .ok (s.command.report next)⟩])
  /-- A call inserts the document that it is entitled to create. -/
  | created {i : ι} {s : Session} {d : Document} {now : Timestamp}
      (busy : m.sessions i = some s) (subject : s.command.subject? = some id)
      (reads : s.known.clock = some now) (creates : s.command.creation? now = some d)
      (before : m.store.load id = .ok none) (after : m'.store.load id = .ok (some d))
      (removals : m'.removals id = m.removals id)
      (finished : m'.finished = m.finished ++ [⟨s.command, s.known, .ok (s.command.report d)⟩])
  /-- A call that removes takes it away. -/
  | removed {i : ι} {s : Session} (busy : m.sessions i = some s)
      (subject : s.command.subject? = none) (before : m.store.load id ≠ .ok none)
      (after : m'.store.load id = .ok none) (removals : m'.removals id = m.removals id + 1)
      (finished : ∃ r : Receipt, m'.finished = m.finished ++ [r] ∧ r.command.subject? = none)

theorem removals_withStore_of_eq {m : Exchange ι} {store : Store} {id : DocumentId}
    (h : store.load id = m.store.load id) : (m.withStore store).removals id = m.removals id := by
  have hc : store.contains id = m.store.contains id := by
    rw [Bool.eq_iff_iff, ← not_iff_not, Bool.not_eq_true, Bool.not_eq_true,
      Store.contains_eq_false_iff, Store.contains_eq_false_iff, h]
  simp [withStore, hc]

theorem removals_withStore_of_some {m : Exchange ι} {store : Store} {id : DocumentId}
    {d : Document} (h : store.load id = .ok (some d)) :
    (m.withStore store).removals id = m.removals id := by
  have hc : store.contains id = true := by
    rw [← Bool.not_eq_false, Store.contains_eq_false_iff, h]
    nofun
  simp [withStore, hc]

theorem removals_withStore_of_none {m : Exchange ι} {store : Store} {id : DocumentId}
    (hbefore : m.store.load id ≠ .ok none) (h : store.load id = .ok none) :
    (m.withStore store).removals id = m.removals id + 1 := by
  have hc : m.store.contains id = true := by
    rwa [← Bool.not_eq_false, Store.contains_eq_false_iff]
  have hc' : store.contains id = false := Store.contains_eq_false_iff.2 h
  simp [withStore, hc, hc']

/-- A call that removes leaves a document as it was, or takes it away. -/
theorem change_of_removal {m m' : Exchange ι} {id : DocumentId} {i : ι} {s : Session}
    (busy : m.sessions i = some s) (subject : s.command.subject? = none)
    (hremovals : m'.removals = (m.withStore m'.store).removals)
    (hfinished : ∃ r : Receipt, m'.finished = m.finished ++ [r] ∧ r.command = s.command)
    (h : m'.store.load id = m.store.load id ∨ m'.store.load id = .ok none) : Change id m m' := by
  obtain ⟨r, hr, hcommand⟩ := hfinished
  by_cases heq : m'.store.load id = m.store.load id
  · refine .kept heq ?_ (.inr ⟨r, hr, fun hid => ?_⟩)
    · rw [hremovals, removals_withStore_of_eq heq]
    · rw [hcommand, subject] at hid
      cases hid
  · have hafter := h.resolve_left heq
    have hbefore : m.store.load id ≠ .ok none := fun hnone => heq (hafter.trans hnone.symm)
    refine .removed busy subject hbefore hafter ?_ ⟨r, hr, hcommand ▸ subject⟩
    rw [hremovals, removals_withStore_of_none hbefore hafter]

variable [DecidableEq ι]

/-- **A move changes a document in one of these ways.** -/
theorem change_of_moves {m m' : Exchange ι} (hs : m.store.schema.RoundTrips) (h : m.Moves m')
    (id : DocumentId) : Change id m m' := by
  cases h with
  | stays => exact .kept rfl rfl (.inl rfl)
  | begins i c rest follows => exact .kept rfl rfl (.inl rfl)
  | refuses i c e => exact .kept rfl rfl (.inr ⟨_, rfl, fun _ _ h => nomatch h⟩)
  | learns i s request now rest busy may follows => exact .kept rfl rfl (.inl rfl)
  | ends i s request now result busy may fits =>
      generalize hreply : (Store.answer now request m.store).1 = answer at fits
      cases fits with
      | failed e unchanged =>
          -- a call that fails at its last question has had no effect, in this question or before
          rw [Store.answer_of_not_took (hreply.symm ▸ unchanged), withStore_self]
          exact .kept rfl rfl (.inr ⟨_, rfl, fun _ _ h => nomatch h⟩)
      | @seen id' d reading =>
          change m.store.load id' = .ok (some d) at hreply
          refine .kept rfl (removals_withStore_of_eq rfl) (.inr ⟨_, rfl, fun hid outcome ho => ?_⟩)
          cases Option.some.inj (may.symm.trans hid)
          cases ho
          exact ⟨reading, d, hreply, rfl⟩
      | @swapped id' expected next =>
          obtain ⟨hid', loaded, now', edit, hloaded, hclock, hedit, hexpected, hnext⟩ := may
          obtain ⟨-, current, hcurrent, hversion⟩ := Store.swap_eq_ok_iff.1 hreply
          have hafter := Store.load_swap hs hreply
          -- the swap is of the document in question or of another one
          by_cases hid : id = id'
          · subst hid
            have hload := (hafter id).trans (if_pos rfl)
            exact .edited busy hid' hedit hloaded hclock hnext (hversion.trans hexpected.symm)
              hcurrent hload (removals_withStore_of_some hload) rfl
          · have hload := (hafter id).trans (if_neg hid)
            refine .kept hload (removals_withStore_of_eq hload) (.inr ⟨_, rfl, fun hid₂ => ?_⟩)
            exact absurd (Option.some.inj (hid₂.symm.trans hid')) hid
      | @inserted d =>
          obtain ⟨now', hclock, hcreates⟩ := may
          have hid' := Command.subject?_of_creation? hcreates
          obtain ⟨hbefore, hafter⟩ := Store.insert_ok hs hreply
          by_cases hid : id = d.id
          · subst hid
            have hload := (hafter d.id).trans (if_pos rfl)
            exact .created busy hid' hclock hcreates hbefore hload
              (removals_withStore_of_some hload) rfl
          · have hload := (hafter id).trans (if_neg hid)
            refine .kept hload (removals_withStore_of_eq hload) (.inr ⟨_, rfl, fun hid₂ => ?_⟩)
            exact absurd (Option.some.inj (hid₂.symm.trans hid')) hid
      | @deleted id' found =>
          have hsubject : s.command.subject? = none := by rw [may, Command.subject?]
          refine change_of_removal busy hsubject rfl ⟨_, rfl, rfl⟩ ?_
          have hload := m.store.load_delete id' id
          by_cases hid : id = id'
          · exact .inr (hload.trans (if_pos hid))
          · exact .inl (hload.trans (if_neg hid))
      | @swept deadline count =>
          obtain ⟨idle, hc⟩ := may
          have hsubject : s.command.subject? = none := by rw [hc, Command.subject?]
          exact change_of_removal busy hsubject rfl ⟨_, rfl, rfl⟩ (m.store.load_sweep deadline id)

end Exchange

/-! ### The invariant -/

/-- What a call remembers of a document is in step with the store: unless the document has been
removed since, it is still there, at the same version or at a later one, and at the same version it
is the same document. -/
def Knowledge.InStep (known : Knowledge) (removals : Nat)
    (stored : Except StoreError (Option Document)) : Prop :=
  ∀ loaded, known.loaded = some loaded → known.era ≤ removals ∧
    (known.era = removals → ∃ current, stored = .ok (some current) ∧
      loaded.version.toNat ≤ current.version.toNat ∧
      (loaded.version = current.version → loaded = current))

namespace Knowledge.InStep

/-- **In the same life the version tells the document**: what is stored at the version of what was
loaded is what was loaded. -/
theorem eq_of_version {known : Knowledge} {removals : Nat}
    {stored : Except StoreError (Option Document)} (h : known.InStep removals stored)
    {loaded current : Document} (hloaded : known.loaded = some loaded)
    (hera : known.era = removals) (hstored : stored = .ok (some current))
    (hversion : current.version = loaded.version) : loaded = current := by
  obtain ⟨-, hin⟩ := h loaded hloaded
  obtain ⟨current', hcurrent, -, hsame⟩ := hin hera
  cases hcurrent.symm.trans hstored
  exact hsame hversion.symm

/-- What happens to a document leaves those in step who remember it: an edit takes the version
further, a creation finds nobody who remembers a document that is there, and a removal is
counted. -/
theorem change {ι : Type} {m m' : Exchange ι} {id : DocumentId} {known : Knowledge}
    (h : known.InStep (m.removals id) (m.store.load id)) (hc : Exchange.Change id m m') :
    known.InStep (m'.removals id) (m'.store.load id) := by
  intro loaded hloaded
  obtain ⟨hera, hin⟩ := h loaded hloaded
  cases hc with
  | kept load removals finished =>
      rw [load, removals]
      exact ⟨hera, hin⟩
  | @edited i s d current next now edit busy subject wants remembers reads computes version before
      after removals finished =>
      rw [removals]
      refine ⟨hera, ?_⟩
      intro heq
      obtain ⟨current', hcurrent, hle, -⟩ := hin heq
      cases hcurrent.symm.trans before
      -- the version has moved past every version that anybody remembers
      have hnext := Document.edit_version computes
      rw [← version] at hnext
      refine ⟨next, after, by omega, ?_⟩
      intro hv
      rw [hv] at hle
      omega
  | created busy subject reads creates before after removals finished =>
      rw [removals]
      refine ⟨hera, ?_⟩
      intro heq
      obtain ⟨current, hcurrent, -⟩ := hin heq
      cases hcurrent.symm.trans before
  | removed busy subject before after removals finished =>
      rw [removals]
      exact ⟨by omega, fun heq => by omega⟩

/-- Whoever loads a document is in step with it, and other answers change nothing in what is
remembered. -/
theorem learn {c : Command} {known : Knowledge} {request : Request} {id : DocumentId}
    (hid : c.subject? = some id) (may : c.MayAsk known request) {removals : DocumentId → Nat}
    {store : Store} (now : Timestamp) (h : known.InStep (removals id) (store.load id)) :
    (known.learn removals request (Store.answer now request store).1).InStep (removals id)
      (store.load id) := by
  cases request with
  | load id' =>
      cases Option.some.inj (may.symm.trans hid)
      intro loaded hloaded
      change (known.learn removals (.load id) (store.load id)).loaded = some loaded at hloaded
      change (known.learn removals (.load id) (store.load id)).era ≤ removals id ∧ _
      cases hload : store.load id with
      | error e =>
          rw [hload] at hloaded
          cases hloaded
      | ok found =>
          rw [hload] at hloaded
          cases hloaded
          exact ⟨Nat.le_refl _, fun _ => ⟨loaded, rfl, Nat.le_refl _, fun _ => rfl⟩⟩
  | _ => exact h

end Knowledge.InStep

namespace Exchange

variable {ι : Type} [DecidableEq ι]

/-- The invariant of every history. -/
structure Sound (m : Exchange ι) : Prop where
  /-- The schema gives every document back. -/
  schema : m.store.schema.RoundTrips
  /-- Every call keeps to the rules. -/
  orderly : m.Orderly
  /-- Every call is in step with its document. -/
  inStep : ∀ i s id, m.sessions i = some s → s.command.subject? = some id →
    s.known.InStep (m.removals id) (m.store.load id)

omit [DecidableEq ι] in
theorem sound_idle {store : Store} (hs : store.schema.RoundTrips) :
    (idle store : Exchange ι).Sound :=
  ⟨hs, nofun, nofun⟩

theorem update_eq_some {sessions : ι → Option Session} {i j : ι} {x : Option Session}
    {s : Session} (h : Function.update sessions i x j = some s) :
    (j = i ∧ x = some s) ∨ sessions j = some s := by
  by_cases hij : j = i
  · subst hij
    rw [Function.update_self] at h
    exact .inl ⟨rfl, h⟩
  · rw [Function.update_of_ne hij] at h
    exact .inr h

theorem sound_moves {m m' : Exchange ι} (hm : m.Sound) (h : m.Moves m') : m'.Sound := by
  -- the calls that do not move are still in step, whatever happens to their documents
  have old : ∀ j s id, m.sessions j = some s → s.command.subject? = some id →
      s.known.InStep (m'.removals id) (m'.store.load id) :=
    fun j s id hs hid => (hm.inStep j s id hs hid).change (change_of_moves hm.schema h id)
  cases h with
  | stays => exact hm
  | begins i c rest follows =>
      refine ⟨hm.schema, ?_, ?_⟩
      · intro j s hs
        rcases update_eq_some hs with ⟨-, hs⟩ | hs
        · cases hs
          exact follows
        · exact hm.orderly j s hs
      · intro j s id hs hid
        rcases update_eq_some hs with ⟨-, hs⟩ | hs
        · -- whoever has just begun remembers nothing
          cases hs
          exact nofun
        · exact old j s id hs hid
  | refuses i c e =>
      refine ⟨hm.schema, ?_, ?_⟩
      · intro j s hs
        exact hm.orderly j s ((update_eq_some hs).resolve_left nofun)
      · intro j s id hs hid
        exact old j s id ((update_eq_some hs).resolve_left nofun) hid
  | learns i s request now rest busy may follows =>
      refine ⟨hm.schema, ?_, ?_⟩
      · intro j s' hs
        rcases update_eq_some hs with ⟨-, hs⟩ | hs
        · cases hs
          exact follows
        · exact hm.orderly j s' hs
      · intro j s' id hs hid
        rcases update_eq_some hs with ⟨-, hs⟩ | hs
        · cases hs
          exact (hm.inStep i s id busy hid).learn hid may now
        · exact old j s' id hs hid
  | ends i s request now result busy may fits =>
      refine ⟨?_, ?_, ?_⟩
      · change (Store.answer now request m.store).2.schema.RoundTrips
        rw [Store.schema_answer]
        exact hm.schema
      · intro j s' hs
        exact hm.orderly j s' ((update_eq_some hs).resolve_left nofun)
      · intro j s' id hs hid
        exact old j s' id ((update_eq_some hs).resolve_left nofun) hid

theorem sound_step {m : Exchange ι} (h : m.Sound) (e : Event ι) : (m.step e).Sound :=
  sound_moves h (step_moves h.orderly e)

/-- **The invariant holds throughout every history.** -/
theorem sound_run {m : Exchange ι} (h : m.Sound) (events : List (Event ι)) : (m.run events).Sound :=
  run_rec h fun _ e _ hm => sound_step hm e

theorem change_of_step {m : Exchange ι} (h : m.Sound) (e : Event ι) (id : DocumentId) :
    Change id m (m.step e) :=
  change_of_moves h.schema (step_moves h.orderly e) id

end Exchange

end Chronicle
