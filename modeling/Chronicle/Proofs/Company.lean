/-
**A call between the calls of others.**  Others call as they like between the questions of one call:
each of them is in the middle of something, and all of them meet the store that the call leaves.  As
long as the call changes nothing, and it changes nothing before its last question, they go their own
way, stage by stage; so for the call they are a world that does to the records what it likes.

What they do to a document can be told from two facts.  A name that can be read stays so, and a
document that is not removed is in step with whoever has seen it: at the same version it is the same
document.

Main definitions:

* `Interlude`, `Company`, `Program.amid` — **a call between the calls of others**;
* `Exchange.Later` — what has become of a document;
* `Exchange.stage`, `Exchange.world` — the others as long as the call changes nothing;
* `Encounter.Then` — what a later question can find, given what an earlier one found.

Main results:

* `Exchange.later_run` — a document while others go on;
* `Program.Follows.run_company` — a call that keeps to rules meets the stages of the others;
* `Program.Follows.amid` — **a call in company** is a call among others, and what it finds is what
  becomes of documents while others go on.
-/

import Chronicle.Proofs.Contention
import Chronicle.Proofs.Lives

set_option autoImplicit false

namespace Chronicle

/-! ### Others that call in between -/

/-- What others do before a question, and the time that the clock shows by then. -/
structure Interlude (ι : Type) where
  now : Timestamp
  events : List (Event ι)

/-- The others, and the questions that a call has asked so far. -/
structure Company (ι : Type) where
  others : Exchange ι
  past : List Encounter := []

section

variable {ι : Type} [DecidableEq ι]

/-- How a question is answered in company: the others go on as planned, the question meets the store
that they leave, and they will find the store that it leaves. -/
def Company.answer (plan : Nat → Interlude ι) (request : Request) :
    StateM (Company ι) request.Answer :=
  fun c =>
    let m := c.others.run (plan c.past.length).events
    let x : Encounter := ⟨(plan c.past.length).now, m.store, request⟩
    (x.answer, ⟨m.withStore x.after, c.past ++ [x]⟩)

/-- A program between the calls of others: its result, and what became of its questions and of the
others. -/
def Program.amid {α : Type} (p : Program α) (plan : Nat → Interlude ι) (others : Exchange ι) :
    α × Company ι :=
  p.run (Company.answer plan) ⟨others, []⟩

end

/-! ### A document while others go on -/

namespace Exchange

variable {ι : Type} {id : DocumentId} {m m' : Exchange ι}

theorem removals_le_withStore (m : Exchange ι) (store : Store) (id : DocumentId) :
    m.removals id ≤ (m.withStore store).removals id := by
  rw [withStore]
  dsimp only
  split <;> omega

variable [DecidableEq ι]

theorem store_resume (m : Exchange ι) (i : ι) (c : Command) (known : Knowledge)
    (rest : Call Outcome) : (m.resume i c known rest).store = m.store := by
  cases rest <;> rfl

theorem schema_step (m : Exchange ι) (e : Event ι) :
    (m.step e).store.schema = m.store.schema := by
  cases e with
  | call i settings c =>
      rw [step]
      split
      · rfl
      · rw [store_resume]
  | ask i now =>
      rw [step]
      split
      · rw [store_resume]
        exact Store.schema_answer ..
      · rfl

theorem schema_run (m : Exchange ι) (events : List (Event ι)) :
    (m.run events).store.schema = m.store.schema :=
  run_rec (P := fun m' => m'.store.schema = m.store.schema) rfl
    fun m' e _ h => (schema_step m' e).trans h

/-- What has become of a document: it can be read if it could be, and as long as it has not been
removed, those who know it are in step with it. -/
structure Later (id : DocumentId) (m m' : Exchange ι) : Prop where
  sound : m'.Sound
  removals : m.removals id ≤ m'.removals id
  readable : ∀ found, m.store.load id = .ok found → ∃ found', m'.store.load id = .ok found'
  inStep : ∀ d, m.store.load id = .ok (some d) →
    Knowledge.InStep ⟨some d, m.removals id, none⟩ (m'.removals id) (m'.store.load id)

namespace Later

omit [DecidableEq ι] in
protected theorem refl (h : m.Sound) : Later id m m := by
  refine ⟨h, Nat.le_refl _, fun found hfound => ⟨found, hfound⟩, fun d hd => ?_⟩
  rintro _ ⟨⟩
  exact ⟨Nat.le_refl _, fun _ => ⟨d, hd, Nat.le_refl _, fun _ => rfl⟩⟩

protected theorem step (h : Later id m m') (e : Event ι) : Later id m (m'.step e) := by
  have hc := change_of_step h.sound e id
  refine ⟨sound_step h.sound e, Nat.le_trans h.removals hc.removals_le, fun found hfound => ?_,
    fun d hd => (h.inStep d hd).change hc⟩
  cases hc with
  | kept load removals finished =>
      rw [load]
      exact h.readable found hfound
  | edited busy subject wants remembers reads computes version before after removals finished =>
      exact ⟨_, after⟩
  | created busy subject reads creates before after removals finished => exact ⟨_, after⟩
  | removed busy subject before after removals finished => exact ⟨_, after⟩

protected theorem run (h : Later id m m') (events : List (Event ι)) :
    Later id m (m'.run events) :=
  run_rec h fun _ e _ h => h.step e

omit [DecidableEq ι] in
/-- A document that has not been removed is there, and at the same version it is the same. -/
theorem present (h : Later id m m') {d : Document} (hd : m.store.load id = .ok (some d))
    (hkept : m'.removals id = m.removals id) : ∃ d', m'.store.load id = .ok (some d') ∧
      (d'.version = d.version → d' = d) := by
  obtain ⟨-, hin⟩ := h.inStep d hd d rfl
  obtain ⟨d', hd', -, hsame⟩ := hin hkept.symm
  exact ⟨d', hd', fun hversion => (hsame hversion.symm).symm⟩

end Later

/-- **A document while others go on.** -/
theorem later_run (h : m.Sound) (events : List (Event ι)) : Later id m (m.run events) :=
  (Later.refl h).run events

/-! ### The others as long as the call changes nothing -/

/-- What others have come to at a question, if none of the questions before it changed anything. -/
def stage (others : Exchange ι) (plan : Nat → Interlude ι) : Nat → Exchange ι
  | 0 => others.run (plan 0).events
  | k + 1 => (others.stage plan k).run (plan (k + 1)).events

variable {others : Exchange ι} {plan : Nat → Interlude ι}

theorem later_stage (h : others.Sound) (k : Nat) : Later id others (others.stage plan k) := by
  induction k with
  | zero => exact later_run h _
  | succ k ih => exact ih.run _

theorem stage_later_stage (h : others.Sound) {i j : Nat} (hij : i ≤ j) :
    Later id (others.stage plan i) (others.stage plan j) := by
  induction hij with
  | refl =>
      have hi : Later id others (others.stage plan i) := later_stage h i
      exact .refl hi.sound
  | step _ ih => exact ih.run _

theorem schema_stage (others : Exchange ι) (plan : Nat → Interlude ι) (k : Nat) :
    (others.stage plan k).store.schema = others.store.schema := by
  induction k with
  | zero => exact schema_run ..
  | succ k ih => exact (schema_run ..).trans ih

/-- The same as a world in which others do to the records whatever they like. -/
def world (others : Exchange ι) (plan : Nat → Interlude ι) (k : Nat) : Meanwhile where
  now := (plan k).now
  others _ := (others.stage plan k).store.records

end Exchange

/-! ### Calls in company -/

/-- What a later question can find, given what an earlier one found: a name that could be read still
can be, and if documents of it are kept, one that was there still is, and at the same version it is
the same. -/
structure Encounter.Then (id : DocumentId) (kept : Prop) (x y : Encounter) : Prop where
  readable : ∀ found, x.before.load id = .ok found → ∃ found', y.before.load id = .ok found'
  present : kept → ∀ d, x.before.load id = .ok (some d) →
    ∃ d', y.before.load id = .ok (some d') ∧ (d'.version = d.version → d' = d)

namespace Program

variable {ι : Type} [DecidableEq ι] {α : Type} {may : Knowledge → Request → Prop}
  {ends : (request : Request) → request.Answer → α → Prop} {others : Exchange ι}

/-- A question in company is put to what the others leave, and the program goes on from its
answer. -/
theorem run_company (plan : Nat → Interlude ι) (request : Request)
    (next : request.Answer → Program α) {m m' : Exchange ι} {past : List Encounter}
    (h : m.run (plan past.length).events = m') :
    let x : Encounter := ⟨(plan past.length).now, m'.store, request⟩
    (ask request next).run (Company.answer plan) ⟨m, past⟩ =
      (next x.answer).run (Company.answer plan) ⟨m'.withStore x.after, past ++ [x]⟩ := by
  subst h
  rfl

/-- A question in the world of the others meets the store of its stage. -/
theorem run_world (plan : Nat → Interlude ι) (request : Request)
    (next : request.Answer → Program α) {store : Store} {past : List Encounter}
    (hschema : store.schema = others.store.schema) :
    let x : Encounter := ⟨(plan past.length).now, (others.stage plan past.length).store, request⟩
    (ask request next).run (Contest.answer (others.world plan)) ⟨store, past⟩ =
      (next x.answer).run (Contest.answer (others.world plan)) ⟨x.after, past ++ [x]⟩ := by
  have hstore : (others.stage plan past.length).store =
      { store with records := (others.stage plan past.length).store.records } := by
    rw [hschema, ← Exchange.schema_stage others plan past.length]
  rw [hstore]
  rfl

/-- A program that keeps to rules, from any question on: as long as it changes nothing, the others
are at the stages of their own plan, so its questions are those of a contest with that world. -/
theorem Follows.run_company {p : Program α} {known : Knowledge} (hp : p.Follows may ends known)
    (plan : Nat → Interlude ι) (m : Exchange ι) (past : List Encounter)
    (hm : m.run (plan past.length).events = others.stage plan past.length)
    (hschema : m.store.schema = others.store.schema) :
    ∃ tail last, (p.run (Company.answer plan) ⟨m, past⟩).2 =
        ⟨(others.stage plan (past.length + tail.length)).withStore last.after,
          past ++ (tail ++ [last])⟩ ∧
      (p.run (Contest.answer (others.world plan)) ⟨m.store, past⟩).2.past =
        past ++ (tail ++ [last]) ∧
      (p.run (Company.answer plan) ⟨m, past⟩).1 =
        (p.run (Contest.answer (others.world plan)) ⟨m.store, past⟩).1 ∧
      ∀ k x, (tail ++ [last])[k]? = some x →
        x.before = (others.stage plan (past.length + k)).store := by
  induction p generalizing known m past with
  | done a => exact hp.elim
  | ask request next ih =>
      let x : Encounter :=
        ⟨(plan past.length).now, (others.stage plan past.length).store, request⟩
      let m' := (others.stage plan past.length).withStore x.after
      -- in company and in the contest the program goes on from the same question
      have hcompany : (ask request next).run (Company.answer plan) ⟨m, past⟩ =
          (next x.answer).run (Company.answer plan) ⟨m', past ++ [x]⟩ :=
        Program.run_company plan request next hm
      have hcontest : (ask request next).run (Contest.answer (others.world plan)) ⟨m.store, past⟩ =
          (next x.answer).run (Contest.answer (others.world plan)) ⟨m'.store, past ++ [x]⟩ :=
        run_world plan request next hschema
      rw [hcompany, hcontest]
      rcases hp.2 (fun _ => 0) x.answer with ⟨result, hdone, -⟩ | ⟨htook, hfollows⟩
      · rw [hdone]
        refine ⟨[], x, rfl, rfl, rfl, ?_⟩
        intro k y hy
        cases k with
        | zero =>
            cases hy
            rfl
        | succ k => cases hy
      · have hidle : x.after = (others.stage plan past.length).store :=
          Store.answer_of_not_took htook
        have hm' : m' = others.stage plan past.length := by
          change Exchange.withStore _ x.after = _
          rw [hidle, Exchange.withStore_self]
        have hlength : (past ++ [x]).length = past.length + 1 := List.length_append
        obtain ⟨tail, last, hcompany, hcontest, hresult, hbefore⟩ :=
          ih x.answer hfollows m' (past ++ [x]) (by rw [hm', hlength]; rfl)
            (by rw [hm', Exchange.schema_stage])
        refine ⟨x :: tail, last, ?_, ?_, hresult, ?_⟩
        · rw [hcompany, hlength, List.length_cons, List.append_assoc, Nat.add_right_comm]
          rfl
        · rw [hcontest, List.append_assoc]
          rfl
        · intro k y hy
          cases k with
          | zero =>
              cases hy
              rfl
          | succ k =>
              have := hbefore k y hy
              rwa [hlength, Nat.add_right_comm] at this

/-- **A call in company** is a call among others, and what it finds at its questions is what becomes
of documents while others go on. -/
theorem Follows.amid {p : Program α} {known : Knowledge} (hp : p.Follows may ends known)
    (h : others.Sound) (plan : Nat → Interlude ι) :
    ∃ world, (p.amid plan others).1 = (p.contested world others.store).1 ∧
      (p.amid plan others).2.past = (p.contested world others.store).2.past ∧
      ∀ id, others.removals id ≤ (p.amid plan others).2.others.removals id ∧
        (p.amid plan others).2.past.Pairwise
          (Encounter.Then id ((p.amid plan others).2.others.removals id = others.removals id)) := by
  obtain ⟨tail, last, hcompany, hcontest, hresult, hbefore⟩ :=
    hp.run_company plan others [] rfl rfl
  refine ⟨others.world plan, hresult, ?_, fun id => ?_⟩
  · rw [Program.amid, hcompany, Program.contested, hcontest]
  · rw [Program.amid, hcompany]
    have hlast : (others.stage plan tail.length).removals id ≤
        ((others.stage plan tail.length).withStore last.after).removals id :=
      Exchange.removals_le_withStore ..
    have hfirst : ∀ k, others.removals id ≤ (others.stage plan k).removals id :=
      fun k => (Exchange.later_stage h k).removals
    rw [List.length_nil, Nat.zero_add, List.nil_append]
    dsimp only
    refine ⟨Nat.le_trans (hfirst _) hlast, ?_⟩
    rw [List.pairwise_iff_getElem]
    intro i j hi hj hij
    have hlater : Exchange.Later id (others.stage plan i) (others.stage plan j) :=
      Exchange.stage_later_stage h (Nat.le_of_lt hij)
    have hx := hbefore i _ (List.getElem?_eq_getElem hi)
    have hy := hbefore j _ (List.getElem?_eq_getElem hj)
    rw [List.length_nil, Nat.zero_add] at hx hy
    constructor
    · rw [hx, hy]
      exact hlater.readable
    · rw [hx, hy]
      intro hkept d hd
      refine hlater.present hd ?_
      -- whatever is removed between two questions is removed in the end
      have hend : (others.stage plan j).removals id ≤
          (others.stage plan tail.length).removals id := by
        refine (Exchange.stage_later_stage h ?_).removals
        rw [List.length_append, List.length_singleton] at hj
        omega
      have := hfirst i
      have := hlater.removals
      omega

end Program

end Chronicle
