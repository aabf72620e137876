/-
**Programs.**  What a client does is a program: it asks the store and the clock one question after
another, and each answer decides how it goes on.  A program says nothing of who answers, so it can
be run against a store of its own, or have its questions interleaved with those of others.

Main definitions:

* `Request`, `Request.Answer` — the questions, and what answers each;
* `Program` — a tree of questions with a result at every leaf;
* `Program.run` — a program under any way of answering;
* `Store.answer` — how a store answers, at a given time.

Main results:

* `Program.run_done`, `Program.run_ask`, `Program.run_bind`, `Program.run_bind_state` — running
  follows the tree.
-/

import Chronicle.Store

set_option autoImplicit false

namespace Chronicle

/-! ### Questions -/

/-- A question to the store, or to the clock. -/
inductive Request where
  | now
  | load (id : DocumentId)
  | swap (id : DocumentId) (expected : UInt64) (document : Document)
  | insert (document : Document)
  | delete (id : DocumentId)
  | sweep (deadline : Timestamp)
deriving DecidableEq

/-- What answers a question. -/
@[reducible]
def Request.Answer : Request → Type
  | .now => Timestamp
  | .load _ => Except StoreError (Option Document)
  | .swap .. => Except StoreError Unit
  | .insert _ => Except StoreError Unit
  | .delete _ => Except StoreError Bool
  | .sweep _ => Except StoreError Nat

/-! ### Programs -/

/-- A tree of questions: a result, or a question with a program for each answer. -/
inductive Program (α : Type) : Type where
  | done (result : α)
  | ask (request : Request) (next : request.Answer → Program α)

namespace Program

variable {α β : Type}

/-- One program after another, which starts from its result. -/
protected def bind (p : Program α) (f : α → Program β) : Program β :=
  match p with
  | .done a => f a
  | .ask request next => .ask request fun answer => (next answer).bind f

instance : Monad Program where
  pure := .done
  bind := Program.bind

/-- A program under a way of answering its questions. -/
def run {m : Type → Type} [Monad m] (answer : (request : Request) → m request.Answer) :
    Program α → m α
  | .done a => pure a
  | .ask request next => do
    let a ← answer request
    (next a).run answer

@[simp]
theorem run_done {m : Type → Type} [Monad m] (answer : (request : Request) → m request.Answer)
    (a : α) : (done a).run answer = pure a := rfl

@[simp]
theorem run_ask {m : Type → Type} [Monad m] (answer : (request : Request) → m request.Answer)
    (request : Request) (next : request.Answer → Program α) :
    (ask request next).run answer = answer request >>= fun a => (next a).run answer := rfl

@[simp]
theorem run_bind {m : Type → Type} [Monad m] [LawfulMonad m]
    (answer : (request : Request) → m request.Answer) (p : Program α) (f : α → Program β) :
    (p >>= f).run answer = p.run answer >>= fun a => (f a).run answer := by
  induction p with
  | done a => simp [bind, Program.bind]
  | ask request next ih => simp_all [bind, Program.bind]

/-- With a state, the program that comes second starts where the first has left it. -/
theorem run_bind_state {σ : Type} (answer : (request : Request) → StateM σ request.Answer)
    (p : Program α) (f : α → Program β) (s : σ) :
    (p.bind f).run answer s = (f (p.run answer s).1).run answer (p.run answer s).2 :=
  congrFun (run_bind answer p f) s

end Program

/-! ### Answers of a store -/

/-- How a store answers a question when the clock shows `now`. -/
def Store.answer (now : Timestamp) : (request : Request) → StateM Store request.Answer
  | .now => pure now
  | .load id => fun s => (s.load id, s)
  | .swap id expected d => fun s => s.swap id expected d
  | .insert d => fun s => s.insert d
  | .delete id => fun s => s.delete id
  | .sweep deadline => fun s => s.sweep deadline

end Chronicle
