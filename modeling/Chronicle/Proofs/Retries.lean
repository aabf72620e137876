/-
**How often a write tries.**  A write goes by rounds: it loads the document, reads the clock and
swaps, and if the swap meets another version it begins again, as often as the settings allow.  What
others do meanwhile is up to them, but they pay for it: a round is lost only if the stored version
at its swap is not the one at its load, so whoever wants to keep a write from succeeding has to
change the version in every single round of it.

Main definitions:

* `Client.Round`, `Client.Rounds` — **all that can happen** in one round, and in all of them;
* `Encounter.rounds` — the questions of a call, cut at every load;
* `Encounter.conflicted`, `Encounter.disturbed` — a round that ended in a conflict, and a round in
  which the stored version changed.

Main results:

* `Client.round_of_run`, `Client.rounds_of_run` — a write among others takes no other course;
* `Client.Round.disturbed` — a conflict comes of a disturbance;
* `Client.Round.succeeds` — what is left to go wrong in a round;
* `Client.retries_bounded` — **the budget, and that a write succeeds within it**.
-/

import Chronicle.Proofs.Attempts
import Chronicle.Proofs.Contention
import Mathlib.Data.List.SplitBy

set_option autoImplicit false

namespace Chronicle

/-! ### Versions and swaps -/

namespace Store

variable {s : Store} {id : DocumentId} {d current : Document} {expected : UInt64}

/-- The version that is stored under a name, if it can be read. -/
def version? (s : Store) (id : DocumentId) : Option UInt64 :=
  match s.load id with
  | .ok (some d) => some d.version
  | _ => none

theorem version?_of_load (h : s.load id = .ok (some d)) : s.version? id = some d.version := by
  rw [version?, h]

/-- A swap of a document that can be read is decided by the versions. -/
theorem swap_of_load (hid : d.id = id) (hload : s.load id = .ok (some current)) :
    (s.swap id expected d).1 = if current.version = expected then .ok ()
      else .error (.versionConflict id expected current.version) := by
  by_cases hversion : current.version = expected
  · rw [if_pos hversion]
    exact swap_eq_ok_iff.2 ⟨hid, current, hload, hversion⟩
  · obtain ⟨record, hraw, hrestore⟩ := load_eq_some_iff.1 hload
    rw [raw?] at hraw
    rw [if_neg hversion, swap, if_neg (not_not.2 hid), hraw]
    dsimp only
    rw [decode_eq_ok_iff.2 hrestore]
    dsimp only
    rw [if_pos hversion]

/-- A swap meets a conflict only where another version is stored. -/
theorem load_of_conflict {id' : DocumentId} {expected' actual : UInt64}
    (h : (s.swap id expected d).1 = .error (.versionConflict id' expected' actual)) :
    ∃ current, s.load id = .ok (some current) ∧ current.version ≠ expected := by
  rw [swap] at h
  split at h
  · cases h
  · split at h
    · cases h
    · next record hraw =>
        cases hdecode : s.decode record with
        | error e =>
            obtain ⟨reason, rfl⟩ := corrupt_of_decode hdecode
            rw [hdecode] at h
            cases h
        | ok current =>
            rw [hdecode] at h
            dsimp only at h
            split at h
            · next hversion =>
                refine ⟨current, load_eq_some_iff.2 ⟨record, hraw, ?_⟩, hversion⟩
                exact decode_eq_ok_iff.1 hdecode
            · cases h

end Store

/-! ### The rounds among the questions of a call -/

/-- Whether an answer is that another version is stored than the one expected. -/
def Request.conflicts : (request : Request) → request.Answer → Bool
  | .swap .., .error (.versionConflict ..) => true
  | _, _ => false

theorem Request.conflicts_iff {id : DocumentId} {expected : UInt64} {d : Document}
    {answer : Except StoreError Unit} : (swap id expected d).conflicts answer = true ↔
      ∃ id' expected' actual, answer = .error (.versionConflict id' expected' actual) := by
  cases answer with
  | ok _ => exact iff_of_false Bool.false_ne_true nofun
  | error e =>
      cases e with
      | versionConflict => exact iff_of_true rfl ⟨_, _, _, rfl⟩
      | _ => exact iff_of_false Bool.false_ne_true nofun

namespace Encounter

/-- Whether the question is for a document. -/
def loads (x : Encounter) : Bool :=
  match x.request with
  | .load _ => true
  | _ => false

/-- The questions of a call, cut before every load. -/
def rounds (past : List Encounter) : List (List Encounter) :=
  past.splitBy fun _ x => !x.loads

/-- Whether the last question of a round met a conflict. -/
def conflicted (round : List Encounter) : Bool :=
  round.getLast?.any fun x => x.request.conflicts x.answer

/-- Whether another version was stored at the last question of a round than at the first. -/
def disturbed (id : DocumentId) (round : List Encounter) : Bool :=
  round.head?.map (·.before.version? id) != round.getLast?.map (·.before.version? id)

end Encounter

/-- A question among others is put to what they leave, and the program goes on from its answer. -/
theorem Program.run_contest {α : Type} (world : Nat → Meanwhile) (request : Request)
    (next : request.Answer → Program α) (c : Contest) :
    (ask request next).run (Contest.answer world) c =
      (next (c.meet world request).answer).run (Contest.answer world)
        ⟨(c.meet world request).after, c.past ++ [c.meet world request]⟩ := rfl

/-! ### One round -/

namespace Client

/-- What a write makes of the answer to its swap: its result, or nothing yet. -/
def verdict (id : DocumentId) (next : Document) :
    Except StoreError Unit → Option (Except ClientError Document)
  | .ok () => some (.ok next)
  | .error (.versionConflict ..) => none
  | .error (.notFound _) => some (.error (.notFound id))
  | .error e => some (.error (.store e))

/-- A write has no result yet iff its swap met a conflict. -/
theorem verdict_eq_none_iff {id : DocumentId} {next : Document} {answer : Except StoreError Unit} :
    verdict id next answer = none ↔
      ∃ id' expected actual, answer = .error (.versionConflict id' expected actual) := by
  cases answer with
  | ok _ => exact iff_of_false nofun nofun
  | error e =>
      cases e with
      | versionConflict id' expected actual => exact iff_of_true rfl ⟨_, _, _, rfl⟩
      | _ => exact iff_of_false nofun nofun

theorem verdict_ne_retriesExhausted {id id' : DocumentId} {next : Document}
    {answer : Except StoreError Unit} {n : Nat} :
    verdict id next answer ≠ some (.error (.retriesExhausted id' n)) := by
  cases answer with
  | ok _ => nofun
  | error e => cases e <;> nofun

/-- How one round of a write can go, and what comes of it: a result, or nothing yet. -/
inductive Round (id : DocumentId) (edit : Edit) :
    List Encounter → Option (Except ClientError Document) → Prop
  /-- The document cannot be read. -/
  | unreadable {now : Timestamp} {store : Store} {e : StoreError}
      (load : store.load id = .error e) :
      Round id edit [⟨now, store, .load id⟩] (some (.error (.store e)))
  /-- There is no document. -/
  | missing {now : Timestamp} {store : Store} (load : store.load id = .ok none) :
      Round id edit [⟨now, store, .load id⟩] (some (.error (.notFound id)))
  /-- The edit is refused. -/
  | refused {t₁ t₂ : Timestamp} {s₁ s₂ : Store} {d : Document} {e : EditError}
      (load : s₁.load id = .ok (some d)) (refuses : d.edit t₂ edit = .error e) :
      Round id edit [⟨t₁, s₁, .load id⟩, ⟨t₂, s₂, .now⟩] (some (.error (.edit e)))
  /-- The edited document is to be swapped in. -/
  | swaps {t₁ t₂ t₃ : Timestamp} {s₁ s₂ s₃ : Store} {d next : Document}
      (load : s₁.load id = .ok (some d)) (computes : d.edit t₂ edit = .ok next) :
      Round id edit
        [⟨t₁, s₁, .load id⟩, ⟨t₂, s₂, .now⟩, ⟨t₃, s₃, .swap id d.version next⟩]
        (verdict id next (s₃.swap id d.version next).1)

variable {id : DocumentId} {edit : Edit} {attempts : Nat}

/-- **One round of a write**, from any point of a contest: it adds its questions to the past, and
the write ends with its result or goes on with the rounds that are left. -/
theorem round_of_run (world : Nat → Meanwhile) (left : Nat) (c : Contest) :
    ∃ round outcome store, Round id edit round outcome ∧
      (rounds id edit attempts (left + 1)).run (Contest.answer world) c =
        Program.run (Contest.answer world)
          (match outcome with
            | some result => .done result
            | none => rounds id edit attempts left) ⟨store, c.past ++ round⟩ := by
  -- the questions one after another, each put to what others have left by then
  let x := c.meet world (.load id)
  cases hload : x.before.load id with
  | error e =>
      refine ⟨[x], _, x.after, .unreadable hload, ?_⟩
      have hanswer : x.answer = .error e := hload
      rw [rounds, Program.run_contest, hanswer]
  | ok found =>
      have hanswer : x.answer = .ok found := hload
      cases found with
      | none =>
          refine ⟨[x], _, x.after, .missing hload, ?_⟩
          rw [rounds, Program.run_contest, hanswer]
      | some d =>
          let c₁ : Contest := ⟨x.after, c.past ++ [x]⟩
          let y := c₁.meet world .now
          cases hedit : d.edit y.now edit with
          | error e =>
              refine ⟨[x, y], _, y.after, .refused hload hedit, ?_⟩
              have hrefused : d.edit y.answer edit = .error e := hedit
              rw [rounds, Program.run_contest, hanswer]
              dsimp only
              rw [Program.run_contest, hrefused, List.append_assoc]
              rfl
          | ok next =>
              let c₂ : Contest := ⟨y.after, c₁.past ++ [y]⟩
              let z := c₂.meet world (.swap id d.version next)
              refine ⟨[x, y, z], verdict id next (z.before.swap id d.version next).1, z.after,
                .swaps hload hedit, ?_⟩
              have hcomputed : d.edit y.answer edit = .ok next := hedit
              have hpast : c₂.past ++ [z] = c.past ++ [x, y, z] := by
                rw [List.append_assoc, List.append_assoc]
                rfl
              rw [rounds, Program.run_contest, hanswer]
              dsimp only
              rw [Program.run_contest, hcomputed]
              dsimp only
              have hanswer' : z.answer = (z.before.swap id d.version next).1 := rfl
              rw [Program.run_contest, hpast, hanswer']
              cases (z.before.swap id d.version next).1 with
              | ok _ => rfl
              | error e => cases e <;> rfl

namespace Round

variable {round : List Encounter} {outcome : Option (Except ClientError Document)}
  {result : Except ClientError Document}

/-- The questions of a round: load, clock, swap, or the first of these. -/
theorem requests (h : Round id edit round outcome) :
    ∃ expected next, round.map (·.request) <+: [.load id, .now, .swap id expected next] := by
  cases h with
  | unreadable load => exact ⟨0, .fresh id .zero, _, rfl⟩
  | missing load => exact ⟨0, .fresh id .zero, _, rfl⟩
  | refused load refuses => exact ⟨0, .fresh id .zero, _, rfl⟩
  | @swaps _ _ _ _ _ _ d next load computes => exact ⟨d.version, next, [], rfl⟩

/-- A round begins with a load and has no other. -/
theorem eq_cons (h : Round id edit round outcome) :
    ∃ x rest, round = x :: rest ∧ x.loads = true ∧ ∀ y ∈ rest, y.loads = false := by
  cases h with
  | unreadable load => exact ⟨_, [], rfl, rfl, nofun⟩
  | missing load => exact ⟨_, [], rfl, rfl, nofun⟩
  | refused load refuses => exact ⟨_, _, rfl, rfl, by simp [Encounter.loads]⟩
  | swaps load computes => exact ⟨_, _, rfl, rfl, by simp [Encounter.loads]⟩

/-- A round that ends in a conflict is one that brings no result. -/
theorem conflicted_iff (h : Round id edit round outcome) :
    Encounter.conflicted round = true ↔ outcome = none := by
  cases h with
  | unreadable load => exact iff_of_false Bool.false_ne_true nofun
  | missing load => exact iff_of_false Bool.false_ne_true nofun
  | refused load refuses => exact iff_of_false Bool.false_ne_true nofun
  | @swaps t₁ t₂ t₃ s₁ s₂ s₃ d next load computes =>
      have hlast : Encounter.conflicted [⟨t₁, s₁, .load id⟩, ⟨t₂, s₂, .now⟩,
          ⟨t₃, s₃, .swap id d.version next⟩] =
          (Request.swap id d.version next).conflicts (s₃.swap id d.version next).1 := rfl
      rw [hlast, Request.conflicts_iff, verdict_eq_none_iff]

/-- **A conflict comes of a disturbance**: the version at the swap is not the one loaded. -/
theorem disturbed (h : Round id edit round outcome) (hlost : outcome = none) :
    Encounter.disturbed id round = true := by
  cases h with
  | unreadable load => cases hlost
  | missing load => cases hlost
  | refused load refuses => cases hlost
  | @swaps t₁ t₂ t₃ s₁ s₂ s₃ d next load computes =>
      obtain ⟨id', expected, actual, hswap⟩ := verdict_eq_none_iff.1 hlost
      obtain ⟨current, hcurrent, hversion⟩ := Store.load_of_conflict hswap
      change (some (s₁.version? id) != some (s₃.version? id)) = true
      rw [Store.version?_of_load load, Store.version?_of_load hcurrent]
      simpa using Ne.symm hversion

/-- No round reports that all of them were in vain. -/
theorem ne_retriesExhausted (h : Round id edit round (some result)) (id' : DocumentId)
    (n : Nat) : result ≠ .error (.retriesExhausted id' n) := by
  rintro rfl
  generalize hout : some _ = outcome at h
  cases h with
  | unreadable load => cases hout
  | missing load => cases hout
  | refused load refuses => cases hout
  | swaps load computes => exact verdict_ne_retriesExhausted hout.symm

/-- **What is left to go wrong in a round**: if the document is there at each of its questions, under
its own name and with a version to come, a round that brings a result brings the edit of the
document that it loaded. -/
theorem succeeds (h : Round id edit round (some result))
    (present : ∀ x ∈ round, ∃ d, x.before.load id = .ok (some d) ∧ d.id = id ∧
      (x.loads = true → d.version.toNat + 1 < UInt64.size)) :
    ∃ x y z d next, round = [x, y, z] ∧ x.request = .load id ∧ x.before.load id = .ok (some d) ∧
      y.request = .now ∧ d.edit y.now edit = .ok next ∧ z.request = .swap id d.version next ∧
      result = .ok next := by
  generalize hout : some result = outcome at h
  cases h with
  | unreadable load =>
      obtain ⟨d, hd, -⟩ := present _ (List.mem_cons_self ..)
      cases load.symm.trans hd
  | missing load =>
      obtain ⟨d, hd, -⟩ := present _ (List.mem_cons_self ..)
      cases load.symm.trans hd
  | @refused t₁ t₂ s₁ s₂ d e load refuses =>
      obtain ⟨d', hd', -, hfits⟩ := present _ (List.mem_cons_self ..)
      cases load.symm.trans hd'
      obtain ⟨next, hnext⟩ := Document.edit_of_fits (hfits rfl) t₂ edit
      cases refuses.symm.trans hnext
  | @swaps t₁ t₂ t₃ s₁ s₂ s₃ d next load computes =>
      obtain ⟨d', hd', hid, -⟩ := present _ (List.mem_cons_self ..)
      cases load.symm.trans hd'
      obtain ⟨current, hcurrent, -⟩ := present ⟨t₃, s₃, .swap id d.version next⟩ (by simp)
      have hnext : next.id = id := (Document.edit_id computes).trans hid
      rw [Store.swap_of_load hnext hcurrent] at hout
      split at hout
      · refine ⟨_, _, _, d, next, rfl, rfl, load, rfl, computes, rfl, ?_⟩
        exact Option.some.inj hout
      · cases hout

end Round

/-! ### All rounds -/

/-- How the rounds of a write can go while so many are left, and its result. -/
inductive Rounds (id : DocumentId) (edit : Edit) (attempts : Nat) :
    Nat → List (List Encounter) → Except ClientError Document → Prop
  /-- No round is left. -/
  | spent : Rounds id edit attempts 0 [] (.error (.retriesExhausted id attempts))
  /-- A round brings the result. -/
  | ends {left : Nat} {round : List Encounter} {result : Except ClientError Document}
      (last : Round id edit round (some result)) :
      Rounds id edit attempts (left + 1) [round] result
  /-- A round is lost, and others follow. -/
  | again {left : Nat} {round : List Encounter} {rest : List (List Encounter)}
      {result : Except ClientError Document} (lost : Round id edit round none)
      (others : Rounds id edit attempts left rest result) :
      Rounds id edit attempts (left + 1) (round :: rest) result

/-- **All rounds of a write**, from any point of a contest. -/
theorem rounds_of_run (world : Nat → Meanwhile) (left : Nat) (c : Contest) :
    ∃ course, ((rounds id edit attempts left).run (Contest.answer world) c).2.past =
        c.past ++ course.flatten ∧
      Rounds id edit attempts left course
        ((rounds id edit attempts left).run (Contest.answer world) c).1 := by
  induction left generalizing c with
  | zero => exact ⟨[], (List.append_nil _).symm, .spent⟩
  | succ left ih =>
      obtain ⟨round, outcome, store, hround, hrun⟩ := round_of_run world left c
      rw [hrun]
      cases outcome with
      | some result => exact ⟨[round], by rw [List.flatten_singleton]; rfl, .ends hround⟩
      | none =>
          obtain ⟨course, hpast, hrest⟩ := ih ⟨store, c.past ++ round⟩
          refine ⟨round :: course, ?_, .again hround hrest⟩
          rw [List.flatten_cons, ← List.append_assoc]
          exact hpast

namespace Rounds

variable {left : Nat} {course : List (List Encounter)} {result : Except ClientError Document}

theorem length_le (h : Rounds id edit attempts left course result) : course.length ≤ left := by
  induction h with
  | spent => exact Nat.le_refl _
  | ends last => exact Nat.le_add_left ..
  | again lost others ih => exact Nat.succ_le_succ ih

theorem exists_round (h : Rounds id edit attempts left course result) {round : List Encounter}
    (hmem : round ∈ course) : ∃ outcome, Round id edit round outcome := by
  induction h with
  | spent => cases hmem
  | ends last =>
      rw [List.mem_singleton.1 hmem]
      exact ⟨_, last⟩
  | again lost others ih =>
      rcases List.mem_cons.1 hmem with rfl | hmem
      · exact ⟨_, lost⟩
      · exact ih hmem

/-- Cutting the questions at every load gives the rounds. -/
theorem rounds_flatten (h : Rounds id edit attempts left course result) :
    Encounter.rounds course.flatten = course := by
  have hcons : ∀ round ∈ course,
      ∃ x rest, round = x :: rest ∧ x.loads = true ∧ ∀ y ∈ rest, y.loads = false := by
    intro round hmem
    obtain ⟨outcome, hround⟩ := h.exists_round hmem
    exact hround.eq_cons
  refine List.splitBy_flatten ?_ ?_ ?_
  · intro hnil
    obtain ⟨x, rest, hround, -⟩ := hcons [] hnil
    cases hround
  · intro round hmem
    obtain ⟨x, rest, rfl, -, hrest⟩ := hcons round hmem
    refine List.Pairwise.isChain (List.pairwise_cons.2 ⟨fun y hy => ?_, ?_⟩)
    · rw [hrest y hy]
      rfl
    · refine List.pairwise_of_forall_mem_list fun _ _ y hy => ?_
      rw [hrest y hy]
      rfl
  · refine List.Pairwise.isChain (List.pairwise_of_forall_mem_list fun a ha b hb => ?_)
    obtain ⟨x, rest, rfl, -⟩ := hcons a ha
    obtain ⟨y, rest', rfl, hload, -⟩ := hcons b hb
    refine ⟨List.cons_ne_nil _ _, List.cons_ne_nil _ _, ?_⟩
    rw [List.head_cons, hload]
    rfl

/-- **All rounds were lost, or the last one brought the result.** -/
theorem lost_or_last (h : Rounds id edit attempts left course result) :
    (result = .error (.retriesExhausted id attempts) ∧ course.length = left ∧
        ∀ round ∈ course, Encounter.conflicted round = true) ∨
      ∃ lost last, course = lost ++ [last] ∧ Round id edit last (some result) := by
  induction h with
  | spent => exact .inl ⟨rfl, rfl, nofun⟩
  | ends last => exact .inr ⟨[], _, rfl, last⟩
  | @again left round rest result lost others ih =>
      rcases ih with ⟨hresult, hlength, hall⟩ | ⟨init, last, hrest, hlast⟩
      · refine .inl ⟨hresult, congrArg (· + 1) hlength, ?_⟩
        exact List.forall_mem_cons.2 ⟨lost.conflicted_iff.2 rfl, hall⟩
      · exact .inr ⟨round :: init, last, congrArg (round :: ·) hrest, hlast⟩

/-- A write gives up iff it has used all its rounds and lost each of them. -/
theorem retriesExhausted_iff (h : Rounds id edit attempts left course result) :
    result = .error (.retriesExhausted id attempts) ↔
      course.length = left ∧ ∀ round ∈ course, Encounter.conflicted round = true := by
  rcases h.lost_or_last with ⟨hresult, hlost⟩ | ⟨lost, last, rfl, hlast⟩
  · exact iff_of_true hresult hlost
  · refine iff_of_false (hlast.ne_retriesExhausted id attempts) ?_
    rintro ⟨-, hall⟩
    have hconflict := hall last (List.mem_append_right _ (List.mem_singleton_self _))
    cases hlast.conflicted_iff.1 hconflict

end Rounds

/-- **The budget of a write, and that it succeeds within it.**  Whatever others do to the records
between the questions of a write, under any schema and from any records, it makes no more rounds
than one and the further ones that the settings allow, as far as a word can count them, each of them
a load, a look at the clock and a swap, or as much of these as it takes to fail.  It gives up, in the
name of the document and with the number of rounds, iff it has made them all and each ended in a
conflict, and that happens only to rounds in which the stored version changed.  So if there are
fewer rounds of that kind, and at every question the document is there under its own name and never
loaded at the last version that there is, then the write returns the edit of the document that it
loaded in its last round, at the time that it read in this round. -/
theorem retries_bounded (settings : Settings) (id : DocumentId) (edit : Edit)
    (world : Nat → Meanwhile) (store : Store) :
    let budget := min (settings.maxRetries.toNat + 1) (UInt32.size - 1)
    let result := ((write settings id edit).contested world store).1
    let past := ((write settings id edit).contested world store).2.past
    let rounds := Encounter.rounds past
    rounds.length ≤ budget ∧
      (∀ round ∈ rounds, ∃ expected next,
        round.map (·.request) <+: [.load id, .now, .swap id expected next]) ∧
      (∀ id' n, result = .error (.retriesExhausted id' n) → id' = id ∧ n = budget) ∧
      (result = .error (.retriesExhausted id budget) ↔
        rounds.length = budget ∧ ∀ round ∈ rounds, Encounter.conflicted round = true) ∧
      (∀ round ∈ rounds, Encounter.conflicted round = true →
        Encounter.disturbed id round = true) ∧
      (rounds.countP (Encounter.disturbed id) < budget →
        (∀ x ∈ past, ∃ d, x.before.load id = .ok (some d) ∧ d.id = id ∧
          (x.loads = true → d.version.toNat < UInt64.size - 1)) →
        ∃ x y z d next, rounds.getLast? = some [x, y, z] ∧ x.request = .load id ∧
          x.before.load id = .ok (some d) ∧ y.request = .now ∧ d.edit y.now edit = .ok next ∧
          z.request = .swap id d.version next ∧ result = .ok next) := by
  intro budget result past rounds
  obtain ⟨course, hpast, hcourse⟩ : ∃ course : List (List Encounter), past = course.flatten ∧
      Rounds id edit budget budget course result := rounds_of_run world budget ⟨store, []⟩
  have hrounds : rounds = course := by
    rw [← hcourse.rounds_flatten, ← hpast]
  rw [hrounds]
  have hdisturbed : ∀ round ∈ course, Encounter.conflicted round = true →
      Encounter.disturbed id round = true := by
    intro round hmem hconflict
    obtain ⟨outcome, hround⟩ := hcourse.exists_round hmem
    exact hround.disturbed (hround.conflicted_iff.1 hconflict)
  refine ⟨hcourse.length_le, ?_, ?_, hcourse.retriesExhausted_iff, hdisturbed, ?_⟩
  · intro round hmem
    obtain ⟨outcome, hround⟩ := hcourse.exists_round hmem
    exact hround.requests
  · intro id' n hresult
    rcases hcourse.lost_or_last with ⟨hspent, -⟩ | ⟨lost, last, -, hlast⟩
    · cases hspent.symm.trans hresult
      exact ⟨rfl, rfl⟩
    · exact absurd hresult (hlast.ne_retriesExhausted id' n)
  · intro hfew present
    rcases hcourse.lost_or_last with ⟨-, hlength, hall⟩ | ⟨lost, last, rfl, hlast⟩
    · -- if all rounds had been lost, all would have been disturbed
      have hcount : course.countP (Encounter.disturbed id) = course.length :=
        List.countP_eq_length.2 fun round hmem => hdisturbed round hmem (hall round hmem)
      omega
    · have hlastPresent : ∀ x ∈ last, ∃ d, x.before.load id = .ok (some d) ∧ d.id = id ∧
          (x.loads = true → d.version.toNat + 1 < UInt64.size) := by
        intro x hx
        have hmem : x ∈ past := by
          rw [hpast, List.flatten_append, List.flatten_singleton]
          exact List.mem_append_right _ hx
        obtain ⟨d, hd, hid, hfits⟩ := present x hmem
        exact ⟨d, hd, hid, fun hloads => Nat.add_lt_of_lt_sub (hfits hloads)⟩
      obtain ⟨x, y, z, d, next, rfl, hsucceeds⟩ := hlast.succeeds hlastPresent
      exact ⟨x, y, z, d, next, List.getLast?_concat, hsucceeds⟩

/-- A write that may take two rounds loses the first to another writer, and its second one, in which
nobody disturbs it, brings the edit of the other's document. -/
theorem retries_bounded_after_conflict :
    let doc : DocumentId := ⟨"doc", by decide⟩
    let a : EntryId := ⟨"a", by decide⟩
    let store : Store := (({} : Store).insert ⟨doc, 1, 0, ⟨5⟩, []⟩).2
    let rival : Document := ⟨doc, 2, 0, ⟨7⟩, [⟨a, true, 2, ⟨7⟩⟩]⟩
    let world : Nat → Meanwhile := fun k =>
      ⟨⟨UInt64.ofNat k⟩, if k = 2 then (·.put doc (store.schema.layOut rival)) else (·)⟩
    let settings : Settings := { maxRetries := 1 }
    let past := ((write settings doc (.upsert a)).contested world store).2.past
    let rounds := Encounter.rounds past
    (rounds.map Encounter.conflicted = [true, false] ∧
        rounds.countP (Encounter.disturbed doc) <
          min (settings.maxRetries.toNat + 1) (UInt32.size - 1) ∧
        ∀ x ∈ past, ∃ d, x.before.load doc = .ok (some d) ∧ d.id = doc ∧
          (x.loads = true → d.version.toNat < UInt64.size - 1)) ∧
      ∃ x y z d next, rounds.getLast? = some [x, y, z] ∧ x.request = .load doc ∧
        x.before.load doc = .ok (some d) ∧ y.request = .now ∧
        d.edit y.now (.upsert a) = .ok next ∧ z.request = .swap doc d.version next ∧
        ((write settings doc (.upsert a)).contested world store).1 = .ok next := by
  intro doc a store rival world settings past rounds
  have hrounds : rounds.map Encounter.conflicted = [true, false] := by decide +kernel
  have hfew : rounds.countP (Encounter.disturbed doc) <
      min (settings.maxRetries.toNat + 1) (UInt32.size - 1) := by decide +kernel
  -- the first and the second state of the document are all that the write sees
  have hseen : ∀ x ∈ past, x.before.load doc = .ok (some ⟨doc, 1, 0, ⟨5⟩, []⟩) ∨
      x.before.load doc = .ok (some rival) := by decide +kernel
  have present : ∀ x ∈ past, ∃ d, x.before.load doc = .ok (some d) ∧ d.id = doc ∧
      (x.loads = true → d.version.toNat < UInt64.size - 1) := by
    intro x hx
    rcases hseen x hx with hload | hload
    · exact ⟨_, hload, rfl, fun _ => by decide⟩
    · exact ⟨_, hload, rfl, fun _ => by decide⟩
  obtain ⟨-, -, -, -, -, hsucceeds⟩ :=
    retries_bounded settings doc (.upsert a) world store
  exact ⟨⟨hrounds, hfew, present⟩, hsucceeds hfew present⟩

end Client

end Chronicle
