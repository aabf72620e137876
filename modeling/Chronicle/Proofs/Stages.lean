/-
**Finding or creating, in three stages.**  Two calls create the document that they are made for if
it is not there.  Both go about it in the same way: they try with what is there, they insert a first
document if nothing is, and they try again if somebody has been faster.  They differ in what trying
is: one look at the document, or the rounds of a write.

Main definitions:

* `Client.insertOr`, `Client.orCreate` — **the three stages**, for any way of trying;
* `Client.Creation` — all that can happen in them;
* `Client.Searches` — what is needed of an attempt;
* `Client.ByRounds`, `Client.ByLook` — the two kinds of attempt;
* `Encounter.Overtaken` — a race for creation that is lost.

Main results:

* `Client.touch_eq_orCreate`, `Client.findOrCreate_eq_orCreate` — the two calls go by these stages;
* `Client.creation_of_run` — **the stages take no other course**;
* `Client.Creation.of_notFound`, `Client.Creation.of_overtaken` — a call that finds nothing in the
  end, and a call that has lost the race.
-/

import Chronicle.Proofs.Retries

set_option autoImplicit false

namespace Chronicle

/-! ### Three stages -/

/-- An insertion finds the name taken or succeeds. -/
theorem Store.insert_answer (s : Store) (d : Document) : (s.insert d).1 =
    if s.contains d.id = true then .error (.alreadyExists d.id) else .ok () := by
  rw [insert, contains]
  split <;> rfl

namespace Client

/-- Inserts a first document; if somebody has been faster, goes on with what is there. -/
def insertOr (first : Timestamp → Document) (rest : Call Document) : Call Document :=
  .ask .now fun now =>
    .ask (.insert (first now)) fun
      | .ok () => .done (.ok (first now))
      | .error (.alreadyExists _) => rest
      | .error e => .done (.error (.store e))

/-- Tries with what is there; if nothing is, creates it, and tries again if somebody has been
faster. -/
def orCreate (attempt : Call Document) (first : Timestamp → Document) : Call Document :=
  attempt.bind fun
    | .error (.notFound _) => insertOr first attempt
    | answer => .done answer

/-- A call that inserts is told by what it makes of the answers. -/
theorem ask_insert_ext {first : Timestamp → Document}
    {next next' : Timestamp → Except StoreError Unit → Call Document}
    (hok : ∀ now, next now (.ok ()) = next' now (.ok ()))
    (herror : ∀ now e, next now (.error e) = next' now (.error e)) :
    (Program.ask .now fun now => .ask (.insert (first now)) (next now)) =
      .ask .now fun now => .ask (.insert (first now)) (next' now) := by
  congr 1
  funext now
  congr 1
  funext answer
  match answer with
  | .ok () => exact hok now
  | .error e => exact herror now e

theorem create_eq_insertOr (id : DocumentId) : create id = insertOr (blank id) (load id) :=
  ask_insert_ext (fun _ => rfl) fun _ e => by cases e <;> rfl

theorem createWith_eq_insertOr (settings : Settings) (id : DocumentId) (entries : List EntryId)
    (deleted : Bool) : createWith settings id entries deleted =
      insertOr (firstDocument id entries deleted)
        (write settings id (batchEdit entries deleted)) :=
  ask_insert_ext (fun _ => rfl) fun _ e => by cases e <;> rfl

/-- A batch that makes sense is written, or its document is created with it. -/
theorem touch_eq_orCreate {entries : List EntryId} (h : batchFault? entries = none)
    (settings : Settings) (id : DocumentId) (deleted : Bool) :
    touch settings id entries deleted =
      orCreate (write settings id (batchEdit entries deleted))
        (firstDocument id entries deleted) := by
  rewrite [touch, h, orCreate, createWith_eq_insertOr]
  rfl

/-- A view is that of the document that is there, or of the one created. -/
theorem findOrCreate_eq_orCreate (id : DocumentId) (q : Query) :
    findOrCreate id q =
      (orCreate (load id) (blank id)).bind fun answer => .done (answer.map (·.view q)) := by
  rw [findOrCreate, create_eq_insertOr]
  change _ = Program.ask (.load id) _
  congr 1
  funext answer
  match answer with
  | .error e => rfl
  | .ok none => rfl
  | .ok (some d) => rfl

/-- All that can happen in the three stages, and the result; what can happen in an attempt is left
open. -/
inductive Creation (id : DocumentId) (tries : List Encounter → Except ClientError Document → Prop)
    (first : Timestamp → Document) : List Encounter → Except ClientError Document → Prop
  /-- The first attempt brings the result. -/
  | settled {past : List Encounter} {result : Except ClientError Document}
      (tried : tries past result) (found : ∀ id', result ≠ .error (.notFound id')) :
      Creation id tries first past result
  /-- There is nothing, and nothing yet at the insertion. -/
  | created {past : List Encounter} {id' : DocumentId} {n y : Encounter}
      (tried : tries past (.error (.notFound id'))) (clock : n.request = .now)
      (request : y.request = .insert (first n.now)) (free : y.before.load id = .ok none) :
      Creation id tries first (past ++ [n, y]) (.ok (first n.now))
  /-- There is nothing, but at the insertion there is something; the second attempt brings the
  result. -/
  | overtaken {past past' : List Encounter} {id' : DocumentId} {n y : Encounter}
      {result : Except ClientError Document} (tried : tries past (.error (.notFound id')))
      (clock : n.request = .now) (request : y.request = .insert (first n.now))
      (taken : y.before.load id ≠ .ok none) (again : tries past' result) :
      Creation id tries first (past ++ [n, y] ++ past') result

variable {id : DocumentId} {tries : List Encounter → Except ClientError Document → Prop}
  {attempt : Call Document}

/-- The insertion, from any point of a contest: it succeeds iff there is nothing, and otherwise the
rest follows. -/
theorem insertOr_of_run {first : Timestamp → Document} (hfirst : ∀ now, (first now).id = id)
    (rest : Call Document) (world : Nat → Meanwhile) (c : Contest) :
    ∃ n y : Encounter, ∃ store, n.request = .now ∧ y.request = .insert (first n.now) ∧
      (insertOr first rest).run (Contest.answer world) c =
        Program.run (Contest.answer world)
          (if y.before.load id = .ok none then .done (.ok (first n.now)) else rest)
          ⟨store, c.past ++ [n, y]⟩ := by
  let n := c.meet world .now
  let c₁ : Contest := ⟨n.after, c.past ++ [n]⟩
  let y := c₁.meet world (.insert (first n.now))
  have hpast : c₁.past ++ [y] = c.past ++ [n, y] := List.append_assoc ..
  refine ⟨n, y, y.after, rfl, rfl, ?_⟩
  rw [insertOr, Program.run_contest]
  change Program.run (Contest.answer world) (.ask (.insert (first n.now)) _) c₁ = _
  rw [Program.run_contest, hpast]
  by_cases hfree : y.before.load id = .ok none
  · have hanswer : y.answer = .ok () := by
      refine (Store.insert_answer ..).trans (if_neg ?_)
      rw [hfirst, Store.contains_eq_false_iff.2 hfree]
      exact Bool.false_ne_true
    rw [if_pos hfree, hanswer]
    rfl
  · have hanswer : y.answer = .error (.alreadyExists (first n.now).id) := by
      refine (Store.insert_answer ..).trans (if_pos ?_)
      rw [hfirst]
      rwa [← Bool.not_eq_false, Store.contains_eq_false_iff]
    rw [if_neg hfree, hanswer]

/-- **The stages take no other course**, if every attempt takes one of those that are given. -/
theorem creation_of_run {world : Nat → Meanwhile} (first : Timestamp → Document)
    (hfirst : ∀ now, (first now).id = id) (hattempt : ∀ c : Contest, ∃ past,
      (attempt.run (Contest.answer world) c).2.past = c.past ++ past ∧
        tries past (attempt.run (Contest.answer world) c).1) (c : Contest) :
    ∃ past, ((orCreate attempt first).run (Contest.answer world) c).2.past = c.past ++ past ∧
      Creation id tries first past ((orCreate attempt first).run (Contest.answer world) c).1 := by
  obtain ⟨past, hpast, htried⟩ := hattempt c
  rw [orCreate, Program.run_bind_state]
  generalize (attempt.run (Contest.answer world) c).1 = result at htried
  match result with
  | .ok d => exact ⟨past, hpast, .settled htried nofun⟩
  | .error e =>
      cases e with
      | notFound id' =>
          obtain ⟨n, y, store, hclock, hrequest, hinsert⟩ :=
            insertOr_of_run hfirst attempt world (attempt.run (Contest.answer world) c).2
          dsimp only
          rw [hinsert, hpast, List.append_assoc]
          split
          · next hfree => exact ⟨past ++ [n, y], rfl, .created htried hclock hrequest hfree⟩
          · next htaken =>
              obtain ⟨past', hpast', hagain⟩ := hattempt ⟨store, c.past ++ (past ++ [n, y])⟩
              refine ⟨past ++ [n, y] ++ past', ?_, .overtaken htried hclock hrequest htaken hagain⟩
              rw [hpast', List.append_assoc]
      | _ => exact ⟨past, hpast, .settled htried nofun⟩

/-! ### Lost races -/

end Client

/-- A race for creation that is lost: the document is not there at one question, and there when the
call inserts it. -/
def Encounter.Overtaken (id : DocumentId) (past : List Encounter) : Prop :=
  ∃ x y d, List.Sublist [x, y] past ∧ x.before.load id = .ok none ∧ y.request = .insert d ∧
    y.before.load id ≠ .ok none

namespace Client

/-- What is needed of an attempt: it inserts nothing, and if it reports that there is no document,
there is none at its last question. -/
structure Searches (id : DocumentId)
    (tries : List Encounter → Except ClientError Document → Prop) : Prop where
  inserts_nothing : ∀ {past result}, tries past result → ∀ x ∈ past, ∀ d, x.request ≠ .insert d
  missing : ∀ {past id'}, tries past (.error (.notFound id')) →
    id' = id ∧ ∃ init x, past = init ++ [x] ∧ x.before.load id = .ok none

namespace Creation

variable {id : DocumentId} {tries : List Encounter → Except ClientError Document → Prop}
  {first : Timestamp → Document} {past : List Encounter} {result : Except ClientError Document}

/-- A call that finds nothing in the end has found nothing, then something, and then nothing. -/
theorem of_notFound (h : Creation id tries first past result) (htries : Searches id tries)
    {id' : DocumentId} (hresult : result = .error (.notFound id')) :
    id' = id ∧ ∃ x y z, List.Sublist [x, y, z] past ∧ x.before.load id = .ok none ∧
      y.before.load id ≠ .ok none ∧ z.before.load id = .ok none := by
  cases h with
  | settled tried found => exact absurd hresult (found id')
  | created tried clock request free => cases hresult
  | overtaken tried clock request taken again =>
      subst hresult
      obtain ⟨-, init, x, rfl, hx⟩ := htries.missing tried
      obtain ⟨hid, init', z, rfl, hz⟩ := htries.missing again
      refine ⟨hid, x, _, z, ?_, hx, taken, hz⟩
      rw [List.append_assoc, List.append_assoc]
      refine List.Sublist.trans ?_ (List.sublist_append_right init _)
      refine .cons_cons x (.cons _ (.cons_cons _ ?_))
      exact List.sublist_append_right init' [z]

/-- A call that has lost the race ends with its second attempt. -/
theorem of_overtaken (h : Creation id tries first past result) (htries : Searches id tries)
    (hover : Encounter.Overtaken id past) :
    ∃ init x n y past', past = init ++ [x, n, y] ++ past' ∧ x.before.load id = .ok none ∧
      y.before.load id ≠ .ok none ∧ tries past' result := by
  obtain ⟨x, y, d, hsub, -, hinsert, htaken⟩ := hover
  have hy : y ∈ past := hsub.subset (by simp)
  cases h with
  | settled tried found => exact absurd hinsert (htries.inserts_nothing tried y hy d)
  | @created past' id' n y' tried clock request free =>
      -- the one insertion found the name free
      rcases List.mem_append.1 hy with hy | hy
      · exact absurd hinsert (htries.inserts_nothing tried y hy d)
      · rcases List.mem_pair.1 hy with rfl | rfl
        · cases clock.symm.trans hinsert
        · exact absurd free htaken
  | @overtaken past past' id' n y result tried clock request taken again =>
      obtain ⟨-, init, x, rfl, hx⟩ := htries.missing tried
      refine ⟨init, x, n, y, past', ?_, hx, taken, again⟩
      rw [List.append_assoc init]
      rfl

end Creation

/-! ### The two kinds of attempt -/

end Client

/-- A swap that finds no document has none to find. -/
theorem Store.load_of_swap_notFound {s : Store} {id id' : DocumentId} {expected : UInt64}
    {d : Document} (h : (s.swap id expected d).1 = .error (.notFound id')) :
    s.load id = .ok none := by
  rw [swap] at h
  split at h
  · cases h
  · split at h
    · next hnone => rw [load, hnone]
    · next record hrecord =>
        cases hdecode : s.decode record with
        | error e =>
            obtain ⟨reason, rfl⟩ := corrupt_of_decode hdecode
            rw [hdecode] at h
            cases h
        | ok current =>
            rw [hdecode] at h
            dsimp only at h
            split at h <;> cases h

namespace Client

variable {id : DocumentId} {edit : Edit} {attempts : Nat}

/-- A round that ends for want of a document has none at its last question, be it the load or the
swap. -/
theorem Round.of_notFound {round : List Encounter} {id' : DocumentId}
    (h : Round id edit round (some (.error (.notFound id')))) :
    id' = id ∧ ∃ init x, round = init ++ [x] ∧ x.before.load id = .ok none := by
  generalize hout : some _ = outcome at h
  cases h with
  | unreadable load => cases hout
  | @missing now store load =>
      cases hout
      exact ⟨rfl, [], ⟨now, store, .load id⟩, rfl, load⟩
  | refused load refuses => cases hout
  | @swaps t₁ t₂ t₃ s₁ s₂ s₃ d next load computes =>
      cases hswap : (s₃.swap id d.version next).1 with
      | ok _ =>
          rw [hswap] at hout
          cases hout
      | error e =>
          rw [hswap] at hout
          cases e with
          | notFound id'' =>
              cases hout
              exact ⟨rfl, [_, _], ⟨t₃, s₃, .swap id d.version next⟩, rfl,
                Store.load_of_swap_notFound hswap⟩
          | _ => cases hout

/-- A round that succeeds swaps in its edit of the document that it loaded. -/
theorem Round.of_ok {round : List Encounter} {d : Document}
    (h : Round id edit round (some (.ok d))) :
    ∃ x y z loaded, round = [x, y, z] ∧ x.before.load id = .ok (some loaded) ∧ y.request = .now ∧
      loaded.edit y.now edit = .ok d ∧ z.request = .swap id loaded.version d ∧
      (z.before.swap id loaded.version d).1 = .ok () := by
  generalize hout : some _ = outcome at h
  cases h with
  | unreadable load => cases hout
  | missing load => cases hout
  | refused load refuses => cases hout
  | @swaps t₁ t₂ t₃ s₁ s₂ s₃ loaded next load computes =>
      cases hswap : (s₃.swap id loaded.version next).1 with
      | ok _ =>
          rw [hswap] at hout
          cases hout
          exact ⟨_, _, _, loaded, rfl, load, rfl, computes, rfl, hswap⟩
      | error e =>
          rw [hswap] at hout
          cases e <;> cases hout

/-- An attempt that goes by rounds. -/
def ByRounds (id : DocumentId) (edit : Edit) (attempts : Nat) (past : List Encounter)
    (result : Except ClientError Document) : Prop :=
  ∃ course, past = course.flatten ∧ Rounds id edit attempts attempts course result

theorem byRounds_of_run (settings : Settings) (id : DocumentId) (edit : Edit)
    (world : Nat → Meanwhile) (c : Contest) :
    ∃ past, ((write settings id edit).run (Contest.answer world) c).2.past = c.past ++ past ∧
      ByRounds id edit settings.attempts past
        ((write settings id edit).run (Contest.answer world) c).1 := by
  obtain ⟨course, hpast, hcourse⟩ := rounds_of_run world settings.attempts c
  exact ⟨course.flatten, hpast, course, rfl, hcourse⟩

theorem searches_byRounds : Searches id (ByRounds id edit attempts) := by
  constructor
  · rintro _ result ⟨course, rfl, hcourse⟩ x hx d hinsert
    obtain ⟨round, hround, hx⟩ := List.mem_flatten.1 hx
    obtain ⟨outcome, h⟩ := hcourse.exists_round hround
    obtain ⟨expected, next, hprefix⟩ := h.requests
    have hmem := hprefix.subset (List.mem_map_of_mem hx)
    rw [hinsert] at hmem
    simp at hmem
  · rintro _ id' ⟨course, rfl, hcourse⟩
    rcases hcourse.lost_or_last with ⟨hresult, -⟩ | ⟨lost, last, rfl, hlast⟩
    · cases hresult
    · obtain ⟨hid, init, x, rfl, hx⟩ := hlast.of_notFound
      refine ⟨hid, lost.flatten ++ init, x, ?_, hx⟩
      rw [List.flatten_append, List.flatten_singleton, List.append_assoc]

/-- An attempt that is one look at the document. -/
def ByLook (id : DocumentId) (past : List Encounter)
    (result : Except ClientError Document) : Prop :=
  ∃ x, past = [x] ∧ x.request = .load id ∧ result = match x.before.load id with
    | .error e => .error (.store e)
    | .ok none => .error (.notFound id)
    | .ok (some d) => .ok d

theorem byLook_of_run (id : DocumentId) (world : Nat → Meanwhile) (c : Contest) :
    ∃ past, ((load id).run (Contest.answer world) c).2.past = c.past ++ past ∧
      ByLook id past ((load id).run (Contest.answer world) c).1 := by
  let x := c.meet world (.load id)
  have hrun : (load id).run (Contest.answer world) c = (match x.before.load id with
      | .error e => .error (.store e)
      | .ok none => .error (.notFound id)
      | .ok (some d) => .ok d, ⟨x.after, c.past ++ [x]⟩) := by
    have hanswer : x.answer = x.before.load id := rfl
    rw [load, Program.run_contest, hanswer]
    match x.before.load id with
    | .error e => rfl
    | .ok none => rfl
    | .ok (some d) => rfl
  rw [hrun]
  exact ⟨[x], rfl, x, rfl, rfl, rfl⟩

theorem searches_byLook : Searches id (ByLook id) := by
  constructor
  · rintro _ result ⟨x, rfl, hload, -⟩ y hy d hinsert
    cases List.mem_singleton.1 hy
    cases hload.symm.trans hinsert
  · rintro _ id' ⟨x, rfl, -, hresult⟩
    split at hresult
    · cases hresult
    · next hnone =>
        cases hresult
        exact ⟨rfl, [], x, rfl, hnone⟩
    · cases hresult

end Client

end Chronicle
