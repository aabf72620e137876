/-
**Races for creation.**  A call that creates its document if it is not there may find that somebody
has been faster.  Each of its three stages meets another store, and between any two of its questions
others may create the document, edit it or remove it.  Unless they do both, create it and remove it,
the call does not end with nothing; and unless they remove it, the call goes on from the document
that they have left, whatever has become of it in the meantime.

Main definitions:

* `Company.Fleeting` — a document that comes and goes while a call is going on;
* `Company.Race` — what is known of a call in company that may create its document.

Main results:

* `Client.touch_races`, `Client.findOrCreate_races` — the two calls that do;
* `Company.Race.fleeting` — nothing is found only of a document that comes and goes;
* `Client.touch_of_overtaken`, `Client.findOrCreate_of_overtaken` — the two calls after a lost race;
* `Client.creation_races` — **what comes of a race for creation**.
-/

import Chronicle.Proofs.Company
import Chronicle.Proofs.Stages

set_option autoImplicit false

namespace Chronicle

/-! ### Races -/

namespace Company

variable {ι : Type}

/-- While the call was going on, others have created its document and removed it again; the call
itself has changed nothing. -/
structure Fleeting (id : DocumentId) (others : Exchange ι) (c : Company ι) : Prop where
  idle : ∀ x ∈ c.past, x.Idle
  comes_and_goes : ∃ x y z, List.Sublist [x, y, z] c.past ∧ x.before.load id = .ok none ∧
    y.before.load id ≠ .ok none ∧ z.before.load id = .ok none
  removed : others.removals id < c.others.removals id

/-- A call in company that may create its document. -/
structure Race (id : DocumentId) (others : Exchange ι)
    (tries : List Encounter → Except ClientError Document → Prop) (first : Timestamp → Document)
    (c : Company ι) (result : Except ClientError Document) : Prop where
  removals : others.removals id ≤ c.others.removals id
  finds : c.past.Pairwise (Encounter.Then id (c.others.removals id = others.removals id))
  course : Client.Creation id tries first c.past result
  idle : ∀ x ∈ c.past.dropLast, x.Idle
  fails : ∀ e, result = .error e → ∀ x ∈ c.past, x.Idle

namespace Race

variable {id : DocumentId} {others : Exchange ι} {c : Company ι}
  {tries : List Encounter → Except ClientError Document → Prop} {first : Timestamp → Document}
  {result : Except ClientError Document}

/-- What is there after nothing was is a document, and it stays if documents are kept. -/
theorem present (h : Race id others tries first c result) {x y z : Encounter}
    (hsub : List.Sublist [x, y, z] c.past) (hx : x.before.load id = .ok none)
    (hy : y.before.load id ≠ .ok none) (hkept : c.others.removals id = others.removals id) :
    ∃ d, z.before.load id = .ok (some d) := by
  have hfinds := h.finds.sublist hsub
  rw [List.pairwise_cons, List.pairwise_pair] at hfinds
  obtain ⟨hfirst, hyz⟩ := hfinds
  obtain ⟨found, hfound⟩ := (hfirst y (List.mem_cons_self ..)).readable none hx
  cases found with
  | none => exact absurd hfound hy
  | some d =>
      obtain ⟨d', hd', -⟩ := hyz.present hkept d hfound
      exact ⟨d', hd'⟩

/-- If documents are kept, what stands at a version that was seen before is what was seen. -/
theorem eq_of_version (h : Race id others tries first c result) {x z : Encounter}
    (hsub : List.Sublist [x, z] c.past) (hkept : c.others.removals id = others.removals id)
    {loaded current : Document} (hx : x.before.load id = .ok (some loaded))
    (hz : z.before.load id = .ok (some current)) (hversion : current.version = loaded.version) :
    current = loaded := by
  have hthen := List.pairwise_pair.1 (h.finds.sublist hsub)
  obtain ⟨d, hd, hsame⟩ := hthen.present hkept loaded hx
  cases hd.symm.trans hz
  exact hsame hversion

/-- **Nothing is found only of a document that comes and goes.** -/
theorem fleeting (h : Race id others tries first c result) (htries : Client.Searches id tries)
    {id' : DocumentId} (hresult : result = .error (.notFound id')) :
    id' = id ∧ c.Fleeting id others := by
  obtain ⟨hid, x, y, z, hsub, hx, hy, hz⟩ := h.course.of_notFound htries hresult
  refine ⟨hid, h.fails _ hresult, ⟨x, y, z, hsub, hx, hy, hz⟩, ?_⟩
  refine Nat.lt_of_le_of_ne h.removals fun hkept => ?_
  obtain ⟨d, hd⟩ := h.present hsub hx hy hkept.symm
  cases hz.symm.trans hd

end Race

end Company

/-! ### The two calls that may create -/

namespace Client

variable {ι : Type} [DecidableEq ι] {others : Exchange ι} {id : DocumentId}

/-- A call changes nothing before its last question. -/
theorem idle_dropLast {α : Type} {may : Knowledge → Request → Prop}
    {ends : (request : Request) → request.Answer → α → Prop} {p : Program α}
    (hp : p.Follows may ends {}) (world : Nat → Meanwhile) (store : Store) :
    ∀ x ∈ (p.contested world store).2.past.dropLast, x.Idle := by
  obtain ⟨quiet, last, known, hpast, hquiet, -⟩ := hp.contested world store
  rw [hpast, List.dropLast_concat]
  exact hquiet

/-- A call that fails has changed nothing. -/
theorem idle_of_error {α : Type} {c : Command} {p : Call α} {f : α → Outcome} {e : ClientError}
    (hp : p.Follows c.MayAsk
      (fun request answer result => c.Ends request answer (result.map f)) {})
    {world : Nat → Meanwhile} {store : Store} (he : (p.contested world store).1 = .error e) :
    ∀ x ∈ (p.contested world store).2.past, x.Idle := by
  obtain ⟨quiet, last, known, hpast, hquiet, -, -, hends⟩ := hp.contested world store
  rw [he] at hends
  rw [hpast]
  exact Encounter.forall_idle hquiet (Store.answer_of_not_took hends.not_took)

theorem touch_races (h : others.Sound) (plan : Nat → Interlude ι) (settings : Settings)
    {entries : List EntryId} (hfault : batchFault? entries = none) (deleted : Bool) :
    Company.Race id others (ByRounds id (batchEdit entries deleted) settings.attempts)
      (firstDocument id entries deleted) ((touch settings id entries deleted).amid plan others).2
      ((touch settings id entries deleted).amid plan others).1 := by
  have hserves : (touch settings id entries deleted).Serves (.touch id entries deleted) {} := by
    rcases touch_serves settings id entries deleted with ⟨e, he⟩ | hserves
    · -- a call that begins with a round asks something
      have hwrite := write_serves (c := .touch id entries deleted) rfl rfl settings {}
      rw [touch_eq_orCreate hfault, orCreate] at he
      cases hp : write settings id (batchEdit entries deleted) with
      | done a =>
          rw [hp] at hwrite
          exact hwrite.elim
      | ask request next =>
          rw [hp] at he
          cases he
    · exact hserves {}
  obtain ⟨world, hresult, hpast, hfinds⟩ := hserves.amid h plan
  have hidle := idle_dropLast hserves world others.store
  refine ⟨(hfinds id).1, (hfinds id).2, ?_, hpast ▸ hidle, fun e he => ?_⟩
  · obtain ⟨past, hpast', hcourse⟩ :=
      creation_of_run (firstDocument id entries deleted) (fun _ => rfl)
        (byRounds_of_run settings id (batchEdit entries deleted) world) ⟨others.store, []⟩
    rw [hresult, hpast, Program.contested, touch_eq_orCreate hfault, hpast']
    exact hcourse
  · rw [hpast]
    exact idle_of_error hserves (hresult.symm.trans he)

theorem findOrCreate_races (h : others.Sound) (plan : Nat → Interlude ι) (q : Query) :
    ∃ result, Company.Race id others (ByLook id) (blank id)
        ((findOrCreate id q).amid plan others).2 result ∧
      ((findOrCreate id q).amid plan others).1 = result.map (·.view q) := by
  have hfollows := findOrCreate_follows id q {}
  obtain ⟨world, hresult, hpast, hfinds⟩ := hfollows.amid h plan
  obtain ⟨past, hpast', hcourse⟩ :=
    creation_of_run (blank id) (fun _ => rfl) (byLook_of_run id world) ⟨others.store, []⟩
  -- the view is made of the result at the end
  have hview : (findOrCreate id q).contested world others.store =
      (((orCreate (load id) (blank id)).contested world others.store).1.map (·.view q),
        ((orCreate (load id) (blank id)).contested world others.store).2) := by
    rw [findOrCreate_eq_orCreate]
    exact Program.run_bind_state ..
  have hidle := idle_dropLast hfollows world others.store
  refine ⟨_, ⟨(hfinds id).1, (hfinds id).2, ?_, hpast ▸ hidle, fun e he => ?_⟩,
    hresult.trans (congrArg _ hview)⟩
  · rw [hpast, hview, Program.contested, hpast']
    exact hcourse
  · rw [hpast]
    refine idle_of_error (e := e) hfollows ?_
    rw [hview, he]
    rfl

/-! ### After a lost race -/

/-- A batch that makes no sense is refused before anything is asked. -/
theorem touch_amid_of_fault {entries : List EntryId} {fault : BatchFault}
    (hfault : batchFault? entries = some fault) (plan : Nat → Interlude ι) (settings : Settings)
    (deleted : Bool) : (touch settings id entries deleted).amid plan others =
      (.error (.invalidArgument id fault), ⟨others, []⟩) := by
  rw [touch, hfault]
  rfl

/-- What a batch does not name, it keeps. -/
theorem mem_log_of_batchEdit {d d' : Document} {now : Timestamp} {entries : List EntryId}
    {deleted : Bool} (h : d.edit now (batchEdit entries deleted) = .ok d') {e : Entry}
    (he : e ∈ d.log) (hout : e.id ∉ entries) : e ∈ d'.log := by
  rw [Document.edit_log h, batchEdit, Document.rewritten]
  refine List.mem_append_left _ (List.mem_filter.2 ⟨he, Edit.kept_iff.2 ⟨?_, hout⟩⟩)
  simpa [Edit.targets] using hout

/-- **A lost race leaves the rival's document as the base**, if nothing is removed. -/
theorem touch_of_overtaken (h : others.Sound) {plan : Nat → Interlude ι} {settings : Settings}
    {entries : List EntryId} {deleted : Bool} {d : Document} :
    let touched := (touch settings id entries deleted).amid plan others
    Encounter.Overtaken id touched.2.past → touched.2.others.removals id = others.removals id →
    touched.1 = .ok d →
      ∃ quiet y z current, touched.2.past = quiet ++ [y, z] ∧ (∀ x ∈ quiet, x.Idle) ∧
        y.request = .now ∧ z.request = .swap id current.version d ∧
        z.before.load id = .ok (some current) ∧
        current.edit y.now (batchEdit entries deleted) = .ok d := by
  intro touched hover hkept hresult
  cases hfault : batchFault? entries with
  | some fault =>
      rw [show touched = _ from touch_amid_of_fault hfault ..] at hresult
      cases hresult
  | none =>
      have hrace : Company.Race id others _ _ touched.2 touched.1 :=
        touch_races h plan settings hfault deleted
      obtain ⟨init, w, n, v, _, hpast, -, -, course, rfl, hcourse⟩ :=
        hrace.course.of_overtaken searches_byRounds hover
      rw [hresult] at hcourse
      rcases hcourse.lost_or_last with ⟨hspent, -⟩ | ⟨lost, last, rfl, hlast⟩
      · cases hspent
      · obtain ⟨x, y, z, loaded, rfl, hload, hclock, hedit, hrequest, hswap⟩ := hlast.of_ok
        obtain ⟨-, current, hcurrent, hversion⟩ := Store.swap_eq_ok_iff.1 hswap
        have hpast' : touched.2.past =
            init ++ [w, n, v] ++ lost.flatten ++ [x] ++ [y, z] := by
          rw [hpast, List.flatten_append, List.flatten_singleton]
          simp only [List.append_assoc, List.cons_append, List.nil_append]
        -- the swap finds the version that was loaded, and so the document that was loaded
        have hsub : List.Sublist [x, z] touched.2.past := by
          rw [hpast', List.append_assoc]
          refine List.Sublist.trans ?_ (List.sublist_append_right _ _)
          exact .cons_cons x (.cons y (.refl _))
        cases hrace.eq_of_version hsub hkept hload hcurrent hversion
        refine ⟨_, y, z, loaded, hpast', fun u hu => hrace.idle u ?_, hclock, hrequest, hcurrent,
          hedit⟩
        rw [hpast', List.dropLast_append_of_ne_nil (List.cons_ne_nil y [z])]
        exact List.mem_append_left _ hu

/-- **A lost race leaves a reader with the rival's document**, if nothing is removed. -/
theorem findOrCreate_of_overtaken (h : others.Sound) {plan : Nat → Interlude ι} {q : Query} :
    let viewed := (findOrCreate id q).amid plan others
    Encounter.Overtaken id viewed.2.past → viewed.2.others.removals id = others.removals id →
      ∃ quiet z d, viewed.2.past = quiet ++ [z] ∧ z.request = .load id ∧
        z.before.load id = .ok (some d) ∧ viewed.1 = .ok (d.view q) ∧
        ∀ x ∈ viewed.2.past, x.Idle := by
  intro viewed hover hkept
  obtain ⟨result, hrace, hview⟩ := findOrCreate_races h plan q
  obtain ⟨init, x, n, y, _, hpast, hx, hy, z, rfl, hrequest, hresult⟩ :=
    hrace.course.of_overtaken searches_byLook hover
  obtain ⟨d, hd⟩ : ∃ d, z.before.load id = .ok (some d) := by
    refine hrace.present ?_ hx hy hkept
    rw [hpast, List.append_assoc]
    refine List.Sublist.trans ?_ (List.sublist_append_right _ _)
    exact .cons_cons x (.cons n (.refl _))
  have hidle : z.Idle := by
    obtain ⟨now, before, request⟩ := z
    cases hrequest
    rfl
  refine ⟨_, z, d, hpast, hrequest, hd, ?_, ?_⟩
  · rw [hd] at hresult
    exact hview.trans (congrArg _ hresult)
  · have hearly := hrace.idle
    change ∀ x ∈ viewed.2.past.dropLast, x.Idle at hearly
    rw [show viewed.2.past = _ from hpast, List.dropLast_concat] at hearly
    rw [show viewed.2.past = _ from hpast]
    exact Encounter.forall_idle hearly hidle

/-- **What comes of a lost race.**  Others call as they like, on any documents, before a call and
between its questions, under a schema that gives every document back.  A touch, and a call that
finds or creates, reports that there is no document only of the one that it was made for, and only
if others have created and removed it while the call was going on; the call itself has then changed
nothing.  Suppose that the call loses the race, the document being absent at one of its questions
and there at its insertion, and that the document is not removed.  If the touch succeeds, it has
swapped in the edit that its batch makes of the document stored at that moment, so that whatever
others had written there beside the batch is kept, and nothing that it asked before changed
anything.  A call that finds or creates does succeed, with the view of the document stored at its
last question, and changes nothing at all. -/
theorem creation_races {store : Store} (hs : store.schema.RoundTrips) (before : List (Event ι))
    (plan : Nat → Interlude ι) (settings : Settings) (id : DocumentId) (entries : List EntryId)
    (deleted : Bool) (q : Query) :
    let others := (Exchange.idle store).run before
    let touched := (touch settings id entries deleted).amid plan others
    let viewed := (findOrCreate id q).amid plan others
    (∀ id', touched.1 = .error (.notFound id') → id' = id ∧ touched.2.Fleeting id others) ∧
      (∀ id', viewed.1 = .error (.notFound id') → id' = id ∧ viewed.2.Fleeting id others) ∧
      (∀ d, Encounter.Overtaken id touched.2.past →
        touched.2.others.removals id = others.removals id → touched.1 = .ok d →
        ∃ quiet y z current, touched.2.past = quiet ++ [y, z] ∧ (∀ x ∈ quiet, x.Idle) ∧
          y.request = .now ∧ z.request = .swap id current.version d ∧
          z.before.load id = .ok (some current) ∧
          current.edit y.now (batchEdit entries deleted) = .ok d ∧
          ∀ e ∈ current.log, e.id ∉ entries → e ∈ d.log) ∧
      (Encounter.Overtaken id viewed.2.past →
        viewed.2.others.removals id = others.removals id →
        ∃ quiet z d, viewed.2.past = quiet ++ [z] ∧ z.request = .load id ∧
          z.before.load id = .ok (some d) ∧ viewed.1 = .ok (d.view q) ∧
          ∀ x ∈ viewed.2.past, x.Idle) := by
  intro others touched viewed
  have hsound : others.Sound := Exchange.sound_run (Exchange.sound_idle hs) before
  refine ⟨fun id' hresult => ?_, fun id' hresult => ?_, fun d hover hkept hresult => ?_,
    findOrCreate_of_overtaken hsound⟩
  · cases hfault : batchFault? entries with
    | some fault =>
        rw [show touched = _ from touch_amid_of_fault hfault ..] at hresult
        cases hresult
    | none =>
        exact (touch_races hsound plan settings hfault deleted).fleeting searches_byRounds hresult
  · obtain ⟨result, hrace, hview⟩ := findOrCreate_races hsound plan q
    refine hrace.fleeting searches_byLook ?_
    rw [show viewed.1 = _ from hview] at hresult
    cases result with
    | ok d => cases hresult
    | error e =>
        cases hresult
        rfl
  · obtain ⟨quiet, y, z, current, hpast, hquiet, hclock, hrequest, hcurrent, hedit⟩ :=
      touch_of_overtaken hsound hover hkept hresult
    exact ⟨quiet, y, z, current, hpast, hquiet, hclock, hrequest, hcurrent, hedit,
      fun e he hout => mem_log_of_batchEdit hedit he hout⟩

/-- Two calls for a document that is not there, and before the insertion of each a rival creates it
with an entry of its own.  The touch appends its batch to the rival's entry, and the view is that of
the rival's document; if the rival removes it again before the last question, there is none. -/
theorem creation_races_lost :
    let doc : DocumentId := ⟨"doc", by decide⟩
    let a : EntryId := ⟨"a", by decide⟩
    let b : EntryId := ⟨"b", by decide⟩
    let rival : List (Event Unit) :=
      [.call () {} (.touch doc [b] false), .ask () ⟨0⟩, .ask () ⟨5⟩, .ask () ⟨0⟩]
    let removal : List (Event Unit) := [.call () {} (.delete doc), .ask () ⟨0⟩]
    let plan : Nat → Interlude Unit := fun k =>
      ⟨⟨UInt64.ofNat k⟩, if k = 2 then rival else []⟩
    let plan' : Nat → Interlude Unit := fun k =>
      ⟨⟨UInt64.ofNat k⟩, if k = 2 then rival else if k = 3 then removal else []⟩
    let others : Exchange Unit := (Exchange.idle {}).run []
    let touched := (touch {} doc [a] false).amid plan others
    let viewed := (findOrCreate doc ⟨0, none⟩).amid plan others
    let missed := (findOrCreate doc ⟨0, none⟩).amid plan' others
    let d : Document := ⟨doc, 2, 0, ⟨4⟩, [⟨b, false, 1, ⟨5⟩⟩, ⟨a, false, 2, ⟨4⟩⟩]⟩
    Schema.RoundTrips {} ∧
      ((Encounter.Overtaken doc touched.2.past ∧
          touched.2.others.removals doc = others.removals doc ∧ touched.1 = .ok d) ∧
        ∃ quiet y z current, touched.2.past = quiet ++ [y, z] ∧ (∀ x ∈ quiet, x.Idle) ∧
          y.request = .now ∧ z.request = .swap doc current.version d ∧
          z.before.load doc = .ok (some current) ∧
          current.edit y.now (batchEdit [a] false) = .ok d ∧
          ∀ e ∈ current.log, e.id ∉ [a] → e ∈ d.log) ∧
      ((Encounter.Overtaken doc viewed.2.past ∧
          viewed.2.others.removals doc = others.removals doc) ∧
        ∃ quiet z d, viewed.2.past = quiet ++ [z] ∧ z.request = .load doc ∧
          z.before.load doc = .ok (some d) ∧ viewed.1 = .ok (d.view ⟨0, none⟩) ∧
          ∀ x ∈ viewed.2.past, x.Idle) ∧
      missed.1 = .error (.notFound doc) ∧ missed.2.Fleeting doc others := by
  intro doc a b rival removal plan plan'
  have hs : ({} : Store).schema.RoundTrips := Schema.roundTrips_default
  -- the first question finds nothing, and the third one, the insertion, finds the rival's document
  have hlost : ∀ (past : List Encounter) (d : Document),
      past[0]?.map (·.before.load doc) = some (.ok none) →
      past[2]?.map (·.request) = some (.insert d) →
      past[2]?.map (·.before.contains doc) = some true → Encounter.Overtaken doc past := by
    intro past d habsent hinsert hpresent
    match past with
    | x :: w :: y :: rest =>
        refine ⟨x, y, d, .cons_cons x (.cons w (.cons_cons y (List.nil_sublist rest))),
          Option.some.inj habsent, Option.some.inj hinsert, fun hnone => ?_⟩
        cases (Store.contains_eq_false_iff.2 hnone).symm.trans (Option.some.inj hpresent)
    | [_, _] => cases hinsert
    | [_] => cases hinsert
    | [] => cases hinsert
  obtain ⟨-, -, hbase, hview⟩ := creation_races hs [] plan {} doc [a] false ⟨0, none⟩
  obtain ⟨-, hfleeting, -⟩ := creation_races hs [] plan' {} doc [a] false ⟨0, none⟩
  refine ⟨hs, ⟨⟨?lost, ?kept, ?result⟩, hbase _ ?lost ?kept ?result⟩,
    ⟨⟨?viewLost, ?viewKept⟩, hview ?viewLost ?viewKept⟩, ?missed, (hfleeting doc ?missed).2⟩
  case lost =>
    exact hlost _ (firstDocument doc [a] false ⟨1⟩) (by decide +kernel) (by decide +kernel)
      (by decide +kernel)
  case viewLost =>
    exact hlost _ (blank doc ⟨1⟩) (by decide +kernel) (by decide +kernel) (by decide +kernel)
  all_goals decide +kernel

end Client

end Chronicle
