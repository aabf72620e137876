/-
**Created or edited.**  A touch records a batch in a document that is there by an edit, and in one
that is not there by making it up: the first version, the stamps, the watermark and the order of the
log are written down by hand.  What is made up is what the same edit makes of an empty document that
nothing has written to.  This holds because a batch names no entry twice; of a list that does, the
edit would quietly drop the repetitions, and such a list is turned down before anything is asked.

Main definitions:

* `Store.Basis` — **the document that a touch starts from**, whether it is there or not.

Main results:

* `Client.firstRepeated?_eq_some_iff`, `Client.batchFault?_eq_repeated_iff` — which name a list is
  turned down for;
* `Client.edit_fresh` — what is made up is the edit of an empty document;
* `Client.run_write_of_absent`, `Client.run_write_of_present`, `Client.run_touch` — what becomes of a
  call when nobody else is there;
* `Client.touch_agrees_with_batch` — **a touch is a batch, on what is there or on nothing**.
-/

import Chronicle.Proofs.Batches
import Chronicle.Proofs.Stages
import Chronicle.Proofs.WellFormed

set_option autoImplicit false

namespace Chronicle

namespace Client

/-! ### Lists that make no batch -/

/-- The name found is the first that was seen or stands earlier in the list. -/
theorem firstRepeated?_eq_some_iff {seen ids : List EntryId} {x : EntryId} :
    firstRepeated? seen ids = some x ↔ ∃ before after, ids = before ++ x :: after ∧
      before.Nodup ∧ (∀ id ∈ before, id ∉ seen) ∧ (x ∈ seen ∨ x ∈ before) := by
  induction ids generalizing seen with
  | nil => simp [firstRepeated?]
  | cons id ids ih =>
      rw [firstRepeated?]
      by_cases hid : id ∈ seen
      · rw [if_pos (by simpa using hid)]
        constructor
        · rintro ⟨⟩
          exact ⟨[], ids, rfl, List.nodup_nil, by simp, .inl hid⟩
        · rintro ⟨before, after, hsplit, -, hnew, -⟩
          cases before with
          | nil =>
              cases hsplit
              rfl
          | cons y before =>
              cases hsplit
              exact absurd hid (hnew id (List.mem_cons_self ..))
      · rw [if_neg (by simpa using hid), ih]
        constructor
        · rintro ⟨before, after, rfl, hnodup, hnew, hx⟩
          refine ⟨id :: before, after, rfl, List.nodup_cons.2 ⟨?_, hnodup⟩, ?_, ?_⟩
          · exact fun h => hnew id h (List.mem_cons_self ..)
          · refine List.forall_mem_cons.2 ⟨hid, fun y hy hseen => ?_⟩
            exact hnew y hy (List.mem_cons_of_mem _ hseen)
          · grind
        · rintro ⟨before, after, hsplit, hnodup, hnew, hx⟩
          cases before with
          | nil =>
              cases hsplit
              exact absurd (hx.resolve_right List.not_mem_nil) hid
          | cons y before =>
              cases hsplit
              rw [List.nodup_cons] at hnodup
              refine ⟨before, after, rfl, hnodup.2, fun y hy => ?_, ?_⟩
              · refine List.not_mem_cons_of_ne_of_not_mem ?_ (hnew y (List.mem_cons_of_mem _ hy))
                rintro rfl
                exact hnodup.1 hy
              · grind

/-- A list that is not empty is turned down for the first name that stands earlier in it. -/
theorem batchFault?_eq_repeated_iff {entries : List EntryId} {x : EntryId} :
    batchFault? entries = some (.repeated x) ↔
      ∃ before after, entries = before ++ x :: after ∧ before.Nodup ∧ x ∈ before := by
  have hfirst : firstRepeated? [] entries = some x ↔
      ∃ before after, entries = before ++ x :: after ∧ before.Nodup ∧ x ∈ before := by
    rw [firstRepeated?_eq_some_iff]
    simp
  rw [← hfirst]
  cases entries with
  | nil => simp [batchFault?, firstRepeated?]
  | cons e entries => simp [batchFault?]

theorem batchFault?_eq_empty_iff {entries : List EntryId} :
    batchFault? entries = some .empty ↔ entries = [] := by
  cases entries with
  | nil => simp [batchFault?]
  | cons e entries => simp [batchFault?]

/-! ### The document made up -/

/-- **What is made up is the edit of an empty document**, if no entry is named twice. -/
theorem edit_fresh (id : DocumentId) {entries : List EntryId} (h : entries.Nodup) (deleted : Bool)
    (now : Timestamp) : (Document.fresh id now).edit now (batchEdit entries deleted) =
      .ok (firstDocument id entries deleted now) := by
  have hids : (entries.map fun e => (⟨e, deleted, 0, .zero⟩ : Entry)).map (·.id) = entries := by
    rw [List.map_map]
    exact List.map_id _
  have hfirsts : Entry.firstOccurrences [] (entries.map fun e => ⟨e, deleted, 0, .zero⟩) =
      entries.map fun e => ⟨e, deleted, 0, .zero⟩ :=
    Entry.firstOccurrences_of_nodup (hids.symm ▸ h) fun _ _ => List.not_mem_nil
  refine Document.edit_eq_ok_iff.2 ⟨Document.firstVersion, rfl, ?_⟩
  rw [batchEdit, Document.rewritten_replace, ← Entry.firstOccurrences_eq_leading, hfirsts, hids,
    List.map_map]
  rfl

/-- The edit of a touch, whatever version and time its entries come with. -/
theorem edit_batchEdit (d : Document) (now : Timestamp) (entries : List EntryId) (deleted : Bool)
    (version : UInt64) (updated : Timestamp) :
    d.edit now (.replace entries (entries.map fun e => ⟨e, deleted, version, updated⟩)) =
      d.edit now (batchEdit entries deleted) := by
  rw [Document.edit_eq_map, Document.edit_eq_map, batchEdit]
  congr 1
  funext v
  rw [Document.rewritten_replace_congr (fun _ _ => Iff.rfl)]
  rw [List.map_map, List.map_map]
  rfl

end Client

/-! ### Calls when nobody else is there -/

/-- At least one round may be taken. -/
theorem Settings.attempts_pos (settings : Settings) : 0 < settings.attempts := by
  rw [attempts, UInt32.size]
  omega

/-- A question to a store of one's own is answered, and the program goes on with what it left. -/
theorem Program.run_answer {α : Type} {request : Request} {next : request.Answer → Program α}
    (now : Timestamp) (s : Store) : (ask request next).run (Store.answer now) s =
      (next (Store.answer now request s).1).run (Store.answer now)
        (Store.answer now request s).2 := rfl

namespace Client

variable {s : Store} {settings : Settings} {id : DocumentId} {edit : Edit} {now : Timestamp}

/-- A write finds nothing where nothing is. -/
theorem run_write_of_absent (hload : s.load id = .ok none) :
    (write settings id edit).run (Store.answer now) s = (.error (.notFound id), s) := by
  obtain ⟨left, hleft⟩ := Nat.exists_eq_add_one_of_ne_zero settings.attempts_pos.ne'
  have hanswer : Store.answer now (.load id) s = (.ok none, s) := congrArg (·, s) hload
  rw [write, hleft, rounds, Program.run_answer, hanswer]
  rfl

/-- A write of a document that is there, under its own name, stores its edit. -/
theorem run_write_of_present {d next : Document} (hload : s.load id = .ok (some d))
    (hid : d.id = id) (hedit : d.edit now edit = .ok next) :
    (write settings id edit).run (Store.answer now) s =
      (.ok next, { s with records := s.records.put id (s.schema.layOut next) }) := by
  obtain ⟨left, hleft⟩ := Nat.exists_eq_add_one_of_ne_zero settings.attempts_pos.ne'
  have hanswer : Store.answer now (.load id) s = (.ok (some d), s) := congrArg (·, s) hload
  have hok : (s.swap id d.version next).1 = .ok () :=
    Store.swap_eq_ok_iff.2 ⟨(Document.edit_id hedit).trans hid, d, hload, rfl⟩
  have hswap : Store.answer now (.swap id d.version next) s =
      (.ok (), { s with records := s.records.put id (s.schema.layOut next) }) :=
    Prod.ext hok (Store.swap_of_ok hok)
  have hclock : Store.answer now .now s = (now, s) := rfl
  rw [write, hleft, rounds, Program.run_answer, hanswer]
  dsimp only
  rw [Program.run_answer, hclock]
  dsimp only
  rw [hedit]
  dsimp only
  rw [Program.run_answer, hswap]
  rfl

end Client

/-! ### Touches -/

/-- The document that a touch starts from at a reading of the clock. -/
inductive Store.Basis (s : Store) (id : DocumentId) (now : Timestamp) : Document → Prop
  /-- There is none, so it is an empty one that nothing has written to. -/
  | absent (free : s.load id = .ok none) : Basis s id now (.fresh id now)
  /-- The one that is there, under its own name and with a version to come. -/
  | present {d : Document} (held : s.load id = .ok (some d)) (named : d.id = id)
      (fits : d.version.toNat + 1 < UInt64.size) : Basis s id now d

namespace Client

variable {s : Store} {id : DocumentId} {now : Timestamp} {base : Document} {entries : List EntryId}

/-- An insertion where nothing is stores its document. -/
theorem run_insertOr_of_absent {first : Timestamp → Document} {rest : Call Document}
    (hid : (first now).id = id) (hload : s.load id = .ok none) :
    (insertOr first rest).run (Store.answer now) s =
      (.ok (first now), { s with records := s.records.put id (s.schema.layOut (first now)) }) := by
  have hok : (s.insert (first now)).1 = .ok () := by
    rw [Store.insert_answer, hid, Store.contains_eq_false_iff.2 hload]
    rfl
  have hinsert : Store.answer now (.insert (first now)) s =
      (.ok (), { s with records := s.records.put id (s.schema.layOut (first now)) }) :=
    Prod.ext hok (hid ▸ (Store.insert_of_ok hok).2)
  have hclock : Store.answer now .now s = (now, s) := rfl
  rw [insertOr, Program.run_answer, hclock]
  dsimp only
  rw [Program.run_answer, hinsert]
  rfl

/-- **A touch when nobody else is there** stores what its batch makes of the document that it starts
from. -/
theorem run_touch (hfault : batchFault? entries = none) (hbase : s.Basis id now base)
    (settings : Settings) (deleted : Bool) : ∃ d, base.edit now (batchEdit entries deleted) = .ok d ∧
      (touch settings id entries deleted).run (Store.answer now) s =
        (.ok d, { s with records := s.records.put id (s.schema.layOut d) }) := by
  rw [touch_eq_orCreate hfault, orCreate, Program.run_bind_state]
  cases hbase with
  | absent free =>
      refine ⟨_, edit_fresh id (nodup_of_batchFault? hfault) deleted now, ?_⟩
      rw [run_write_of_absent free]
      exact run_insertOr_of_absent rfl free
  | present held named fits =>
      obtain ⟨next, hedit⟩ := Document.edit_of_fits fits now (batchEdit entries deleted)
      refine ⟨next, hedit, ?_⟩
      rw [run_write_of_present held named hedit]
      rfl

/-- **A touch is a batch, on what is there or on nothing.**  With nobody else there, and whether the
document is there, with a version to come, or not: a touch succeeds iff its list names something and
nothing twice.  It then returns, and stores under the name asked for and under no other, exactly what
the batch of these names makes of the stored document, or of an empty one that nothing has written
to.  Any other list is turned down whatever the store holds, without a question to it: for being
empty, or for the first name that stands earlier in the list. -/
theorem touch_agrees_with_batch (settings : Settings) (s : Store) (id : DocumentId)
    (entries : List EntryId) (deleted : Bool) (now : Timestamp) :
    let touched := (touch settings id entries deleted).run (Store.answer now) s
    (∀ base, s.Basis id now base →
      ((∃ d, touched.1 = .ok d) ↔ entries ≠ [] ∧ entries.Nodup) ∧
      ∀ d, touched.1 = .ok d →
        (∀ version updated, base.edit now
          (.replace entries (entries.map fun e => ⟨e, deleted, version, updated⟩)) = .ok d) ∧
        touched.2 = { s with records := s.records.put id (s.schema.layOut d) } ∧
        (s.schema.RoundTrips →
          ∀ id', touched.2.load id' = if id' = id then .ok (some d) else s.load id')) ∧
      (¬ (entries ≠ [] ∧ entries.Nodup) → ∃ fault,
        touch settings id entries deleted = .done (.error (.invalidArgument id fault)) ∧
        (fault = .empty ↔ entries = []) ∧
        ∀ x, fault = .repeated x ↔
          ∃ before after, entries = before ++ x :: after ∧ before.Nodup ∧ x ∈ before) := by
  intro touched
  rw [← batchFault?_eq_none_iff]
  refine ⟨fun base hbase => ?_, fun hfault => ?_⟩
  · cases hfault : batchFault? entries with
    | some fault =>
        have hrefused : touched = (.error (.invalidArgument id fault), s) := by
          change (touch settings id entries deleted).run (Store.answer now) s = _
          rw [touch, hfault]
          rfl
        rw [hrefused]
        refine ⟨iff_of_false ?_ (Option.some_ne_none fault), fun d hd => by cases hd⟩
        rintro ⟨d, hd⟩
        cases hd
    | none =>
        obtain ⟨d, hedit, hrun⟩ := run_touch hfault hbase settings deleted
        have htouched : touched = _ := hrun
        rw [htouched]
        refine ⟨iff_of_true ⟨d, rfl⟩ rfl, ?_⟩
        rintro _ ⟨⟩
        refine ⟨fun version updated => ?_, rfl, fun hs id' => Store.load_put hs d id id'⟩
        rw [edit_batchEdit, hedit]
  · obtain ⟨fault, hfault⟩ := Option.ne_none_iff_exists'.1 hfault
    refine ⟨fault, by rw [touch, hfault], ?_, fun x => ?_⟩
    · rw [← batchFault?_eq_empty_iff, hfault, Option.some.injEq]
    · rw [← batchFault?_eq_repeated_iff, hfault, Option.some.injEq]

/-- The same touch creates a document, and moves its entries to the end of one that is there; a list
that names two entries twice is turned down for the one that comes back first. -/
theorem touch_agrees_with_batch_either_way :
    let doc : DocumentId := ⟨"doc", by decide⟩
    let a : EntryId := ⟨"a", by decide⟩
    let b : EntryId := ⟨"b", by decide⟩
    let c : EntryId := ⟨"c", by decide⟩
    let d : Document := ⟨doc, 3, 1, ⟨20⟩, [⟨a, false, 2, ⟨10⟩⟩, ⟨c, true, 3, ⟨20⟩⟩]⟩
    let empty : Store := {}
    let held : Store := (empty.insert d).2
    let created : Document := ⟨doc, 1, 0, ⟨30⟩, [⟨b, true, 1, ⟨30⟩⟩, ⟨a, true, 1, ⟨30⟩⟩]⟩
    let edited : Document :=
      ⟨doc, 4, 1, ⟨30⟩, [⟨c, true, 3, ⟨20⟩⟩, ⟨b, true, 4, ⟨30⟩⟩, ⟨a, true, 4, ⟨30⟩⟩]⟩
    let touched := fun s : Store => (touch {} doc [b, a] true).run (Store.answer ⟨30⟩) s
    (empty.Basis doc ⟨30⟩ (.fresh doc ⟨30⟩) ∧ (touched empty).1 = .ok created ∧
        (touched empty).2.load doc = .ok (some created)) ∧
      (held.Basis doc ⟨30⟩ d ∧ (touched held).1 = .ok edited ∧
        (touched held).2.load doc = .ok (some edited)) ∧
      touch {} doc [a, b, c, b, a] true = .done (.error (.invalidArgument doc (.repeated b))) := by
  intro doc a b c d empty held created edited touched
  have habsent : empty.Basis doc ⟨30⟩ (.fresh doc ⟨30⟩) := .absent rfl
  have hload : held.load doc = .ok (some d) := by decide +kernel
  have hpresent : held.Basis doc ⟨30⟩ d := .present hload rfl (by decide)
  have hvalid : [b, a] ≠ [] ∧ [b, a].Nodup := by decide
  refine ⟨⟨habsent, ?_⟩, ⟨hpresent, ?_⟩, ?_⟩
  · obtain ⟨hiff, hstores⟩ :=
      (touch_agrees_with_batch {} empty doc [b, a] true ⟨30⟩).1 _ habsent
    obtain ⟨d', hd'⟩ := hiff.2 hvalid
    obtain ⟨hedit, -, hloads⟩ := hstores d' hd'
    cases (hedit 0 .zero).symm.trans (show _ = Except.ok created from rfl)
    exact ⟨hd', hloads Schema.roundTrips_default doc⟩
  · obtain ⟨hiff, hstores⟩ :=
      (touch_agrees_with_batch {} held doc [b, a] true ⟨30⟩).1 _ hpresent
    obtain ⟨d', hd'⟩ := hiff.2 hvalid
    obtain ⟨hedit, -, hloads⟩ := hstores d' hd'
    cases (hedit 0 .zero).symm.trans (show _ = Except.ok edited from rfl)
    exact ⟨hd', hloads Schema.roundTrips_default doc⟩
  · obtain ⟨fault, htouch, -, hrepeated⟩ :=
      (touch_agrees_with_batch {} empty doc [a, b, c, b, a] true ⟨30⟩).2 (by decide)
    rw [htouch, (hrepeated b).2 ⟨[a, b, c], [a], rfl, by decide, by decide⟩]

end Client

end Chronicle
