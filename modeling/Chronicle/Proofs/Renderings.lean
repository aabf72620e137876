/-
**Many ways to say the same.**  A thing is written as data in one way, and may be given in many: an
object may hold members that nobody asked for, it may leave out a field whose default is meant, and a
record may be an array of its fields in order; and all of that again for the things inside it, the
entries of a log, the reason in a view, the schema in settings.  This module says once which values
render a thing, field by field and without a word about reading, and shows that each of them is read
as that thing.  The form in which it is written is one of them.

Main definitions:

* `Slot` — a field: the values that give it, and whether it may be left out;
* `Json.Renders` — **the values that render a thing** with given fields, as an object or an array;
* `Entry.slots`, `Document.slots`, `Query.slots`, `Suppression.slots`, `View.slots`, `Schema.slots`,
  `Settings.slots` — the fields of each kind of thing;
* `Json.ReadsBack` — what it is to read back as itself, in all of these ways.

Main results:

* `Json.Renders.read` — a record is read from its renderings, if its fields are;
* `Entry.ofJson_of_renders` and its companions — every rendering is read as what it renders;
* `Json.readsBack_of_written` — the written form, with more members or with fewer, is a rendering;
* `Json.forms_read_back` — **all seven kinds of things read back as themselves**.
-/

import Chronicle.Form.Settings
import Chronicle.Form.View
import Chronicle.Proofs.Grammar

set_option autoImplicit false

namespace Chronicle

/-! ### Fields -/

/-- A field of a thing, as data may give it. -/
structure Slot where
  name : String
  /-- The values that give the field what it has. -/
  Given : Json → Prop
  /-- Whether the field may be left out: then to leave it out means what it has. -/
  Omissible : Prop

namespace Slot

/-- A field that one value gives. -/
def exact (name : String) (v : Json) (omissible : Prop) : Slot :=
  ⟨name, (· = v), omissible⟩

/-- Whether the members of an object give a field, or leave it out where they may. -/
def In (slot : Slot) (members : List (String × Json)) : Prop :=
  (∃ v, Assoc.get? slot.name members = some v ∧ slot.Given v) ∨
    slot.Omissible ∧ Assoc.get? slot.name members = none

/-- Whether every value that gives a field is read as `a`. -/
def Reads {α : Type} (slot : Slot) (read : Json → Reading α) (a : α) : Prop :=
  ∀ v, slot.Given v → read v = .ok a

variable {α : Type} {slot : Slot} {slots : List Slot} {read : Json → Reading α} {a standard : α}
  {members : List (String × Json)} {items : List Json}

theorem Reads.exact {name : String} {v : Json} {omissible : Prop} (h : read v = .ok a) :
    (exact name v omissible).Reads read a := by
  rintro _ rfl
  exact h

/-- A field that may not be left out is there. -/
theorem In.member? (h : slot.In members) (hrequired : ¬ slot.Omissible)
    (hreads : slot.Reads read a) : Json.member? slot.name read members = .ok (some a) := by
  rcases h with ⟨v, hv, hgiven⟩ | ⟨hleft, -⟩
  · exact Json.member?_eq_some_iff.2 ⟨v, hv, hreads v hgiven⟩
  · exact absurd hleft hrequired

theorem In.get?_eq {name : String} {v : Json} (h : (exact name v False).In members) :
    Assoc.get? name members = some v := by
  rcases h with ⟨w, hw, hgiven⟩ | ⟨hleft, -⟩
  · exact hw.trans (congrArg some hgiven)
  · exact hleft.elim

/-- A field that may be left out is there, or is what it is by default. -/
theorem In.member?_getD (h : slot.In members) (hdefault : slot.Omissible → a = standard)
    (hreads : slot.Reads read a) :
    ∃ o, Json.member? slot.name read members = .ok o ∧ o.getD standard = a := by
  rw [Json.member?_getD_iff]
  rcases h with ⟨v, hv, hgiven⟩ | ⟨hleft, hnone⟩
  · exact .inl ⟨v, hv, hreads v hgiven⟩
  · exact .inr ⟨hnone, hdefault hleft⟩

/-- In an array that gives all fields, each stands at its index. -/
theorem exists_given (h : List.Forall₂ Slot.Given slots items) (i : Nat)
    (hslot : slots[i]? = some slot) : ∃ v, items[i]? = some v ∧ slot.Given v := by
  induction h generalizing i with
  | nil => simp at hslot
  | cons hgiven _ ih =>
      cases i with
      | zero =>
          cases hslot
          exact ⟨_, rfl, hgiven⟩
      | succ i => exact ih i hslot

theorem item? (h : List.Forall₂ Slot.Given slots items) (i : Nat) (hslot : slots[i]? = some slot)
    (hreads : slot.Reads read a) : RecordForm.item? i read items = .ok (some a) := by
  obtain ⟨v, hv, hgiven⟩ := exists_given h i hslot
  rw [RecordForm.item?, hv]
  exact congrArg (Except.map some) (hreads v hgiven)

theorem item (form : RecordForm) (h : List.Forall₂ Slot.Given slots items) (i : Nat)
    (hslot : slots[i]? = some slot) (hreads : slot.Reads read a) :
    form.item i read items = .ok a := by
  rw [RecordForm.item, item? h i hslot hreads]
  rfl

end Slot

/-! ### Renderings -/

namespace Json

/-- The values that render a thing with given fields: an object that gives each of them or leaves it
out where it may, whatever else it holds, and the array that gives all of them in order. -/
inductive Renders (slots : List Slot) : Json → Prop
  | object {members : List (String × Json)} (fields : ∀ slot ∈ slots, slot.In members) :
      Renders slots (.obj members)
  | array {items : List Json} (fields : List.Forall₂ Slot.Given slots items) :
      Renders slots (.arr items)

/-- **A record is read from its renderings** if both its readers find the fields. -/
theorem Renders.read {α : Type} {form : RecordForm} {slots : List Slot}
    {ofMembers : List (String × Json) → Reading α} {ofItems : List Json → Reading α} {a : α}
    (hlength : slots.length = form.fields.length)
    (hmembers : ∀ members, (∀ slot ∈ slots, slot.In members) → ofMembers members = .ok a)
    (hitems : ∀ items, List.Forall₂ Slot.Given slots items → ofItems items = .ok a) {v : Json}
    (h : v.Renders slots) : form.read ofMembers ofItems v = .ok a := by
  cases h with
  | object fields => exact hmembers _ fields
  | @array items fields =>
      have hclose : form.close items = .ok () := by
        rw [RecordForm.close, if_neg]
        have := fields.length_eq
        omega
      rw [RecordForm.read, hitems items fields, hclose]
      rfl

/-- The members of an object that gives all fields in order, as things are written. -/
structure WritesOut (slots : List Slot) (members : List (String × Json)) : Prop where
  names : members.map (·.1) = slots.map (·.name)
  distinct : (members.map (·.1)).Nodup
  given : List.Forall₂ Slot.Given slots (members.map (·.2))

namespace WritesOut

variable {slots : List Slot} {members : List (String × Json)}

/-- Each field is found under its name. -/
theorem exists_get? (h : WritesOut slots members) {slot : Slot} (hslot : slot ∈ slots) :
    ∃ v, Assoc.get? slot.name members = some v ∧ slot.Given v := by
  obtain ⟨i, hi, rfl⟩ := List.getElem_of_mem hslot
  obtain ⟨v, hv, hgiven⟩ := Slot.exists_given h.given i (List.getElem?_eq_getElem hi)
  rw [List.getElem?_map, Option.map_eq_some_iff] at hv
  obtain ⟨p, hp, rfl⟩ := hv
  -- the member at this index has the name of the field at this index
  have hname : p.1 = slots[i].name := by
    have hnames := congrArg (·[i]?) h.names
    simpa [hp, hi] using hnames
  refine ⟨p.2, ?_, hgiven⟩
  rw [← hname]
  exact Assoc.get?_of_mem h.distinct (List.mem_of_getElem? hp)

theorem renders (h : WritesOut slots members) : (Json.obj members).Renders slots :=
  .object fun _ hslot => .inl (h.exists_get? hslot)

end WritesOut

/-- The written form is a rendering. -/
theorem renders_of_written {slots : List Slot} {written : Json}
    (h : ∃ members, written = .obj members ∧ WritesOut slots members) : written.Renders slots := by
  obtain ⟨members, rfl, hwrites⟩ := h
  exact hwrites.renders

/-! ### Plain values -/

theorem count_natural {n : Nat} (h : n < UInt64.size) : count (natural n) = .ok n :=
  naturalBelow_natural h

theorem countBound_ofWord64 (n : UInt64) : countBound (ofWord64 n) = .ok n := by
  rw [countBound, ofWord64, count_natural n.toNat_lt_size]
  exact congrArg Except.ok UInt64.ofNat_toNat

theorem word32_natural (n : UInt32) : word32 (natural n.toNat) = .ok n := by
  rw [word32, naturalBelow_natural n.toNat_lt_size]
  exact congrArg Except.ok UInt32.ofNat_toNat

/-- A bound that may be missing reads back. -/
theorem optional_ofOption (o : Option UInt64) :
    optional countBound (ofOption ofWord64 o) = .ok o := by
  cases o with
  | none => rfl
  | some n =>
      change (countBound (ofWord64 n)).map some = .ok (some n)
      rw [countBound_ofWord64]
      rfl

/-- A rendering is never `null`, so it is read where `null` may stand as well. -/
theorem Renders.optional {α : Type} {read : Json → Reading α} {slots : List Slot} {v : Json} {a : α}
    (h : v.Renders slots) (hread : read v = .ok a) : Json.optional read v = .ok (some a) := by
  cases h with
  | object fields => exact congrArg (Except.map some) hread
  | array fields => exact congrArg (Except.map some) hread

/-- Values that are read one by one are read as a list. -/
theorem list_of_forall₂ {α : Type} {read : Json → Reading α} {l : List α} {items : List Json}
    (h : List.Forall₂ (fun a item => read item = .ok a) l items) :
    list read (.arr items) = .ok l := by
  rw [list]
  induction h with
  | nil => rfl
  | cons hread _ ih =>
      rw [List.mapM_cons, hread, ih]
      rfl

end Json

/-! ### Entries and documents -/

namespace Entry

/-- The fields of an entry: none may be left out. -/
def slots (e : Entry) : List Slot :=
  [.exact "e_id" e.id.toJson False, .exact "deleted" (.bool e.deleted) False,
    .exact "version" (.ofWord64 e.version) False, .exact "update_time" e.updated.toJson False]

theorem ofJson_of_renders {e : Entry} {v : Json} (h : v.Renders e.slots) : ofJson v = .ok e := by
  refine h.read rfl ?_ ?_
  · intro members fields
    simp only [slots, List.forall_mem_cons] at fields
    obtain ⟨hid, hdeleted, hversion, hupdated, -⟩ := fields
    exact ofMembers_eq_ok_iff.2 ⟨hid.member? not_false (.exact (Id.ofJson_toJson e.id)),
      hdeleted.member? not_false (.exact (Json.boolean_eq_ok_iff.2 rfl)),
      hversion.member? not_false (.exact (Json.word64_ofWord64 e.version)),
      hupdated.member? not_false (.exact (Timestamp.ofJson_toJson e.updated))⟩
  · intro items fields
    rw [ofItems, Slot.item form fields 0 rfl (.exact (Id.ofJson_toJson e.id)),
      Slot.item form fields 1 rfl (.exact (Json.boolean_eq_ok_iff.2 rfl)),
      Slot.item form fields 2 rfl (.exact (Json.word64_ofWord64 e.version)),
      Slot.item form fields 3 rfl (.exact (Timestamp.ofJson_toJson e.updated))]
    rfl

theorem writesOut (e : Entry) :
    ∃ members, e.toJson = .obj members ∧ Json.WritesOut e.slots members :=
  ⟨_, rfl, rfl, by simp [members], .cons rfl (.cons rfl (.cons rfl (.cons rfl .nil)))⟩

/-- The field of a log: an array of renderings of its entries. -/
def logSlot (log : List Entry) (omissible : Prop) : Slot :=
  ⟨"logs", fun v => ∃ items, v = .arr items ∧
    List.Forall₂ (fun (e : Entry) item => item.Renders e.slots) log items, omissible⟩

theorem logSlot_reads (log : List Entry) (omissible : Prop) :
    (logSlot log omissible).Reads (Json.list ofJson) log := by
  rintro _ ⟨items, rfl, hitems⟩
  exact Json.list_of_forall₂ (hitems.imp fun _ _ => ofJson_of_renders)

/-- The entries in their written form give a log. -/
theorem given_logSlot (log : List Entry) (omissible : Prop) :
    (logSlot log omissible).Given (.arr (log.map toJson)) := by
  refine ⟨_, rfl, ?_⟩
  rw [List.forall₂_map_right_iff, List.forall₂_same]
  intro e _
  exact Json.renders_of_written e.writesOut

end Entry

namespace Document

/-- The fields of a document: a watermark of zero and an empty log may be left out. -/
def slots (d : Document) : List Slot :=
  [.exact "d_id" d.id.toJson False, .exact "version" (.ofWord64 d.version) False,
    .exact "deleted" (.ofWord64 d.watermark) (d.watermark = 0),
    .exact "update_time" d.updated.toJson False, Entry.logSlot d.log (d.log = [])]

theorem ofJson_of_renders {d : Document} {v : Json} (h : v.Renders d.slots) :
    ofJson v = .ok d := by
  refine h.read rfl ?_ ?_
  · intro members fields
    simp only [slots, List.forall_mem_cons] at fields
    obtain ⟨hid, hversion, hwatermark, hupdated, hlog, -⟩ := fields
    exact ofMembers_eq_ok_iff.2 ⟨hid.member? not_false (.exact (Id.ofJson_toJson d.id)),
      hversion.member? not_false (.exact (Json.word64_ofWord64 d.version)),
      hwatermark.member?_getD (fun h => h) (.exact (Json.word64_ofWord64 d.watermark)),
      hupdated.member? not_false (.exact (Timestamp.ofJson_toJson d.updated)),
      hlog.member?_getD (fun h => h) (Entry.logSlot_reads d.log _)⟩
  · intro items fields
    rw [ofItems, Slot.item form fields 0 rfl (.exact (Id.ofJson_toJson d.id)),
      Slot.item form fields 1 rfl (.exact (Json.word64_ofWord64 d.version)),
      Slot.item? fields 2 rfl (.exact (Json.word64_ofWord64 d.watermark)),
      Slot.item form fields 3 rfl (.exact (Timestamp.ofJson_toJson d.updated)),
      Slot.item? fields 4 rfl (Entry.logSlot_reads d.log _)]
    rfl

theorem writesOut (d : Document) :
    ∃ members, d.toJson = .obj members ∧ Json.WritesOut d.slots members :=
  ⟨_, rfl, rfl, by simp [members], .cons rfl (.cons rfl (.cons rfl (.cons rfl
    (.cons (Entry.given_logSlot d.log _) .nil))))⟩

end Document

/-! ### Queries, reasons and views -/

theorem join_eq_getD {α : Type} (o : Option (Option α)) : o.join = o.getD none := by
  cases o <;> rfl

namespace Query

/-- The fields of a query: no limit may be left out. -/
def slots (q : Query) : List Slot :=
  [.exact "min_version" (.ofWord64 q.since) False,
    .exact "max_allowed_len" (.ofOption .ofWord64 q.limit) (q.limit = none)]

theorem ofJson_of_renders {q : Query} {v : Json} (h : v.Renders q.slots) : ofJson v = .ok q := by
  refine h.read rfl ?_ ?_
  · intro members fields
    simp only [slots, List.forall_mem_cons] at fields
    obtain ⟨hsince, hlimit, -⟩ := fields
    have hsince := hsince.member? not_false (.exact (Json.word64_ofWord64 q.since))
    obtain ⟨limit, hlimit, hnone⟩ :=
      hlimit.member?_getD (fun h => h) (.exact (Json.optional_ofOption q.limit))
    simp only [ofMembers, bind_eq_ok_iff, Json.require_eq_ok_iff]
    refine ⟨limit, hlimit, _, hsince, _, rfl, ?_⟩
    rw [join_eq_getD, hnone]
    rfl
  · intro items fields
    rw [ofItems, Slot.item form fields 0 rfl (.exact (Json.word64_ofWord64 q.since)),
      Slot.item form fields 1 rfl (.exact (Json.optional_ofOption q.limit))]
    rfl

theorem writesOut (q : Query) :
    ∃ members, q.toJson = .obj members ∧ Json.WritesOut q.slots members :=
  ⟨_, rfl, rfl, by simp, .cons rfl (.cons rfl .nil)⟩

end Query

namespace Suppression

/-- Whether the counts of a reason fit a word of 64 bits. -/
def InRange : Suppression → Prop
  | .stale => True
  | .reset => True
  | .tooLarge found _ => found < UInt64.size

/-- The fields of a reason: its name, and the counts of the one that has any. -/
def slots : Suppression → List Slot
  | .stale => [.exact "reason" (.str "stale") False]
  | .reset => [.exact "reason" (.str "reset") False]
  | .tooLarge found allowed =>
    [.exact "reason" (.str "too_large") False, .exact "log_len" (.natural found) False,
      .exact "max_allowed_len" (.ofWord64 allowed) False]

theorem ofMembers_of_in {r : Suppression} (hr : r.InRange) {members : List (String × Json)}
    (fields : ∀ slot ∈ r.slots, slot.In members) : ofMembers members = .ok r := by
  simp only [ofMembers, bind_eq_ok_iff, Json.require_eq_ok_iff]
  cases r with
  | stale =>
      simp only [slots, List.forall_mem_cons] at fields
      exact ⟨_, fields.1.get?_eq, .stale, rfl, rfl⟩
  | reset =>
      simp only [slots, List.forall_mem_cons] at fields
      exact ⟨_, fields.1.get?_eq, .reset, rfl, rfl⟩
  | tooLarge found allowed =>
      simp only [slots, List.forall_mem_cons] at fields
      obtain ⟨hreason, hfound, hallowed, -⟩ := fields
      have hfound := hfound.member? not_false (.exact (Json.count_natural hr))
      have hallowed := hallowed.member? not_false (.exact (Json.countBound_ofWord64 allowed))
      refine ⟨_, hreason.get?_eq, .tooLarge, rfl, ?_⟩
      simp only [bind_eq_ok_iff, Json.require_eq_ok_iff]
      exact ⟨_, hfound, _, hallowed, found, rfl, allowed, rfl, rfl⟩

theorem ofItems_of_given {r : Suppression} (hr : r.InRange) {items : List Json}
    (fields : List.Forall₂ Slot.Given r.slots items) : ofItems items = .ok r := by
  cases r with
  | stale =>
      obtain ⟨_, _, rfl, hrest, rfl⟩ := List.forall₂_cons_left_iff.1 fields
      cases hrest
      rfl
  | reset =>
      obtain ⟨_, _, rfl, hrest, rfl⟩ := List.forall₂_cons_left_iff.1 fields
      cases hrest
      rfl
  | tooLarge found allowed =>
      obtain ⟨_, rest, rfl, hrest, rfl⟩ := List.forall₂_cons_left_iff.1 fields
      have hfound : field 0 Json.count rest = .ok found := by
        rw [field, Slot.item? hrest 0 rfl (.exact (Json.count_natural hr))]
        rfl
      have hallowed : field 1 Json.countBound rest = .ok allowed := by
        rw [field, Slot.item? hrest 1 rfl (.exact (Json.countBound_ofWord64 allowed))]
        rfl
      have hclose : close 2 rest = .ok () := by
        rw [close, if_neg]
        have : 2 = rest.length := hrest.length_eq
        omega
      rw [ofItems, bind_eq_ok_iff]
      refine ⟨.tooLarge, rfl, ?_⟩
      simp only [bind_eq_ok_iff]
      exact ⟨found, hfound, allowed, hallowed, (), hclose, rfl⟩

theorem ofJson_of_renders {r : Suppression} (hr : r.InRange) {v : Json} (h : v.Renders r.slots) :
    ofJson v = .ok r := by
  cases h with
  | object fields => exact ofMembers_of_in hr fields
  | array fields => exact ofItems_of_given hr fields

theorem writesOut (r : Suppression) :
    ∃ members, r.toJson = .obj members ∧ Json.WritesOut r.slots members := by
  cases r with
  | stale => exact ⟨_, rfl, rfl, by simp, .cons rfl .nil⟩
  | reset => exact ⟨_, rfl, rfl, by simp, .cons rfl .nil⟩
  | tooLarge found allowed =>
      exact ⟨_, rfl, rfl, by simp, .cons rfl (.cons rfl (.cons rfl .nil))⟩

end Suppression

namespace View

/-- Whether the counts of a view fit a word of 64 bits. -/
def InRange (v : View) : Prop :=
  v.found < UInt64.size ∧ ∀ r ∈ v.suppressed, r.InRange

/-- The field of a reason, which may be missing: `null`, or a rendering of the reason. -/
def reasonSlot (suppressed : Option Suppression) : Slot :=
  ⟨"suppressed", fun w => match suppressed with
    | none => w = .null
    | some r => w.Renders r.slots, suppressed = none⟩

/-- The fields of a view: a reason that is missing may be left out. -/
def slots (v : View) : List Slot :=
  [.exact "version" (.ofWord64 v.version) False, .exact "deleted" (.ofWord64 v.watermark) False,
    .exact "update_time" v.updated.toJson False, .exact "log_len" (.natural v.found) False,
    Entry.logSlot v.log False, reasonSlot v.suppressed]

theorem reasonSlot_reads {suppressed : Option Suppression} (h : ∀ r ∈ suppressed, r.InRange) :
    (reasonSlot suppressed).Reads (Json.optional Suppression.ofJson) suppressed := by
  intro w hgiven
  cases suppressed with
  | none =>
      cases hgiven
      rfl
  | some r =>
      have hrenders : w.Renders r.slots := hgiven
      exact hrenders.optional (Suppression.ofJson_of_renders (h r rfl) hrenders)

theorem ofJson_of_renders {v : View} (hv : v.InRange) {w : Json} (h : w.Renders v.slots) :
    ofJson w = .ok v := by
  obtain ⟨hcount, hreason⟩ := hv
  refine h.read rfl ?_ ?_
  · intro members fields
    simp only [slots, List.forall_mem_cons] at fields
    obtain ⟨hversion, hwatermark, hupdated, hfound, hlog, hsuppressed, -⟩ := fields
    have hversion := hversion.member? not_false (.exact (Json.word64_ofWord64 v.version))
    have hwatermark := hwatermark.member? not_false (.exact (Json.word64_ofWord64 v.watermark))
    have hupdated := hupdated.member? not_false (.exact (Timestamp.ofJson_toJson v.updated))
    have hfound := hfound.member? not_false (.exact (Json.count_natural hcount))
    have hlog := hlog.member? not_false (Entry.logSlot_reads v.log False)
    obtain ⟨suppressed, hsuppressed, hnone⟩ :=
      hsuppressed.member?_getD (fun h => h) (reasonSlot_reads hreason)
    simp only [ofMembers, bind_eq_ok_iff, Json.require_eq_ok_iff]
    refine ⟨_, hwatermark, _, hfound, _, hlog, suppressed, hsuppressed, _, hupdated, _, hversion, _,
      rfl, _, rfl, _, rfl, _, rfl, _, rfl, ?_⟩
    rw [join_eq_getD, hnone]
    rfl
  · intro items fields
    rw [ofItems, Slot.item form fields 0 rfl (.exact (Json.word64_ofWord64 v.version)),
      Slot.item form fields 1 rfl (.exact (Json.word64_ofWord64 v.watermark)),
      Slot.item form fields 2 rfl (.exact (Timestamp.ofJson_toJson v.updated)),
      Slot.item form fields 3 rfl (.exact (Json.count_natural hcount)),
      Slot.item form fields 4 rfl (Entry.logSlot_reads v.log False),
      Slot.item form fields 5 rfl (reasonSlot_reads hreason)]
    rfl

theorem given_reasonSlot (suppressed : Option Suppression) :
    (reasonSlot suppressed).Given (.ofOption Suppression.toJson suppressed) := by
  cases suppressed with
  | none => exact rfl
  | some r => exact Json.renders_of_written r.writesOut

theorem writesOut (v : View) :
    ∃ members, v.toJson = .obj members ∧ Json.WritesOut v.slots members :=
  ⟨_, rfl, rfl, by simp, .cons rfl (.cons rfl (.cons rfl (.cons rfl
    (.cons (Entry.given_logSlot v.log False) (.cons (given_reasonSlot v.suppressed) .nil)))))⟩

end View

/-! ### Schemas and settings -/

namespace Schema

/-- The fields of a schema: each may be left out if it is the usual one. -/
def slots (s : Schema) : List Slot :=
  [.exact "name" (.str s.name) (s.name = "version_log"),
    .exact "id_field" (.str s.idField) (s.idField = "d_id"),
    .exact "update_time_field" (.str s.timeField) (s.timeField = "update_time")]

theorem ofJson_of_renders {s : Schema} {v : Json} (h : v.Renders s.slots) : ofJson v = .ok s := by
  refine h.read rfl ?_ ?_
  · intro members fields
    simp only [slots, List.forall_mem_cons] at fields
    obtain ⟨hname, hid, htime, -⟩ := fields
    obtain ⟨name, hname, hname'⟩ :=
      hname.member?_getD (fun h => h) (.exact (Json.text_eq_ok_iff.2 rfl))
    obtain ⟨idField, hid, hid'⟩ :=
      hid.member?_getD (fun h => h) (.exact (Json.text_eq_ok_iff.2 rfl))
    obtain ⟨timeField, htime, htime'⟩ :=
      htime.member?_getD (fun h => h) (.exact (Json.text_eq_ok_iff.2 rfl))
    simp only [ofMembers, bind_eq_ok_iff]
    exact ⟨idField, hid, name, hname, timeField, htime,
      congrArg Except.ok (Schema.ext hname' hid' htime')⟩
  · intro items fields
    rw [ofItems, Slot.item? fields 0 rfl (.exact (Json.text_eq_ok_iff.2 rfl)),
      Slot.item? fields 1 rfl (.exact (Json.text_eq_ok_iff.2 rfl)),
      Slot.item? fields 2 rfl (.exact (Json.text_eq_ok_iff.2 rfl))]
    rfl

theorem writesOut (s : Schema) :
    ∃ members, s.toJson = .obj members ∧ Json.WritesOut s.slots members :=
  ⟨_, rfl, rfl, by simp, .cons rfl (.cons rfl (.cons rfl .nil))⟩

end Schema

namespace Settings

/-- The fields of settings: each may be left out if it is the usual one.  No bound on what is shown
is not the usual one, and has to be said. -/
def slots (s : Settings) : List Slot :=
  [.exact "max_conflict_retries" (.natural s.maxRetries.toNat) (s.maxRetries = 8),
    .exact "default_max_log_len" (.ofOption .ofWord64 s.maxLogLength) (s.maxLogLength = some 100),
    ⟨"collection", (·.Renders s.collection.slots), s.collection = {}⟩]

theorem ofJson_of_renders {s : Settings} {v : Json} (h : v.Renders s.slots) :
    ofJson v = .ok s := by
  have hschema : Slot.Reads ⟨"collection", (·.Renders s.collection.slots), s.collection = {}⟩
      Schema.ofJson s.collection := fun _ => Schema.ofJson_of_renders
  refine h.read rfl ?_ ?_
  · intro members fields
    simp only [slots, List.forall_mem_cons] at fields
    obtain ⟨hretries, hlength, hcollection, -⟩ := fields
    obtain ⟨maxRetries, hretries, hretries'⟩ :=
      hretries.member?_getD (fun h => h) (.exact (Json.word32_natural s.maxRetries))
    obtain ⟨maxLogLength, hlength, hlength'⟩ :=
      hlength.member?_getD (fun h => h) (.exact (Json.optional_ofOption s.maxLogLength))
    obtain ⟨collection, hcollection, hcollection'⟩ :=
      hcollection.member?_getD (fun h => h) hschema
    simp only [ofMembers, bind_eq_ok_iff]
    exact ⟨collection, hcollection, maxLogLength, hlength, maxRetries, hretries,
      congrArg Except.ok (Settings.ext hretries' hlength' hcollection')⟩
  · intro items fields
    rw [ofItems, Slot.item? fields 0 rfl (.exact (Json.word32_natural s.maxRetries)),
      Slot.item? fields 1 rfl (.exact (Json.optional_ofOption s.maxLogLength)),
      Slot.item? fields 2 rfl hschema]
    rfl

theorem writesOut (s : Settings) :
    ∃ members, s.toJson = .obj members ∧ Json.WritesOut s.slots members :=
  ⟨_, rfl, rfl, by simp, .cons rfl (.cons rfl
    (.cons (Json.renders_of_written s.collection.writesOut) .nil))⟩

end Settings

/-! ### Reading back -/

namespace Json

/-- What it is for the written form of a thing to read back as the thing, whatever is done to it
that changes nothing. -/
structure ReadsBack {α : Type} (read : Json → Reading α) (slots : List Slot)
    (members : List (String × Json)) (a : α) : Prop where
  /-- The members are the fields in order. -/
  names : members.map (·.1) = slots.map (·.name)
  /-- The object reads back. -/
  written : read (.obj members) = .ok a
  /-- So does every object that agrees with it on the fields, but for some left out that may be:
  whatever it holds besides, and in whatever order. -/
  varied : ∀ members' : List (String × Json),
    (∀ slot ∈ slots, Assoc.get? slot.name members' = Assoc.get? slot.name members ∨
      slot.Omissible ∧ Assoc.get? slot.name members' = none) → read (.obj members') = .ok a
  /-- So does the array of all fields in order. -/
  array : read (.arr (members.map (·.2))) = .ok a
  /-- And so does every rendering, in which the things inside are varied in the same ways. -/
  rendered : ∀ v : Json, v.Renders slots → read v = .ok a

variable {α : Type} {read : Json → Reading α} {slots : List Slot} {members : List (String × Json)}
  {a : α}

/-- **The written form, with more members or with fewer, is a rendering**: if every rendering is read
as `a`, then the written form reads back in all its variations. -/
theorem readsBack_of_written {written : Json}
    (h : ∃ members, written = .obj members ∧ WritesOut slots members)
    (hread : ∀ v : Json, v.Renders slots → read v = .ok a) :
    ∃ members, written = .obj members ∧ ReadsBack read slots members a := by
  obtain ⟨members, rfl, hwrites⟩ := h
  refine ⟨members, rfl, hwrites.names, hread _ hwrites.renders, ?_, hread _ (.array hwrites.given),
    hread⟩
  intro members' hmembers'
  refine hread _ (.object ?_)
  intro slot hslot
  obtain ⟨v, hv, hgiven⟩ := hwrites.exists_get? hslot
  rcases hmembers' slot hslot with hsame | hleft
  · exact .inl ⟨v, hsame.trans hv, hgiven⟩
  · exact .inr hleft

/-- **All seven kinds of things read back as themselves.**  Entries, documents, queries, reasons,
views, schemas and settings are written as objects of their fields in order.  Each of them, if the
counts of a reason or a view fit a word of 64 bits, is read from that object; from every object that
adds members to it, has them in another order, or leaves out fields for which that means what they
are; from the array of its fields; and from whatever varies the things inside it in these ways as
well. -/
theorem forms_read_back :
    (∀ e : Entry, ∃ members, e.toJson = .obj members ∧
      ReadsBack Entry.ofJson e.slots members e) ∧
    (∀ d : Document, ∃ members, d.toJson = .obj members ∧
      ReadsBack Document.ofJson d.slots members d) ∧
    (∀ q : Query, ∃ members, q.toJson = .obj members ∧
      ReadsBack Query.ofJson q.slots members q) ∧
    (∀ r : Suppression, r.InRange → ∃ members, r.toJson = .obj members ∧
      ReadsBack Suppression.ofJson r.slots members r) ∧
    (∀ v : View, v.InRange → ∃ members, v.toJson = .obj members ∧
      ReadsBack View.ofJson v.slots members v) ∧
    (∀ s : Schema, ∃ members, s.toJson = .obj members ∧
      ReadsBack Schema.ofJson s.slots members s) ∧
    (∀ s : Settings, ∃ members, s.toJson = .obj members ∧
      ReadsBack Settings.ofJson s.slots members s) := by
  refine ⟨?_, ?_, ?_, ?_, ?_, ?_, ?_⟩
  · intro e
    exact readsBack_of_written e.writesOut fun _ => Entry.ofJson_of_renders
  · intro d
    exact readsBack_of_written d.writesOut fun _ => Document.ofJson_of_renders
  · intro q
    exact readsBack_of_written q.writesOut fun _ => Query.ofJson_of_renders
  · intro r hr
    exact readsBack_of_written r.writesOut fun _ => Suppression.ofJson_of_renders hr
  · intro v hv
    exact readsBack_of_written v.writesOut fun _ => View.ofJson_of_renders hv
  · intro s
    exact readsBack_of_written s.writesOut fun _ => Schema.ofJson_of_renders
  · intro s
    exact readsBack_of_written s.writesOut fun _ => Settings.ofJson_of_renders

/-- A reason is read from the array of its fields; a view with that reason from an object in another
order, with a member that nobody asked for, an entry given as an array and the reason without its
usual form; and settings from an object that says only that there is no bound, or only how often to
try again, in which case the bound is the usual one. -/
theorem forms_read_back_varied :
    let r : Suppression := .tooLarge 2 1
    let v : View := ⟨3, 0, ⟨30⟩, 2, [⟨⟨"a", by decide⟩, true, 2, ⟨20⟩⟩], some r⟩
    let w : Json := .obj [("suppressed", .arr [.str "too_large", .natural 2, .natural 1]),
      ("colour", .str "red"), ("log_len", .natural 2), ("update_time", .natural 30),
      ("logs", .arr [.arr [.str "a", .bool true, .natural 2, .natural 20]]),
      ("deleted", .natural 0), ("version", .natural 3)]
    r.InRange ∧ v.InRange ∧ w.Renders v.slots ∧
      Suppression.ofJson (.arr [.str "too_large", .natural 2, .natural 1]) = .ok r ∧
      View.ofJson w = .ok v ∧
      Settings.ofJson (.obj [("default_max_log_len", .null)]) = .ok { maxLogLength := none } ∧
      Settings.ofJson (.obj [("max_conflict_retries", .natural 2)]) =
        .ok { maxRetries := 2, maxLogLength := some 100 } := by
  intro r v w
  obtain ⟨-, -, -, hreasons, hviews, -, hsettings⟩ := forms_read_back
  have hfits : 2 < UInt64.size := by decide
  have hr : r.InRange := hfits
  have hv : v.InRange := by
    refine ⟨hfits, ?_⟩
    rintro _ ⟨⟩
    exact hr
  have hreason : (Json.arr [.str "too_large", .natural 2, .natural 1]).Renders r.slots :=
    .array (.cons rfl (.cons rfl (.cons rfl .nil)))
  have hw : w.Renders v.slots := by
    refine .object ?_
    simp only [View.slots, List.forall_mem_cons]
    refine ⟨.inl ⟨_, rfl, rfl⟩, .inl ⟨_, rfl, rfl⟩, .inl ⟨_, rfl, rfl⟩, .inl ⟨_, rfl, rfl⟩,
      .inl ⟨_, rfl, _, rfl, ?_⟩, .inl ⟨_, rfl, hreason⟩, by simp⟩
    exact .cons (.array (.cons rfl (.cons rfl (.cons rfl (.cons rfl .nil))))) .nil
  obtain ⟨_, -, hreadsReason⟩ := hreasons r hr
  obtain ⟨_, -, hreadsView⟩ := hviews v hv
  refine ⟨hr, hv, hw, hreadsReason.rendered _ hreason, hreadsView.rendered _ hw, ?_, ?_⟩
  · obtain ⟨_, ⟨⟩, hreads⟩ := hsettings { maxLogLength := none }
    refine hreads.varied _ ?_
    simp only [Settings.slots, List.forall_mem_cons]
    exact ⟨.inr ⟨trivial, rfl⟩, .inl rfl, .inr ⟨trivial, rfl⟩, by simp⟩
  · obtain ⟨_, ⟨⟩, hreads⟩ := hsettings { maxRetries := 2, maxLogLength := some 100 }
    refine hreads.varied _ ?_
    simp only [Settings.slots, List.forall_mem_cons]
    exact ⟨.inl rfl, .inr ⟨trivial, rfl⟩, .inr ⟨trivial, rfl⟩, by simp⟩

end Json

end Chronicle
