/-
**What a query shows.**  A view is withheld for one of three reasons, which are tried in a fixed
order and compare with different strictness: the document is behind its reader, its last reset is not
behind the reader, or more entries qualify than the reader takes.  The rules are said once, as the
four ways in which a document can answer, and everything else is read off from them.  Above all, a
reader who has been shown a view is never worse off for having caught up in part or for taking more.

Main definitions:

* `Query.bound` — how many entries a query takes, where no limit is more than any number;
* `Document.Answers` — **the four ways** in which a document answers a query.

Main results:

* `Document.view_answers` — a view is one of the four;
* `Document.Answers.stale_iff` and its companions — when each of them is given;
* `Document.view_unsuppressed_mono` — **catching up or taking more withholds nothing**;
* `View.partition_eq`, `View.partition_perm` — the visible tags, the live apart from the deleted;
* `Document.views_by_rule` — the law of views.
-/

import Chronicle.View
import Mathlib.Data.ENat.Basic

set_option autoImplicit false

namespace Chronicle

/-! ### Four ways to answer -/

/-- How many entries a query takes at most; no limit is more than any number. -/
def Query.bound (q : Query) : ℕ∞ :=
  match q.limit with
  | none => ⊤
  | some allowed => allowed.toNat

theorem Query.bound_lt_iff {q : Query} {n : Nat} :
    q.bound < n ↔ ∃ allowed, q.limit = some allowed ∧ allowed.toNat < n := by
  rw [bound]
  cases q.limit with
  | none => simp
  | some allowed => simp

namespace Document

/-- The four ways in which a document answers a query: what has to hold for each, and the view. -/
inductive Answers (d : Document) (q : Query) : View → Prop
  /-- The document is behind the reader. -/
  | stale (behind : d.version < q.since) :
      Answers d q ⟨d.version, d.watermark, d.updated, 0, [], some .stale⟩
  /-- The document has come as far as the reader, but so has its last reset. -/
  | reset (reached : q.since ≤ d.version) (missed : q.since ≤ d.watermark) :
      Answers d q ⟨d.version, d.watermark, d.updated, 0, [], some .reset⟩
  /-- The reader knows of every reset, and there is more to show than the reader takes. -/
  | tooLarge {allowed : UInt64} (reached : q.since ≤ d.version) (seen : d.watermark < q.since)
      (limited : q.limit = some allowed)
      (exceeds : allowed.toNat < (d.entriesSince q.since).length) :
      Answers d q ⟨d.version, d.watermark, d.updated, (d.entriesSince q.since).length, [],
        some (.tooLarge (d.entriesSince q.since).length allowed)⟩
  /-- The reader knows of every reset, and takes all there is to show. -/
  | shown (reached : q.since ≤ d.version) (seen : d.watermark < q.since)
      (fits : ((d.entriesSince q.since).length : ℕ∞) ≤ q.bound) :
      Answers d q ⟨d.version, d.watermark, d.updated, (d.entriesSince q.since).length,
        d.entriesSince q.since, none⟩

/-- **A view is one of the four.** -/
theorem view_answers (d : Document) (q : Query) : d.Answers q (d.view q) := by
  rw [view, outOfStep?]
  by_cases hbehind : d.version < q.since
  · rw [if_pos hbehind]
    exact .stale hbehind
  have hreached : q.since ≤ d.version := UInt64.not_lt.1 hbehind
  rw [if_neg hbehind]
  by_cases hmissed : q.since ≤ d.watermark
  · rw [if_pos hmissed]
    exact .reset hreached hmissed
  have hseen : d.watermark < q.since := UInt64.not_le.1 hmissed
  rw [if_neg hmissed]
  dsimp only
  cases hlimit : q.limit with
  | none =>
      have hbound : q.bound = ⊤ := by rw [Query.bound, hlimit]
      exact .shown hreached hseen (hbound ▸ le_top)
  | some allowed =>
      dsimp only
      by_cases hexceeds : allowed.toNat < (d.entriesSince q.since).length
      · rw [if_pos hexceeds]
        exact .tooLarge hreached hseen hlimit hexceeds
      · rw [if_neg hexceeds]
        refine .shown hreached hseen ?_
        rw [← not_lt, Query.bound_lt_iff]
        rintro ⟨allowed', hlimit', hexceeds'⟩
        cases hlimit.symm.trans hlimit'
        exact hexceeds hexceeds'

namespace Answers

variable {d : Document} {q : Query} {v : View}

/-- Shown or not, a view tells how the document stands. -/
theorem state (h : d.Answers q v) :
    v.version = d.version ∧ v.watermark = d.watermark ∧ v.updated = d.updated := by
  cases h <;> exact ⟨rfl, rfl, rfl⟩

theorem stale_iff (h : d.Answers q v) : v.suppressed = some .stale ↔ d.version < q.since := by
  cases h with
  | stale behind => exact iff_of_true rfl behind
  | reset reached missed => exact iff_of_false nofun (UInt64.not_lt.2 reached)
  | tooLarge reached seen limited exceeds => exact iff_of_false nofun (UInt64.not_lt.2 reached)
  | shown reached seen fits => exact iff_of_false nofun (UInt64.not_lt.2 reached)

theorem reset_iff (h : d.Answers q v) :
    v.suppressed = some .reset ↔ q.since ≤ d.version ∧ q.since ≤ d.watermark := by
  cases h with
  | stale behind => exact iff_of_false nofun fun h => UInt64.not_le.2 behind h.1
  | reset reached missed => exact iff_of_true rfl ⟨reached, missed⟩
  | tooLarge reached seen limited exceeds =>
      exact iff_of_false nofun fun h => UInt64.not_le.2 seen h.2
  | shown reached seen fits => exact iff_of_false nofun fun h => UInt64.not_le.2 seen h.2

theorem tooLarge_iff (h : d.Answers q v) {found : Nat} {allowed : UInt64} :
    v.suppressed = some (.tooLarge found allowed) ↔ q.since ≤ d.version ∧ d.watermark < q.since ∧
      found = (d.entriesSince q.since).length ∧ q.limit = some allowed ∧ allowed.toNat < found := by
  cases h with
  | stale behind => exact iff_of_false nofun fun h => UInt64.not_le.2 behind h.1
  | reset reached missed => exact iff_of_false nofun fun h => UInt64.not_lt.2 missed h.2.1
  | tooLarge reached seen limited exceeds =>
      constructor
      · rintro ⟨⟩
        exact ⟨reached, seen, rfl, limited, exceeds⟩
      · rintro ⟨-, -, rfl, hlimit, -⟩
        cases limited.symm.trans hlimit
        rfl
  | shown reached seen fits =>
      refine iff_of_false nofun ?_
      rintro ⟨-, -, rfl, hlimit, hexceeds⟩
      exact not_lt.2 fits (Query.bound_lt_iff.2 ⟨allowed, hlimit, hexceeds⟩)

theorem unsuppressed_iff (h : d.Answers q v) : v.suppressed = none ↔ q.since ≤ d.version ∧
    d.watermark < q.since ∧ ((d.entriesSince q.since).length : ℕ∞) ≤ q.bound := by
  cases h with
  | stale behind => exact iff_of_false nofun fun h => UInt64.not_le.2 behind h.1
  | reset reached missed => exact iff_of_false nofun fun h => UInt64.not_lt.2 missed h.2.1
  | tooLarge reached seen limited exceeds =>
      refine iff_of_false nofun fun h => not_lt.2 h.2.2 ?_
      exact Query.bound_lt_iff.2 ⟨_, limited, exceeds⟩
  | shown reached seen fits => exact iff_of_true rfl ⟨reached, seen, fits⟩

/-- A view that is withheld shows nothing; it counts what there is to show if that is too large, and
nothing otherwise. -/
theorem withheld (h : d.Answers q v) (hv : v.suppressed ≠ none) :
    v.log = [] ∧ (v.suppressed = some .stale ∨ v.suppressed = some .reset → v.found = 0) ∧
      ∀ found allowed, v.suppressed = some (.tooLarge found allowed) → v.found = found := by
  cases h with
  | stale behind => exact ⟨rfl, fun _ => rfl, nofun⟩
  | reset reached missed => exact ⟨rfl, fun _ => rfl, nofun⟩
  | tooLarge reached seen limited exceeds =>
      refine ⟨rfl, nofun, ?_⟩
      rintro _ _ ⟨⟩
      rfl
  | shown reached seen fits => exact absurd rfl hv

/-- A view that is not withheld shows all there is to show, and counts it. -/
theorem shows (h : d.Answers q v) (hv : v.suppressed = none) :
    v.log = d.entriesSince q.since ∧ v.found = v.log.length ∧ (v.found : ℕ∞) ≤ q.bound := by
  cases h with
  | stale behind => cases hv
  | reset reached missed => cases hv
  | tooLarge reached seen limited exceeds => cases hv
  | shown reached seen fits => exact ⟨rfl, rfl, fits⟩

end Answers

/-! ### Two queries -/

/-- What is newer than a later version is so among what is newer than an earlier one. -/
theorem entriesSince_entriesSince (d : Document) {since since' : UInt64} (h : since ≤ since') :
    d.entriesSince since' =
      (d.entriesSince since).filter fun e => decide (since' < e.version) := by
  rw [entriesSince, entriesSince, List.filter_filter]
  refine List.filter_congr fun e _ => ?_
  rw [Bool.eq_iff_iff, Bool.and_eq_true, decide_eq_true_iff, decide_eq_true_iff]
  exact ⟨fun h' => ⟨h', UInt64.lt_of_le_of_lt h h'⟩, And.left⟩

/-- **Catching up or taking more withholds nothing**: if a view is not withheld, neither is one since
a later version that the document has reached, for a reader who takes as much or more; and it shows
of the first view what is newer than that version. -/
theorem view_unsuppressed_mono {d : Document} {q q' : Query} (h : (d.view q).suppressed = none)
    (hsince : q.since ≤ q'.since) (hreached : q'.since ≤ d.version) (hbound : q.bound ≤ q'.bound) :
    (d.view q').suppressed = none ∧
      (d.view q').log = (d.view q).log.filter fun e => decide (q'.since < e.version) := by
  obtain ⟨-, hseen, hfits⟩ := (d.view_answers q).unsuppressed_iff.1 h
  have hfewer : (d.entriesSince q'.since).length ≤ (d.entriesSince q.since).length := by
    rw [d.entriesSince_entriesSince hsince]
    exact List.length_filter_le ..
  have hnone : (d.view q').suppressed = none := by
    refine (d.view_answers q').unsuppressed_iff.2
      ⟨hreached, UInt64.lt_of_lt_of_le hseen hsince, ?_⟩
    calc ((d.entriesSince q'.since).length : ℕ∞)
        ≤ (d.entriesSince q.since).length := Nat.cast_le.2 hfewer
      _ ≤ q.bound := hfits
      _ ≤ q'.bound := hbound
  refine ⟨hnone, ?_⟩
  rw [((d.view_answers q').shows hnone).1, ((d.view_answers q).shows h).1]
  exact d.entriesSince_entriesSince hsince

end Document

/-! ### Live and deleted -/

namespace View

/-- The two parts of the visible tags, each in the order of the log. -/
theorem partition_eq (v : View) :
    v.partition = ⟨(v.log.filter fun e => !e.deleted).map (·.id),
      (v.log.filter (·.deleted)).map (·.id)⟩ := by
  rw [partition, List.partition_eq_filter_filter]
  rfl

/-- The two parts together are the visible tags. -/
theorem partition_perm (v : View) :
    (v.partition.changed ++ v.partition.deleted).Perm (v.log.map (·.id)) := by
  rw [partition_eq, ← List.map_append]
  refine List.Perm.map _ (List.perm_append_comm.trans ?_)
  exact List.filter_append_perm (fun e : Entry => e.deleted) v.log

end View

namespace Document

/-- **The law of views.**  A view is withheld as stale iff the document is behind the reader; as
reset iff it is not, but its last reset is at or after the reader's version, which it always is for
version zero; and as too large, with the number of newer entries and the limit, iff neither holds and
there are more of them than the limit.  A view that is withheld shows nothing, and counts the newer
entries only if they are too many; one that is not withheld shows them in the order of the log and
counts them, which are no more than the query takes.  If a view is not withheld, neither is any since
a later version that the document has reached and with a bound that is no lower, and it shows of the
first view what is newer than that version.  The visible tags are parted into the live and the
deleted, each in the order of the log, and none is lost or repeated by that. -/
theorem views_by_rule (d : Document) (q : Query) :
    let v := d.view q
    let newer := d.log.filter fun e => decide (q.since < e.version)
    (v.version = d.version ∧ v.watermark = d.watermark ∧ v.updated = d.updated) ∧
      (v.suppressed = some .stale ↔ d.version < q.since) ∧
      (v.suppressed = some .reset ↔ q.since ≤ d.version ∧ q.since ≤ d.watermark) ∧
      (q.since = 0 → v.suppressed = some .reset) ∧
      (∀ found allowed, v.suppressed = some (.tooLarge found allowed) ↔
        q.since ≤ d.version ∧ d.watermark < q.since ∧ found = newer.length ∧
          q.limit = some allowed ∧ allowed.toNat < found) ∧
      (v.suppressed ≠ none → v.log = [] ∧
        (v.suppressed = some .stale ∨ v.suppressed = some .reset → v.found = 0) ∧
        ∀ found allowed, v.suppressed = some (.tooLarge found allowed) → v.found = found) ∧
      (v.suppressed = none → v.log = newer ∧ v.found = v.log.length ∧ (v.found : ℕ∞) ≤ q.bound) ∧
      (v.suppressed = none → ∀ q' : Query, q.since ≤ q'.since → q'.since ≤ d.version →
        q.bound ≤ q'.bound → (d.view q').suppressed = none ∧
          (d.view q').log = v.log.filter fun e => decide (q'.since < e.version)) ∧
      ∀ w : View, w.partition.changed = (w.log.filter fun e => !e.deleted).map (·.id) ∧
        w.partition.deleted = (w.log.filter (·.deleted)).map (·.id) ∧
        (w.partition.changed ++ w.partition.deleted).Perm (w.log.map (·.id)) := by
  intro v newer
  have h : d.Answers q v := d.view_answers q
  refine ⟨h.state, h.stale_iff, h.reset_iff, fun hzero => ?_, fun _ _ => h.tooLarge_iff, h.withheld,
    h.shows, fun hnone q' hsince hreached hbound => ?_, fun w => ?_⟩
  · rw [h.reset_iff, hzero]
    exact ⟨UInt64.zero_le, UInt64.zero_le⟩
  · exact view_unsuppressed_mono hnone hsince hreached hbound
  · refine ⟨?_, ?_, w.partition_perm⟩ <;> rw [w.partition_eq]

/-- A reader at version 3 is shown the two newer entries and takes no more than two; one who takes
only one is told that there are two.  At version 2, that of the last reset, the view is withheld;
having caught up with version 5 it is empty; at version 6 the document is behind. -/
theorem views_by_rule_at_boundaries :
    let a : EntryId := ⟨"a", by decide⟩
    let b : EntryId := ⟨"b", by decide⟩
    let c : EntryId := ⟨"c", by decide⟩
    let d : Document := ⟨⟨"doc", by decide⟩, 5, 2, ⟨50⟩,
      [⟨a, false, 5, ⟨50⟩⟩, ⟨b, false, 3, ⟨30⟩⟩, ⟨c, true, 4, ⟨40⟩⟩]⟩
    ((d.view ⟨3, some 2⟩).suppressed = none ∧
        (d.view ⟨3, some 2⟩).log.map (·.id) = [a, c] ∧
        (d.view ⟨3, some 2⟩).partition = ⟨[a], [c]⟩) ∧
      (d.view ⟨3, some 1⟩).suppressed = some (.tooLarge 2 1) ∧
      (d.view ⟨2, none⟩).suppressed = some .reset ∧
      ((d.view ⟨5, none⟩).suppressed = none ∧ (d.view ⟨5, none⟩).log = []) ∧
      (d.view ⟨6, none⟩).suppressed = some .stale := by
  intro a b c d
  obtain ⟨-, -, -, -, -, -, -, hmono, -⟩ := views_by_rule d ⟨3, some 2⟩
  obtain ⟨-, -, hreset, -⟩ := views_by_rule d ⟨2, none⟩
  obtain ⟨-, hstale, -⟩ := views_by_rule d ⟨6, none⟩
  obtain ⟨-, -, -, -, hlarge, -⟩ := views_by_rule d ⟨3, some 1⟩
  refine ⟨⟨rfl, rfl, rfl⟩, (hlarge 2 1).2 (by decide), hreset.2 (by decide), ?_,
    hstale.2 (by decide)⟩
  exact hmono rfl ⟨5, none⟩ (by decide) (by decide) le_top

end Document

end Chronicle
