/-
**Writing until the versions run out.**  A writer tries one edit after another, and keeps the
document it has whenever an edit is refused.  Versions are counted in 64 bits, and the only refusal
there is comes when none is left: so how many edits were tried tells which of them are accepted, and
at which version each one leaves the document.  Whatever the edits are, the document keeps its name,
its watermark, and a log that is well-formed if it was so at the start.

Main definitions:

* `Document.attempts` — the answers to a run of edits, of which any may be refused.

Main results:

* `Document.edits_of_fits`, `Document.edits_of_overflow` — a run comes to an end iff its last edit
  still finds a version;
* `Document.attempts_get?` — each attempt answers what the run up to it comes to;
* `Document.edits_id`, `Document.edits_bounded` — what every run keeps;
* `Document.attempts_account` — **the account of every attempt**.
-/

import Chronicle.Proofs.Edits

set_option autoImplicit false

namespace Chronicle

namespace Document

variable {d d' : Document} {now : Timestamp} {edit : Edit} {run : List (Timestamp × Edit)}

/-! ### When a run is refused -/

theorem edit_of_fits (h : d.version.toNat + 1 < UInt64.size) (now : Timestamp) (edit : Edit) :
    ∃ d', d.edit now edit = .ok d' := by
  rw [edit_eq_map, nextVersion, if_pos h]
  exact ⟨_, rfl⟩

theorem edit_of_overflow (h : UInt64.size ≤ d.version.toNat + 1) (now : Timestamp) (edit : Edit) :
    d.edit now edit = .error (.versionOverflow d.id) := by
  rw [edit_eq_map, nextVersion, if_neg (by omega)]
  rfl

/-- A run that counts up to a version that there is meets no refusal. -/
theorem edits_of_fits (h : d.version.toNat + run.length < UInt64.size) :
    ∃ d', d.edits run = .ok d' := by
  induction run generalizing d with
  | nil => exact ⟨d, rfl⟩
  | cons w run ih =>
      rw [List.length_cons] at h
      obtain ⟨d₁, h₁⟩ := edit_of_fits (d := d) (by omega) w.1 w.2
      have hv := edit_version h₁
      obtain ⟨d', h'⟩ := ih (d := d₁) (by omega)
      refine ⟨d', ?_⟩
      rw [edits, h₁]
      exact h'

/-- A run that counts further is refused, in the name of the document that it started from. -/
theorem edits_of_overflow (h : UInt64.size ≤ d.version.toNat + run.length) :
    d.edits run = .error (.versionOverflow d.id) := by
  induction run generalizing d with
  | nil =>
      have := d.version.toNat_lt_size
      rw [List.length_nil] at h
      omega
  | cons w run ih =>
      rw [List.length_cons] at h
      rw [edits]
      by_cases hlast : UInt64.size ≤ d.version.toNat + 1
      · rw [edit_of_overflow hlast]
        rfl
      · -- the first edit is accepted, and the refusal comes later
        obtain ⟨d₁, h₁⟩ := edit_of_fits (d := d) (by omega) w.1 w.2
        have hv := edit_version h₁
        rw [h₁, ← edit_id h₁]
        exact ih (by omega)

/-! ### Trying on -/

/-- The answers to a run of edits, each tried on the document that the last accepted one left. -/
def attempts (d : Document) : List (Timestamp × Edit) → List (Except EditError Document)
  | [] => []
  | (now, edit) :: rest =>
    match d.edit now edit with
    | .ok d' => .ok d' :: d'.attempts rest
    | .error e => .error e :: d.attempts rest

@[simp]
theorem length_attempts (d : Document) (run : List (Timestamp × Edit)) :
    (d.attempts run).length = run.length := by
  induction run generalizing d with
  | nil => rfl
  | cons w run ih =>
      rw [attempts]
      split <;> simp [ih]

/-- Each attempt answers what the run up to it comes to: after a refusal there is nothing but the
same refusal. -/
theorem attempts_get? (d : Document) (run : List (Timestamp × Edit)) {k : Nat}
    (hk : k < run.length) : (d.attempts run)[k]? = some (d.edits (run.take (k + 1))) := by
  induction run generalizing d k with
  | nil => exact absurd hk (Nat.not_lt_zero k)
  | cons w run ih =>
      rw [attempts, List.take_succ_cons, edits]
      cases h₁ : d.edit w.1 w.2 with
      | ok d₁ =>
          cases k with
          | zero => rfl
          | succ k => exact ih d₁ (Nat.lt_of_succ_lt_succ hk)
      | error e =>
          cases k with
          | zero => rfl
          | succ k =>
              -- the document has reached the last version, so it refuses the rest as well
              have hlast : UInt64.size ≤ d.version.toNat + 1 := by
                by_contra hfits
                obtain ⟨d₁, hok⟩ := edit_of_fits (d := d) (by omega) w.1 w.2
                rw [hok] at h₁
                cases h₁
              have hlong : UInt64.size ≤ d.version.toNat + (run.take (k + 1)).length := by
                rw [List.length_take]
                rw [List.length_cons] at hk
                omega
              rw [edit_of_overflow hlast] at h₁
              cases h₁
              rw [List.getElem?_cons_succ, ih d (Nat.lt_of_succ_lt_succ hk),
                edits_of_overflow hlong]
              rfl

/-! ### What stays -/

theorem edits_id (h : d.edits run = .ok d') : d'.id = d.id :=
  edits_rec (motive := fun _ d' => d'.id = d.id) rfl
    (fun _ _ _ _ _ _ ih h₂ => (edit_id h₂).trans ih) h

/-- An edit writes at the version that it leaves, and what it keeps is older. -/
theorem edit_bounded (h : d.edit now edit = .ok d') (hd : ∀ x ∈ d.log, x.version ≤ d.version) :
    ∀ x ∈ d'.log, x.version ≤ d'.version := by
  intro x hx
  rw [edit_log h] at hx
  rcases mem_of_mem_rewritten hx with hx | hx
  · rw [Edit.version_of_mem_written hx]
    exact UInt64.le_refl _
  · have hv := edit_version h
    have hle := UInt64.le_iff_toNat_le.1 (hd x hx)
    rw [UInt64.le_iff_toNat_le]
    omega

theorem edits_bounded (h : d.edits run = .ok d') (hd : ∀ x ∈ d.log, x.version ≤ d.version) :
    ∀ x ∈ d'.log, x.version ≤ d'.version :=
  edits_rec (motive := fun _ d' => ∀ x ∈ d'.log, x.version ≤ d'.version) hd
    (fun _ _ _ _ _ _ ih h₂ => edit_bounded h₂ ih) h

/-- **The account of every attempt.**  Of any edits in any order, tried one after another, the
`k`-th (counted from zero here) is accepted iff `k + 1` further versions fit into 64 bits, and is
otherwise refused in the name of the document.  Accepted, it leaves the document that the edits up to
it make in one run: `k + 1` versions further on, with its name and its watermark, with tags that are
unique and versions that are bounded if they were so at the start. -/
theorem attempts_account (d : Document) (run : List (Timestamp × Edit)) :
    (d.attempts run).length = run.length ∧
      ∀ k answer, (d.attempts run)[k]? = some answer →
        answer = d.edits (run.take (k + 1)) ∧
        ((∃ d', answer = .ok d') ↔ d.version.toNat + (k + 1) < UInt64.size) ∧
        (¬ d.version.toNat + (k + 1) < UInt64.size → answer = .error (.versionOverflow d.id)) ∧
        ∀ d', answer = .ok d' →
          d'.version.toNat = d.version.toNat + (k + 1) ∧
          d'.id = d.id ∧ d'.watermark = d.watermark ∧
          (d.hasUniqueIds = true → d'.hasUniqueIds = true) ∧
          (d.versionsBounded = true → d'.versionsBounded = true) := by
  refine ⟨d.length_attempts run, fun k answer hanswer => ?_⟩
  have hk : k < run.length := by
    rw [← d.length_attempts run]
    exact (List.getElem?_eq_some_iff.1 hanswer).1
  have hlength : (run.take (k + 1)).length = k + 1 := by
    rw [List.length_take]
    omega
  rw [attempts_get? d run hk, Option.some_inj] at hanswer
  subst hanswer
  have hrefused : ¬ d.version.toNat + (k + 1) < UInt64.size →
      d.edits (run.take (k + 1)) = .error (.versionOverflow d.id) :=
    fun hlong => edits_of_overflow (by omega)
  refine ⟨rfl, ⟨?_, fun hfits => edits_of_fits (by omega)⟩, hrefused, ?_⟩
  · rintro ⟨d', h⟩
    by_contra hlong
    rw [hrefused hlong] at h
    cases h
  · intro d' h
    refine ⟨by rw [edits_version h, hlength], edits_id h, edits_watermark h, ?_, ?_⟩
    · rw [hasUniqueIds_iff, hasUniqueIds_iff]
      exact edits_unique h
    · rw [versionsBounded_iff, versionsBounded_iff]
      exact edits_bounded h

/-- With one version left, the first of three edits is accepted, at the last version, and the other
two are refused. -/
theorem attempts_account_at_last_version :
    let a : EntryId := ⟨"a", by decide⟩
    let d : Document := ⟨⟨"doc", by decide⟩, 18446744073709551614, 7, ⟨30⟩,
      [⟨a, false, 18446744073709551614, ⟨30⟩⟩]⟩
    let run : List (Timestamp × Edit) :=
      [(⟨20⟩, .replace [] [⟨a, true, 5, ⟨0⟩⟩, ⟨a, false, 6, ⟨0⟩⟩]), (⟨40⟩, .upsert a),
        (⟨50⟩, .markDeleted a)]
    ∃ d', d.attempts run =
        [.ok d', .error (.versionOverflow d.id), .error (.versionOverflow d.id)] ∧
      d'.version.toNat = UInt64.size - 1 ∧ d'.watermark = 7 ∧
      d'.hasUniqueIds = true ∧ d'.versionsBounded = true := by
  intro a d run
  obtain ⟨d', hfirst⟩ : ∃ d', (d.attempts run)[0]? = some (.ok d') := ⟨_, rfl⟩
  obtain ⟨-, haccount⟩ := attempts_account d run
  obtain ⟨-, -, -, hleft⟩ := haccount 0 _ hfirst
  obtain ⟨hversion, -, hwatermark, hunique, hbounded⟩ := hleft d' rfl
  obtain ⟨-, -, hsecond, -⟩ := haccount 1 _ rfl
  obtain ⟨-, -, hthird, -⟩ := haccount 2 _ rfl
  refine ⟨d', ?_, hversion, hwatermark, hunique rfl, hbounded rfl⟩
  rw [← hsecond (by decide), ← hthird (by decide), ← Option.some_inj.1 hfirst]
  rfl

end Document

end Chronicle
