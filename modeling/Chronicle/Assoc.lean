/-
**Association lists.**  The members of an object and the rows of a table are lists of pairs of a key
and a value; the value of a key is that of the first pair with it.

Main definitions:

* `Assoc.get?`, `Assoc.put`, `Assoc.erase` — look up, write and remove a key;
* `Assoc.rename` — give the value of one key to another.

Main results:

* `Assoc.get?_put`, `Assoc.get?_erase`, `Assoc.get?_rename` — what each operation does to look-ups;
* `Assoc.get?_ne_none_iff`, `Assoc.get?_of_mem`, `Assoc.get?_perm` — look-ups and the pairs of the
  list, in whatever order;
* `Assoc.keys_put_nodup` and its companions — no operation makes a key occur twice.
-/

set_option autoImplicit false

namespace Chronicle.Assoc

variable {κ α β : Type} [DecidableEq κ]

/-! ### Operations -/

/-- The value of a key. -/
def get? (k : κ) : List (κ × α) → Option α
  | [] => none
  | (k', a) :: rest => if k' = k then some a else get? k rest

/-- Gives a key a value: in its place if it has one, and else at the end. -/
def put (k : κ) (a : α) : List (κ × α) → List (κ × α)
  | [] => [(k, a)]
  | (k', b) :: rest => if k' = k then (k, a) :: rest else (k', b) :: put k a rest

/-- Removes a key. -/
def erase (k : κ) (l : List (κ × α)) : List (κ × α) :=
  l.filter fun p => decide (p.1 ≠ k)

/-- Gives the value of one key to another and removes the first; nothing happens if the first has no
value, or if the two are the same key. -/
def rename (source target : κ) (l : List (κ × α)) : List (κ × α) :=
  if source = target then l
  else match get? source l with
    | some a => put target a (erase source l)
    | none => l

/-! ### Look-ups after an operation -/

@[simp]
theorem get?_nil (k : κ) : get? k ([] : List (κ × α)) = none := rfl

theorem get?_cons (k k' : κ) (a : α) (l : List (κ × α)) :
    get? k ((k', a) :: l) = if k' = k then some a else get? k l := rfl

theorem get?_put (k k' : κ) (a : α) (l : List (κ × α)) :
    get? k (put k' a l) = if k' = k then some a else get? k l := by
  induction l with
  | nil => rfl
  | cons p l ih => grind [put, get?]

theorem get?_erase (k k' : κ) (l : List (κ × α)) :
    get? k (erase k' l) = if k' = k then none else get? k l := by
  induction l with
  | nil => simp [erase]
  | cons p l ih => grind [erase, get?]

/-- Renaming moves a value: the target answers for the source, the source for nothing, and every
other key as before. -/
theorem get?_rename (k source target : κ) (l : List (κ × α)) :
    get? k (rename source target l) =
      if source = target ∨ get? source l = none then get? k l
      else if target = k then get? source l
      else if source = k then none
      else get? k l := by
  unfold rename
  by_cases h : source = target
  · simp [h]
  · cases hs : get? source l with
    | none => simp [h]
    | some a => simp [h, get?_put, get?_erase]

/-- Every key but the two stays as it is. -/
theorem get?_rename_of_ne {k source target : κ} (hs : k ≠ source) (ht : k ≠ target)
    (l : List (κ × α)) : get? k (rename source target l) = get? k l := by
  rw [get?_rename, if_neg ht.symm, if_neg hs.symm, ite_self]

/-- The source has no value afterwards. -/
theorem get?_rename_source {source target : κ} (h : source ≠ target) (l : List (κ × α)) :
    get? source (rename source target l) = none := by
  rw [get?_rename]
  by_cases hs : get? source l = none
  · rw [if_pos (.inr hs), hs]
  · rw [if_neg (not_or.2 ⟨h, hs⟩), if_neg h.symm, if_pos rfl]

/-- A value reaches its target. -/
theorem get?_rename_target {source target : κ} {l : List (κ × α)} {a : α}
    (h : get? source l = some a) : get? target (rename source target l) = some a := by
  rw [get?_rename]
  by_cases hst : source = target
  · rw [if_pos (.inl hst), ← hst, h]
  · rw [if_neg (by simp [hst, h]), if_pos rfl, h]

/-! ### Keys -/

/-- A key has a value iff it occurs. -/
theorem get?_ne_none_iff {k : κ} {l : List (κ × α)} : get? k l ≠ none ↔ k ∈ l.map (·.1) := by
  induction l with
  | nil => simp
  | cons p l ih =>
      obtain ⟨c, a⟩ := p
      rw [get?_cons, List.map_cons, List.mem_cons]
      by_cases hc : c = k
      · simp [hc]
      · rw [if_neg hc, ih]
        exact ⟨.inr, fun h => h.resolve_left (Ne.symm hc)⟩

/-- If no key occurs twice, every pair tells the value of its key. -/
theorem get?_of_mem {p : κ × α} {l : List (κ × α)} (h : (l.map (·.1)).Nodup) (hp : p ∈ l) :
    get? p.1 l = some p.2 := by
  induction l with
  | nil => exact absurd hp List.not_mem_nil
  | cons q l ih =>
      obtain ⟨c, a⟩ := q
      rw [List.map_cons, List.nodup_cons] at h
      rw [get?_cons]
      rcases List.mem_cons.1 hp with rfl | hrest
      · rw [if_pos rfl]
      · have hne : c ≠ p.1 := by
          rintro rfl
          exact h.1 (List.mem_map.2 ⟨p, hrest, rfl⟩)
        rw [if_neg hne, ih h.2 hrest]

/-- A value is found with its key among the pairs. -/
theorem mem_of_get? {k : κ} {a : α} {l : List (κ × α)} (h : get? k l = some a) : (k, a) ∈ l := by
  induction l with
  | nil => cases h
  | cons p l ih =>
      obtain ⟨c, b⟩ := p
      rw [get?_cons] at h
      split at h
      · next hc =>
          cases h
          exact hc ▸ List.mem_cons_self ..
      · exact List.mem_cons_of_mem _ (ih h)

/-- If no key occurs twice, the order of the pairs does not matter. -/
theorem get?_perm {l l' : List (κ × α)} (h : (l.map (·.1)).Nodup) (hperm : l.Perm l') (k : κ) :
    get? k l = get? k l' := by
  have h' : (l'.map (·.1)).Nodup := (hperm.map (·.1)).nodup_iff.1 h
  refine Option.ext fun a => ⟨fun ha => ?_, fun ha => ?_⟩
  · exact get?_of_mem h' (hperm.mem_iff.1 (mem_of_get? ha))
  · exact get?_of_mem h (hperm.mem_iff.2 (mem_of_get? ha))

theorem mem_keys_put {k k' : κ} {a : α} {l : List (κ × α)} :
    k ∈ (put k' a l).map (·.1) ↔ k = k' ∨ k ∈ l.map (·.1) := by
  induction l with
  | nil => simp [put]
  | cons p l ih =>
      obtain ⟨c, b⟩ := p
      by_cases hc : c = k'
      · subst hc
        simp [put]
      · simp only [put, hc, if_false, List.map_cons, List.mem_cons, ih]
        grind

theorem keys_put_nodup {k : κ} {a : α} {l : List (κ × α)} (h : (l.map (·.1)).Nodup) :
    ((put k a l).map (·.1)).Nodup := by
  induction l with
  | nil => simp [put]
  | cons p l ih =>
      obtain ⟨c, b⟩ := p
      rw [List.map_cons, List.nodup_cons] at h
      by_cases hc : c = k
      · subst hc
        simpa [put] using h
      · rw [put, if_neg hc, List.map_cons, List.nodup_cons, mem_keys_put]
        exact ⟨not_or.2 ⟨hc, h.1⟩, ih h.2⟩

omit [DecidableEq κ] in
theorem keys_filter_nodup {p : κ × α → Bool} {l : List (κ × α)} (h : (l.map (·.1)).Nodup) :
    ((l.filter p).map (·.1)).Nodup :=
  h.sublist (List.filter_sublist.map _)

theorem keys_erase_nodup {k : κ} {l : List (κ × α)} (h : (l.map (·.1)).Nodup) :
    ((erase k l).map (·.1)).Nodup :=
  keys_filter_nodup h

end Chronicle.Assoc
