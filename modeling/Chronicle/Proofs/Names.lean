/-
**The order of names.**  Names are kept in the order of their texts, which compares code points.  In
UTF-8 that is the order of the bytes: the bytes of the greater of two code points are greater where
the two encodings first part, and neither encoding begins with the other.

Main definitions:

* `Text.utf8` — the bytes of a text in UTF-8, `Text.utf8Char` — those of one code point;
* `Id.Precedes` — the order of names by their bytes.

Main results:

* `Text.utf8Char_append_lt` — code points compare as their bytes do, whatever follows;
* `Text.utf8_lt_iff` — **texts compare as their bytes do**;
* `Id.sort_perm`, `Id.pairwise_sort` — sorting names loses none, and leaves them in that order.
-/

import Chronicle.Id
import Mathlib.Data.String.Basic

set_option autoImplicit false

namespace Chronicle

/-! ### Texts as bytes -/

namespace Text

/-- The bytes of a text in UTF-8. -/
def utf8 (s : String) : List Nat :=
  s.toByteArray.data.toList.map (·.toNat)

/-- The bytes of one code point: a first byte that tells how many follow, and six bits in each of
those. -/
def utf8Char (n : Nat) : List Nat :=
  if n ≤ 127 then [n]
  else if n ≤ 2047 then [192 + n / 64, 128 + n % 64]
  else if n ≤ 65535 then [224 + n / 4096, 128 + n / 64 % 64, 128 + n % 64]
  else [240 + n / 262144, 128 + n / 4096 % 64, 128 + n / 64 % 64, 128 + n % 64]

theorem utf8Char_ne_nil (n : Nat) : utf8Char n ≠ [] := by
  unfold utf8Char
  split_ifs <;> simp

theorem toNat_lt_of_char (c : Char) : c.val.toNat < 0x110000 := by
  rcases c.valid with h | h <;> omega

theorem map_utf8EncodeChar (c : Char) :
    (String.utf8EncodeChar c).map (·.toNat) = utf8Char c.val.toNat := by
  have hc := toNat_lt_of_char c
  simp only [String.utf8EncodeChar, utf8Char]
  split_ifs <;>
    simp only [List.map_cons, List.map_nil, UInt8.toNat_ofNat', List.cons.injEq, and_true] <;>
    omega

/-- The bytes of a text are those of its characters, one after another. -/
theorem utf8_eq_flatMap (s : String) :
    utf8 s = s.toList.flatMap fun c => utf8Char c.val.toNat := by
  have hbytes : s.toByteArray.data.toList = s.toList.flatMap String.utf8EncodeChar := by
    conv_lhs => rw [← String.ofList_toList (s := s), String.toByteArray_ofList]
    simp [List.utf8Encode]
  rw [utf8, hbytes, List.map_flatMap]
  simp only [map_utf8EncodeChar]

/-- The greater code point has the greater byte where the two first part, whatever follows. -/
theorem utf8Char_append_lt {n n' : Nat} (h : n < n') (hn' : n' < 0x110000) (x y : List Nat) :
    utf8Char n ++ x < utf8Char n' ++ y := by
  -- encodings of different lengths part at their first bytes, whose ranges follow one another; those
  -- of one length are the digits of the two numbers, and what follows is never reached
  unfold utf8Char
  by_cases hxy : x < y <;> split_ifs <;>
    simp only [List.cons_append, List.nil_append, List.cons_lt_cons_iff, hxy, and_true, and_false,
      or_false] <;>
    omega

theorem flatMap_utf8Char_lt {l m : List Char} (h : l < m) :
    (l.flatMap fun c => utf8Char c.val.toNat) < m.flatMap fun c => utf8Char c.val.toNat := by
  induction h with
  | @nil c m =>
      rw [List.flatMap_nil, List.flatMap_cons]
      cases hc : utf8Char c.val.toNat with
      | nil => exact absurd hc (utf8Char_ne_nil _)
      | cons b bytes => exact List.nil_lt_cons ..
  | cons _ ih =>
      rw [List.flatMap_cons, List.flatMap_cons]
      exact List.Lex.append_left _ ih _
  | @rel c l c' m h =>
      rw [List.flatMap_cons, List.flatMap_cons]
      exact utf8Char_append_lt h (toNat_lt_of_char c') _ _

/-- **Texts compare as their bytes do.** -/
theorem utf8_lt_iff {s t : String} : utf8 s < utf8 t ↔ s < t := by
  have hmono : ∀ {s t : String}, s < t → utf8 s < utf8 t := by
    intro s t h
    rw [utf8_eq_flatMap, utf8_eq_flatMap]
    exact flatMap_utf8Char_lt (String.lt_iff.1 h)
  refine ⟨fun h => ?_, hmono⟩
  rcases lt_trichotomy s t with hst | rfl | hts
  · exact hst
  · exact absurd h (lt_irrefl _)
  · exact absurd h (hmono hts).asymm

theorem utf8_le_iff {s t : String} : utf8 s ≤ utf8 t ↔ s ≤ t := by
  rw [← not_lt, utf8_lt_iff, not_lt]

end Text

/-! ### Names in order -/

namespace Id

variable {kind : IdKind}

/-- Whether the bytes of one name come before those of another, or are the same. -/
def Precedes (a b : Id kind) : Prop :=
  Text.utf8 a.text ≤ Text.utf8 b.text

theorem precedes_iff {a b : Id kind} : a.Precedes b ↔ a.text ≤ b.text :=
  Text.utf8_le_iff

instance : DecidableRel (@Precedes kind) := fun a b =>
  inferInstanceAs (Decidable (Text.utf8 a.text ≤ Text.utf8 b.text))

instance : IsTrans (Id kind) Precedes :=
  ⟨fun _ _ _ hab hbc => le_trans hab hbc⟩

instance : Std.Total (@Precedes kind) :=
  ⟨fun a b => le_total (Text.utf8 a.text) (Text.utf8 b.text)⟩

instance : Std.Antisymm (@Precedes kind) :=
  ⟨fun _ _ hab hba => Id.ext (le_antisymm (precedes_iff.1 hab) (precedes_iff.1 hba))⟩

/-- Sorting loses no name and adds none. -/
theorem sort_perm (ids : List (Id kind)) : (sort ids).Perm ids :=
  List.mergeSort_perm ids _

/-- Sorting puts names in the order of their bytes. -/
theorem pairwise_sort (ids : List (Id kind)) : (sort ids).Pairwise Precedes := by
  have hsorted : (sort ids).Pairwise fun a b => decide (a.text ≤ b.text) = true := by
    refine List.pairwise_mergeSort ?_ ?_ ids
    · intro a b c hab hbc
      rw [decide_eq_true_iff] at hab hbc ⊢
      exact hab.trans hbc
    · intro a b
      rw [Bool.or_eq_true, decide_eq_true_iff, decide_eq_true_iff]
      exact le_total a.text b.text
  exact hsorted.imp fun hle => precedes_iff.2 (of_decide_eq_true hle)

/-- Names that are sorted ascend strictly, if none occurs twice. -/
theorem pairwise_lt_sort {ids : List (Id kind)} (h : ids.Nodup) :
    (sort ids).Pairwise fun a b => Text.utf8 a.text < Text.utf8 b.text := by
  have hdistinct : (sort ids).Pairwise (· ≠ ·) := (sort_perm ids).nodup_iff.2 h
  refine ((pairwise_sort ids).and hdistinct).imp ?_
  rintro a b ⟨hle, hne⟩
  rw [Text.utf8_lt_iff]
  exact lt_of_le_of_ne (precedes_iff.1 hle) fun htext => hne (Id.ext htext)

end Id

end Chronicle
