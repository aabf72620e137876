/-
**Numerals.**  A number as it stands in a text, and the number that is read from it.

An integer within 64 bits, signed or unsigned, is read exactly.  Any other numeral is read as a
double: as many of its digits as fit 64 bits form a significand, which is then multiplied by a power
of ten or divided by one.  This is not always the nearest double, but it is the one meant here.

Main definitions:

* `Numeral` — the parts of a written number;
* `Numeral.ofChars?` — the grammar of written numbers;
* `Numeral.value?` — the number read, unless it is too large for a double.
-/

import Chronicle.Json.Basic

set_option autoImplicit false

namespace Chronicle

/-- The parts of a written number, as digits. -/
structure Numeral where
  negative : Bool
  whole : List Nat
  /-- The digits after the point; none if there is no point. -/
  fraction : List Nat
  /-- Whether the power of ten is negative, and its digits. -/
  exponent : Option (Bool × List Nat)
deriving DecidableEq, Repr

namespace Numeral

/-! ### Grammar -/

/-- The leading digits of a text, and what follows them. -/
def digits (cs : List Char) : List Nat × List Char :=
  let run := cs.takeWhile Char.isDigit
  (run.map fun c => c.toNat - '0'.toNat, cs.drop run.length)

/-- The power of ten that ends a numeral. -/
def exponent? : List Char → Option (Option (Bool × List Nat))
  | [] => some none
  | e :: cs =>
    if e = 'e' ∨ e = 'E' then
      let (negative, cs) := match cs with
        | '-' :: rest => (true, rest)
        | '+' :: rest => (false, rest)
        | _ => (false, cs)
      match digits cs with
      | (ds@(_ :: _), []) => some (some (negative, ds))
      | _ => none
    else none

/-- The digits after the point, and what follows them. -/
def fraction? : List Char → Option (List Nat × List Char)
  | '.' :: cs =>
    match digits cs with
    | (ds@(_ :: _), rest) => some (ds, rest)
    | _ => none
  | cs => some ([], cs)

/-- Reads a whole text as a numeral: no leading zeros, a digit on either side of a point, a digit in
an exponent. -/
def ofChars? (cs : List Char) : Option Numeral := do
  let (negative, cs) := match cs with
    | '-' :: rest => (true, rest)
    | _ => (false, cs)
  let (whole, cs) := digits cs
  guard (whole = [0] ∨ (whole ≠ [] ∧ whole.head? ≠ some 0))
  let (fraction, cs) ← fraction? cs
  let exponent ← exponent? cs
  return ⟨negative, whole, fraction, exponent⟩

/-! ### Value -/

/-- A significand below `2 ^ 64` and a power of ten. -/
structure Scaled where
  significand : Nat
  exponent : Int

/-- The significand of the whole part: from the first digit that does not fit on, each digit counts
as a factor of ten only. -/
def scaleWhole (s : Scaled) : List Nat → Scaled
  | [] => s
  | d :: ds =>
    if s.significand * 10 + d < UInt64.size then scaleWhole ⟨s.significand * 10 + d, s.exponent⟩ ds
    else ⟨s.significand, s.exponent + (ds.length + 1 : Nat)⟩

/-- The significand with the digits after the point: from the first that does not fit on, they are
dropped. -/
def scaleFraction (s : Scaled) : List Nat → Scaled
  | [] => s
  | d :: ds =>
    if s.significand * 10 + d < UInt64.size then
      scaleFraction ⟨s.significand * 10 + d, s.exponent - 1⟩ ds
    else s

/-- A power of ten as a double; `e` is at most 308. -/
def powerOfTen (e : Nat) : Float :=
  Float.ofScientific 1 false e

/-- Divides a double by `10 ^ e`, in steps of at most 308 places. -/
def shrink (x : Float) (e : Nat) : Float :=
  if e ≤ 308 then x / powerOfTen e
  else if x == 0 then x
  else shrink (x / powerOfTen 308) (e - 308)
termination_by e

/-- The double that a significand and a power of ten stand for, unless it is too large. -/
def Scaled.toFloat? (s : Scaled) : Option Float :=
  let x := (UInt64.ofNat s.significand).toFloat
  if s.exponent < 0 then some (shrink x s.exponent.natAbs)
  else if s.exponent ≤ 308 then
    let y := x * powerOfTen s.exponent.toNat
    if y.isInf then none else some y
  else if x == 0 then some x
  else none

/-- The number that digits spell. -/
def ofDigits (ds : List Nat) : Nat :=
  ds.foldl (fun n d => n * 10 + d) 0

/-- The power of ten of a numeral, when its digits are few enough for 31 bits. -/
def power? : Option (Bool × List Nat) → Option Int
  | none => some 0
  | some (negative, ds) =>
    let n := ofDigits ds
    if UInt32.size / 2 ≤ n then none else some (if negative then -(n : Int) else n)

/-- The size of a numeral as a double, unless it is too large. -/
def size? (n : Numeral) : Option Float :=
  let s := scaleFraction (scaleWhole ⟨0, 0⟩ n.whole) n.fraction
  match power? n.exponent with
  | some p => Scaled.toFloat? ⟨s.significand, s.exponent + p⟩
  | none =>
    if s.significand ≠ 0 ∧ (n.exponent.map (·.1)) = some false then none else some 0

/-- The number that a numeral stands for, unless it is too large for a double. -/
def value? (n : Numeral) : Option Number :=
  let plain := n.fraction = [] ∧ n.exponent = none
  let whole := ofDigits n.whole
  if plain ∧ ¬n.negative ∧ whole < UInt64.size then some (.int whole)
  else if plain ∧ n.negative ∧ 0 < whole ∧ whole ≤ UInt64.size / 2 then
    some (.int (-(whole : Int)))
  else n.size?.map fun x => .float (if n.negative then -x else x)

end Numeral

end Chronicle
