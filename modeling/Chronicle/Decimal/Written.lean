/-
**Written decimals.**  A decimal is written out in full when its leading digit stands near the
point, and with a power of ten when it stands far from it.

Main definitions:

* `Decimal.Style` — the choices that a way of writing decimals makes;
* `Decimal.write` — a decimal in a given style.
-/

import Chronicle.Decimal.Shortest

set_option autoImplicit false

namespace Chronicle.Decimal

/-- The choices that a way of writing decimals makes. -/
structure Style where
  /-- The least exponent of the leading digit that is written out in full. -/
  leastFull : Int
  /-- The greatest such exponent. -/
  greatestFull : Int

/-- The digits in full, with a point and at least one digit on either side of it. -/
def writeFull (d : Decimal) : String :=
  let digits := (toString d.digits).toList
  let zeros (n : Nat) := List.replicate n '0'
  let chars :=
    if 0 ≤ d.exponent then digits ++ zeros d.exponent.toNat ++ ['.', '0']
    else
      let places := (-d.exponent).toNat
      let whole := digits.length - places
      if places < digits.length then digits.take whole ++ ['.'] ++ digits.drop whole
      else ['0', '.'] ++ zeros (places - digits.length) ++ digits
  String.ofList chars

/-- One digit before the point, the rest behind it, and the power of ten with its sign. -/
def writeScaled (d : Decimal) : String :=
  let digits := (toString d.digits).toList
  let lead := d.exponent + (digits.length : Int) - 1
  let tail := if digits.length ≤ 1 then [] else '.' :: digits.drop 1
  String.ofList (digits.take 1 ++ tail) ++ "e" ++ (if lead < 0 then "-" else "+") ++
    toString lead.natAbs

/-- A decimal in a given style. -/
def write (style : Style) (d : Decimal) : String :=
  let lead := d.exponent + ((toString d.digits).length : Int) - 1
  if d.digits = 0 ∨ (style.leastFull ≤ lead ∧ lead ≤ style.greatestFull) then writeFull d
  else writeScaled d

end Chronicle.Decimal
