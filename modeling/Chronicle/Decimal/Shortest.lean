/-
**Shortest decimals.**  A binary floating-point number stands for all the reals that round to it.
Of the decimals among those reals, its shortest one has the fewest digits, and of the decimals with
that many digits it is the nearest to the number itself.

Main definitions:

* `Decimal` — digits and a power of ten;
* `Decimal.shortest` — the shortest decimal of a positive binary number;
* `Decimal.ofFloat` — the shortest decimal of a double, its sign apart.
-/

set_option autoImplicit false

namespace Chronicle

/-- The number `digits * 10 ^ exponent`. -/
structure Decimal where
  digits : Nat
  exponent : Int
deriving DecidableEq, Repr

namespace Decimal

/-! ### Decimals near a ratio -/

/-- A ratio of natural numbers, times a power of ten. -/
structure Ratio where
  num : Nat
  den : Nat

/-- The ratio divided by `10 ^ e`. -/
def Ratio.scaleDown (r : Ratio) (e : Int) : Ratio :=
  if 0 ≤ e then ⟨r.num, r.den * Nat.pow 10 e.toNat⟩
  else ⟨r.num * Nat.pow 10 (-e).toNat, r.den⟩

/-- The exponent of the leading decimal digit of a positive ratio. -/
def Ratio.leading (r : Ratio) : Int :=
  if r.den ≤ r.num then ((Nat.toDigits 10 (r.num / r.den)).length : Int) - 1
  else
    let quotient := (r.den + r.num - 1) / r.num
    0 - ((Nat.toDigits 10 (quotient - 1)).length : Int)

/-- Cuts off trailing zeros, at most `fuel` of them. -/
def trim : Nat → Decimal → Decimal
  | 0, d => d
  | fuel + 1, d =>
    if d.digits ≠ 0 ∧ d.digits % 10 = 0 then trim fuel ⟨d.digits / 10, d.exponent + 1⟩ else d

/-! ### The shortest decimal -/

/-- A positive binary number with the ends of the interval that rounds to it, all over one
denominator. -/
structure Rounded where
  low : Nat
  value : Nat
  high : Nat
  den : Nat
  /-- Whether the ends themselves round to the number. -/
  closed : Bool

/-- Whether `n * 10 ^ e` rounds to the number. -/
def Rounded.accepts (r : Rounded) (n : Nat) (e : Int) : Bool :=
  let low := Ratio.scaleDown ⟨r.low, r.den⟩ e
  let high := Ratio.scaleDown ⟨r.high, r.den⟩ e
  if r.closed then low.num ≤ n * low.den && n * high.den ≤ high.num
  else low.num < n * low.den && n * high.den < high.num

/-- The decimal of the grid `10 ^ e` that is nearest to the number, of those that round to it; a tie
goes to the even digit. -/
def Rounded.onGrid? (r : Rounded) (e : Int) : Option Decimal :=
  let v := Ratio.scaleDown ⟨r.value, r.den⟩ e
  let below := v.num / v.den
  let rest := v.num % v.den
  let up := below + 1
  match r.accepts below e, r.accepts up e with
  | true, true =>
    if 2 * rest < v.den ∨ (2 * rest = v.den ∧ below % 2 = 0) then some ⟨below, e⟩ else some ⟨up, e⟩
  | true, false => some ⟨below, e⟩
  | false, true => some ⟨up, e⟩
  | false, false => none

/-- The decimal with the fewest digits that rounds to the number; seventeen always suffice for a
double. -/
def shortest (r : Rounded) : Decimal :=
  let lead := Ratio.leading ⟨r.value, r.den⟩
  match (List.range 17).findSome? fun (n : Nat) => r.onGrid? (lead - n) with
  | some d => trim 20 d
  | none => ⟨0, 0⟩

/-- The positive double with these bits (the sign bit left out), with its rounding interval. -/
def roundedOfBits (bits : Nat) : Rounded :=
  let unit := Nat.pow 2 52
  let field := bits / unit
  let fraction := bits % unit
  let mantissa := if field = 0 then fraction else fraction + unit
  let scale : Int := ((if field = 0 then 1 else field : Nat) : Int) - 1077
  let margin := if fraction = 0 ∧ 1 < field then 1 else 2
  let up := Nat.pow 2 scale.toNat
  ⟨(4 * mantissa - margin) * up, 4 * mantissa * up, (4 * mantissa + 2) * up,
    Nat.pow 2 (-scale).toNat, mantissa % 2 = 0⟩

/-- Whether a double is negative, and the shortest decimal of its size. -/
def ofFloat (x : Float) : Bool × Decimal :=
  let bits := x.toBits.toNat
  let signBit := UInt64.size / 2
  let size := bits % signBit
  (signBit ≤ bits, if size = 0 then ⟨0, 0⟩ else shortest (roundedOfBits size))

end Decimal

end Chronicle
