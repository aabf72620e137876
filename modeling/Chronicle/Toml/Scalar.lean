/-
**Bare values.**  The values that a configuration text writes without quotes: truth values, integers
in four bases, numbers with a fraction or an exponent, and points in time.

Main definitions:

* `Toml.integer?`, `Toml.float?`, `Toml.moment?` — the three kinds of lexeme;
* `Toml.scalar?` — the value of a lexeme.
-/

import Chronicle.Toml.Basic

set_option autoImplicit false

namespace Chronicle.Toml

/-! ### Digits -/

/-- The digits of a group, in which single underscores may stand between digits. -/
def digits? (isDigit : Char → Bool) : List Char → Option (List Char)
  | [] => none
  | [c] => if isDigit c then some [c] else none
  | c :: '_' :: rest => if isDigit c then (digits? isDigit rest).map (c :: ·) else none
  | c :: rest => if isDigit c then (digits? isDigit rest).map (c :: ·) else none

/-- The value of a digit in a base up to sixteen. -/
def digitValue (c : Char) : Nat :=
  if c.isDigit then c.toNat - '0'.toNat
  else if 'a' ≤ c ∧ c ≤ 'f' then c.toNat - 'a'.toNat + 10
  else if 'A' ≤ c ∧ c ≤ 'F' then c.toNat - 'A'.toNat + 10
  else 16

/-- Whether a character is a digit in a base. -/
def isDigitIn (base : Nat) (c : Char) : Bool :=
  digitValue c < base

/-- The number that digits spell in a base. -/
def ofDigits (base : Nat) (ds : List Char) : Nat :=
  ds.foldl (fun n c => n * base + digitValue c) 0

/-- A sign, if there is one, and what follows it. -/
def signed : List Char → Bool × List Char
  | '-' :: rest => (true, rest)
  | '+' :: rest => (false, rest)
  | cs => (false, cs)

/-- The digits of a decimal number, which has no leading zeros. -/
def decimal? (cs : List Char) : Option (List Char) := do
  let ds ← digits? Char.isDigit cs
  guard (ds = ['0'] ∨ ds.head? ≠ some '0')
  return ds

/-! ### Integers -/

/-- An integer: a decimal one may have a sign, and any has to fit 64 bits with one. -/
def integer? (cs : List Char) : Option Int :=
  let based (base : Nat) (rest : List Char) : Option Int := do
    let n := ofDigits base (← digits? (isDigitIn base) rest)
    if n < UInt64.size / 2 then some n else none
  match cs with
  | '0' :: 'x' :: rest => based 16 rest
  | '0' :: 'o' :: rest => based 8 rest
  | '0' :: 'b' :: rest => based 2 rest
  | _ => do
    let (negative, rest) := signed cs
    let n := ofDigits 10 (← decimal? rest)
    if negative then
      if n ≤ UInt64.size / 2 then some (-(n : Int)) else none
    else if n < UInt64.size / 2 then some n
    else none

/-! ### Numbers with a fraction or an exponent -/

/-- Whether `digits * 10 ^ exponent` is so large that no double is near it. -/
def isInfinite (digits : Nat) (exponent : Int) : Bool :=
  let length : Int := (toString digits).length
  if digits = 0 then false
  else if 310 ≤ length - 1 + exponent then true
  else if length + exponent ≤ 308 then false
  else
    let bound := Nat.pow 2 1024 - Nat.pow 2 970
    if 0 ≤ exponent then bound ≤ digits * Nat.pow 10 exponent.toNat
    else bound * Nat.pow 10 (-exponent).toNat ≤ digits

/-- The exponent of a lexeme. -/
def exponent? : List Char → Option Int
  | e :: rest =>
    if e = 'e' ∨ e = 'E' then do
      let (negative, rest) := signed rest
      let n := ofDigits 10 (← digits? Char.isDigit rest)
      return if negative then -(n : Int) else n
    else none
  | [] => none

/-- Whether a lexeme is a number with a fraction, an exponent or both, or one of the names of what is
no finite number.  A number above all doubles is none; one below them all is one. -/
def float? (cs : List Char) : Option Unit :=
  let (negative, rest) := signed cs
  if rest = "inf".toList ∨ rest = "nan".toList then some ()
  else
    let inGroup (c : Char) : Bool := c.isDigit || c = '_'
    let whole := rest.takeWhile inGroup
    match rest.drop whole.length with
    | '.' :: tail => do
      let whole ← decimal? whole
      let fraction := tail.takeWhile inGroup
      let places ← digits? Char.isDigit fraction
      let after := tail.drop fraction.length
      let e ← if after.isEmpty then some 0 else exponent? after
      guard (negative ∨ ¬isInfinite (ofDigits 10 (whole ++ places)) (e - places.length))
    | after => do
      let whole ← decimal? whole
      let e ← exponent? after
      guard (negative ∨ ¬isInfinite (ofDigits 10 whole) e)

/-! ### Points in time -/

/-- A number of exactly two digits within bounds, and what follows it. -/
def twoDigits? (least greatest : Nat) : List Char → Option (Nat × List Char)
  | a :: b :: rest =>
    if a.isDigit ∧ b.isDigit then
      let n := ofDigits 10 [a, b]
      if least ≤ n ∧ n ≤ greatest then some (n, rest) else none
    else none
  | _ => none

/-- What follows a given character. -/
def after? (c : Char) : List Char → Option (List Char)
  | d :: rest => if d = c then some rest else none
  | [] => none

/-- How many days a month has. -/
def daysIn (year month : Nat) : Nat :=
  if month = 2 then
    if year % 4 = 0 ∧ (year % 100 ≠ 0 ∨ year % 400 = 0) then 29 else 28
  else if month = 4 ∨ month = 6 ∨ month = 9 ∨ month = 11 then 30
  else 31

/-- A day of the calendar, and what follows it. -/
def date? (cs : List Char) : Option (List Char) := do
  let (century, rest) ← twoDigits? 0 99 cs
  let (year, rest) ← twoDigits? 0 99 rest
  let (month, rest) ← twoDigits? 1 12 (← after? '-' rest)
  let (day, rest) ← twoDigits? 1 31 (← after? '-' rest)
  guard (day ≤ daysIn (century * 100 + year) month)
  return rest

/-- A time of day, perhaps with a fraction of a second, and what follows it. -/
def time? (cs : List Char) : Option (List Char) := do
  let (_, rest) ← twoDigits? 0 23 cs
  let (_, rest) ← twoDigits? 0 59 (← after? ':' rest)
  let (_, rest) ← twoDigits? 0 60 (← after? ':' rest)
  match rest with
  | '.' :: tail =>
    let fraction := tail.takeWhile Char.isDigit
    guard (!fraction.isEmpty)
    return tail.drop fraction.length
  | _ => return rest

/-- A distance from universal time, up to the end of the lexeme. -/
def offset? : List Char → Option Unit
  | ['Z'] => some ()
  | ['z'] => some ()
  | c :: rest => do
    guard (c = '+' ∨ c = '-')
    let (_, rest) ← twoDigits? 0 23 rest
    let (_, rest) ← twoDigits? 0 59 (← after? ':' rest)
    guard rest.isEmpty
  | [] => none

/-- Whether a lexeme is a day, a time of day, or both with or without a distance from universal
time. -/
def moment? (cs : List Char) : Option Unit :=
  match date? cs with
  | some [] => some ()
  | some (c :: rest) => do
    guard (c = 'T' ∨ c = 't' ∨ c = ' ')
    let rest ← time? rest
    if rest.isEmpty then some () else offset? rest
  | none => do
    let rest ← time? cs
    guard rest.isEmpty

/-! ### Values -/

/-- The value of a lexeme without quotes. -/
def scalar? (cs : List Char) : Option Value :=
  if cs = "true".toList then some (.bool true)
  else if cs = "false".toList then some (.bool false)
  else match integer? cs with
    | some n => some (.int n)
    | none =>
      match float? cs, moment? cs with
      | some _, _ => some (.float (String.ofList cs))
      | none, some _ => some (.moment (String.ofList cs))
      | none, none => none

end Chronicle.Toml
