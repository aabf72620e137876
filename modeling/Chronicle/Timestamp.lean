/-
**Points in time and spans of time.**  A timestamp counts milliseconds since the epoch in 64 bits.
A span of time is given in seconds and nanoseconds, which can hold more milliseconds than 64 bits
do: arithmetic on timestamps takes their number modulo `2 ^ 64`.

Main definitions:

* `Timestamp`, `Duration` — points and spans;
* `Duration.wholeMillis`, `Duration.millis` — a span in full milliseconds, exactly and in 64 bits;
* `Timestamp.later`, `Timestamp.earlier` — moving a point, stopping at the ends of the range;
* `Timestamp.advance` — moving the hand of a clock, which runs past the end of its range to zero.

Main results:

* `Duration.toNat_millis`, `Timestamp.toNat_later`, `Timestamp.toNat_earlier`,
  `Timestamp.toNat_advance` — the four operations in exact arithmetic.
-/

set_option autoImplicit false

namespace Chronicle

/-- A point in time, in milliseconds since the epoch. -/
@[ext]
structure Timestamp where
  millis : UInt64
deriving DecidableEq, Repr

/-- A span of time: whole seconds, and nanoseconds short of one more. -/
structure Duration where
  secs : UInt64
  nanos : Nat
  nanos_lt : nanos < 1000000000
deriving DecidableEq, Repr

namespace Duration

/-- The full milliseconds in a span. -/
def wholeMillis (d : Duration) : Nat :=
  d.secs.toNat * 1000 + d.nanos / 1000000

/-- The full milliseconds in a span as a 64-bit word, the excess dropped. -/
def millis (d : Duration) : UInt64 :=
  UInt64.ofNat d.wholeMillis

theorem toNat_millis (d : Duration) : d.millis.toNat = d.wholeMillis % UInt64.size :=
  UInt64.toNat_ofNat'

end Duration

namespace Timestamp

/-- The epoch. -/
def zero : Timestamp := ⟨0⟩

/-- The point a span later, or the last point there is. -/
def later (t : Timestamp) (d : Duration) : Timestamp :=
  ⟨UInt64.ofNat (min (t.millis.toNat + d.millis.toNat) (UInt64.size - 1))⟩

/-- The point a span earlier, or the epoch. -/
def earlier (t : Timestamp) (d : Duration) : Timestamp :=
  ⟨UInt64.ofNat (t.millis.toNat - d.millis.toNat)⟩

/-- Where the hand of a clock stands after a span: past the last point it begins again at the
epoch. -/
def advance (t : Timestamp) (d : Duration) : Timestamp :=
  ⟨t.millis + d.millis⟩

/-- The earlier of two points compares as the lesser. -/
protected def compare (t u : Timestamp) : Ordering :=
  compare t.millis u.millis

/-- A point in time as people read it. -/
def text (t : Timestamp) : String :=
  toString t.millis.toNat ++ "ms"

theorem toNat_later (t : Timestamp) (d : Duration) :
    (t.later d).millis.toNat =
      min (t.millis.toNat + d.millis.toNat) (UInt64.size - 1) :=
  UInt64.toNat_ofNat_of_lt' (Nat.lt_of_le_of_lt (Nat.min_le_right _ _) (by decide))

theorem toNat_earlier (t : Timestamp) (d : Duration) :
    (t.earlier d).millis.toNat = t.millis.toNat - d.millis.toNat := by
  have h : t.millis.toNat - d.millis.toNat < UInt64.size :=
    Nat.lt_of_le_of_lt (Nat.sub_le _ _) t.millis.toNat_lt_size
  exact UInt64.toNat_ofNat_of_lt' h

theorem toNat_advance (t : Timestamp) (d : Duration) :
    (t.advance d).millis.toNat = (t.millis.toNat + d.millis.toNat) % UInt64.size :=
  UInt64.toNat_add _ _

end Timestamp

end Chronicle
