/-
**Settings.**  What a client can be told: how often it tries again, how much it shows at once, and
how the records of its collection are laid out.

Main definitions:

* `Settings` — the settings and their defaults;
* `Settings.attempts` — how many rounds a write may take.
-/

import Chronicle.Schema

set_option autoImplicit false

namespace Chronicle

/-- What a client can be told. -/
@[ext]
structure Settings where
  /-- How many further rounds a write may take after a conflict. -/
  maxRetries : UInt32 := 8
  /-- The most entries shown to a reader who names no bound; `none` is no bound. -/
  maxLogLength : Option UInt64 := some 100
  /-- The layout of the collection. -/
  collection : Schema := {}
deriving DecidableEq, Repr

/-- How many rounds a write may take; the number fits the word that reports it. -/
def Settings.attempts (settings : Settings) : Nat :=
  min (settings.maxRetries.toNat + 1) (UInt32.size - 1)

end Chronicle
