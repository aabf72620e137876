/-
**Settings from configuration texts.**  How settings are read from a configuration text.  Unknown
keys count for nothing, and every setting may be left out.

Main definitions:

* `Schema.ofToml?` — the layout of a collection from a table, or from a list of its names;
* `Settings.ofToml?` — the settings of a text.
-/

import Chronicle.Form.Settings
import Chronicle.Toml.Reader

set_option autoImplicit false

namespace Chronicle

namespace Toml

/-- A text value. -/
def Value.text? : Value → Option String
  | .text s => some s
  | _ => none

/-- A natural number below a bound. -/
def Value.below? (bound : Nat) : Value → Option Nat
  | .int n => if 0 ≤ n ∧ n < bound then some n.toNat else none
  | _ => none

/-- A value that may be left out, but may not be wrong. -/
def given? {α : Type} (read : Value → Option α) : Option Value → Option (Option α)
  | none => some none
  | some v => (read v).map some

end Toml

open Toml in
/-- The layout of a collection: a table of its names, or a list of them, of which only the first
three count.  A point in time is a table of its own kind, in which no name is known. -/
def Schema.ofToml? : Value → Option Schema
  | .table _ members => do
    let part? (name : String) := given? Value.text? (Assoc.get? name members)
    return ofParts (← part? "name") (← part? "id_field") (← part? "update_time_field")
  | .list items => do
    let part? (i : Nat) := given? Value.text? items[i]?
    return ofParts (← part? 0) (← part? 1) (← part? 2)
  | .moment _ => some {}
  | _ => none

open Toml in
/-- The settings of a configuration text. -/
def Settings.ofToml? (text : String) : Option Settings := do
  let members ← parse? text
  let maxRetries ← given? (Value.below? UInt32.size) (Assoc.get? "max_conflict_retries" members)
  let maxLogLength ← given? (Value.below? UInt64.size) (Assoc.get? "default_max_log_len" members)
  let collection ← given? Schema.ofToml? (Assoc.get? "collection" members)
  return ofParts (maxRetries.map UInt32.ofNat)
    (maxLogLength.map fun n => some (UInt64.ofNat n)) collection

end Chronicle
