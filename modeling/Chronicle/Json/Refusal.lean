/-
**Refusals.**  Why a data value is not the thing that was wanted, as a cause and in words.

Main definitions:

* `Wanted`, `Extent` — what was wanted of a value, and of the number of its items;
* `Refusal` — the causes;
* `Refusal.message` — the words.
-/

import Chronicle.Id
import Chronicle.Json.Printer
import Chronicle.Text.Quoted

set_option autoImplicit false

namespace Chronicle

/-! ### What was wanted -/

/-- What a place calls for. -/
inductive Wanted where
  | word64
  | word32
  | count
  | boolean
  | text
  | sequence
  | record (name : String)
  | suppression
  | reason
deriving DecidableEq, Repr

/-- What a place calls for, in words. -/
def Wanted.label : Wanted → String
  | .word64 => "u64"
  | .word32 => "u32"
  | .count => "usize"
  | .boolean => "a boolean"
  | .text => "a string"
  | .sequence => "a sequence"
  | .record name => "struct " ++ name
  | .suppression => "internally tagged enum Suppression"
  | .reason => "variant identifier"

/-- How many items an array ought to have. -/
inductive Extent where
  /-- The fields of a record. -/
  | record (name : String) (fields : Nat)
  /-- The two counts of a view that is too large. -/
  | tooLarge
  /-- No more than were read. -/
  | fewer
  /-- A given number. -/
  | exactly (n : Nat)
deriving DecidableEq, Repr

/-- How many items an array ought to have, in words. -/
def Extent.label : Extent → String
  | .record name fields => "struct " ++ name ++ " with " ++ toString fields ++ " elements"
  | .tooLarge => "struct variant Suppression::TooLarge with 2 elements"
  | .fewer => "fewer elements in array"
  | .exactly n => toString n ++ (if n = 1 then " element" else " elements") ++ " in sequence"

/-! ### Causes -/

/-- Why a value is refused. -/
inductive Refusal where
  /-- The value is of another kind. -/
  | wrongType (found : Json) (wanted : Wanted)
  /-- The value is an integer outside the range. -/
  | outOfRange (found : Int) (wanted : Wanted)
  /-- The value is the empty text, which names nothing. -/
  | emptyId (cause : EmptyId)
  /-- A member that has to be there is not. -/
  | missingField (name : String)
  /-- The value names no reason for withholding a view. -/
  | unknownReason (name : String)
  /-- An array has too few or too many items. -/
  | wrongLength (length : Nat) (wanted : Extent)

/-- A text between backticks. -/
def Text.ticked (s : String) : String :=
  "`" ++ s ++ "`"

/-- A value as refusals speak of it: its kind, and itself if it is small. -/
def Json.found : Json → String
  | .null => "null"
  | .bool b => "boolean " ++ Text.ticked (if b then "true" else "false")
  | .num (.int n) => "integer " ++ Text.ticked (toString n)
  | .num (.float x) => "floating point " ++ Text.ticked (Number.floatText x)
  | .str s => "string " ++ Text.quoted s
  | .arr _ => "sequence"
  | .obj _ => "map"

/-- The refusal in words. -/
def Refusal.message : Refusal → String
  | .wrongType found wanted => "invalid type: " ++ found.found ++ ", expected " ++ wanted.label
  | .outOfRange found wanted =>
    "invalid value: " ++ (Json.int found).found ++ ", expected " ++ wanted.label
  | .emptyId cause => cause.message
  | .missingField name => "missing field " ++ Text.ticked name
  | .unknownReason name =>
    "unknown variant " ++ Text.ticked name ++ ", expected one of " ++
      ", ".intercalate (["stale", "reset", "too_large"].map Text.ticked)
  | .wrongLength length wanted =>
    "invalid length " ++ toString length ++ ", expected " ++ wanted.label

end Chronicle
